import NodeLink.Text.Quoted

/-!
# UTF-8

`decode` reads a sequence of bytes as text or says which bytes are no text and why. A sequence that
breaks off is blamed from its first byte to the last one that could still belong to it.
-/

namespace NodeLink.Text.Utf8

inductive Reason where
  | start
  | continuation
  | truncated
  deriving DecidableEq, Repr

/-- The bytes from `first` to `last` are no text. -/
structure DecodeFault where
  reason : Reason
  byte : Nat
  first : Nat
  last : Nat
  deriving DecidableEq, Repr

def Reason.wording : Reason → String
  | .start => "invalid start byte"
  | .continuation => "invalid continuation byte"
  | .truncated => "unexpected end of data"

def DecodeFault.message (f : DecodeFault) : String :=
  let place := if f.first = f.last
    then "byte 0x" ++ String.ofList (hexDigits 2 f.byte) ++ " in position " ++ toString f.first
    else "bytes in position " ++ toString f.first ++ "-" ++ toString f.last
  "'utf-8' codec can't decode " ++ place ++ ": " ++ f.reason.wording

/-- How many bytes follow a first byte, and between what bounds the next one lies. -/
def follow? (b : Nat) : Option (Nat × Nat × Nat) :=
  if 0xC2 ≤ b && b ≤ 0xDF then some (1, 0x80, 0xBF)
  else if b == 0xE0 then some (2, 0xA0, 0xBF)
  else if b == 0xED then some (2, 0x80, 0x9F)
  else if 0xE1 ≤ b && b ≤ 0xEF then some (2, 0x80, 0xBF)
  else if b == 0xF0 then some (3, 0x90, 0xBF)
  else if 0xF1 ≤ b && b ≤ 0xF3 then some (3, 0x80, 0xBF)
  else if b == 0xF4 then some (3, 0x80, 0x8F)
  else none

/-- Takes the following bytes of a character: its value and the rest, or how many bytes fitted and
whether the data ended there. -/
def takeFollow : Nat → Nat → Nat → Nat → List Nat → Except (Nat × Bool) (Nat × List Nat)
  | 0, _, _, value, rest => .ok (value, rest)
  | _ + 1, _, _, _, [] => .error (0, true)
  | n + 1, lo, hi, value, b :: rest =>
    if lo ≤ b && b ≤ hi then
      match takeFollow n 0x80 0xBF (value * 64 + b % 64) rest with
      | .ok found => .ok found
      | .error (fitted, ended) => .error (fitted + 1, ended)
    else .error (0, false)

/-- What the first bytes stand for: a character and the bytes after it, or the reason they stand for none
and how many of them are to blame. -/
def takeChar : Nat → List Nat → Except (Reason × Nat) (Char × List Nat)
  | b, rest =>
    if b < 0x80 then .ok (Char.ofNat b, rest)
    else match follow? b with
      | none => .error (.start, 1)
      | some (n, lo, hi) =>
        let lead := if n = 1 then b % 32 else if n = 2 then b % 16 else b % 8
        match takeFollow n lo hi lead rest with
        | .ok (value, rest) => .ok (Char.ofNat value, rest)
        | .error (fitted, ended) => .error (if ended then .truncated else .continuation, fitted + 1)

/-- Reads bytes as text from the given position on. The fuel bounds the number of characters. -/
def decodeFrom : Nat → Nat → List Nat → Except DecodeFault (List Char)
  | 0, _, _ => .ok []
  | _ + 1, _, [] => .ok []
  | fuel + 1, position, b :: bytes =>
    match takeChar b bytes with
    | .error (reason, blamed) => .error ⟨reason, b, position, position + blamed - 1⟩
    | .ok (c, rest) =>
      (decodeFrom fuel (position + (bytes.length + 1 - rest.length)) rest).map (c :: ·)

def decode (bytes : List Nat) : Except DecodeFault (List Char) :=
  decodeFrom (bytes.length + 1) 0 bytes

/-- Reads bytes as text with a replacement character for every stretch that is none. -/
def decodeLenientFrom : Nat → List Nat → List Char
  | 0, _ => []
  | _ + 1, [] => []
  | fuel + 1, b :: bytes =>
    match takeChar b bytes with
    | .error (_, blamed) => '\uFFFD' :: decodeLenientFrom fuel ((b :: bytes).drop blamed)
    | .ok (c, rest) => c :: decodeLenientFrom fuel rest

def decodeLenient (bytes : List Nat) : List Char := decodeLenientFrom (bytes.length + 1) bytes

def encode (cs : List Char) : List Nat :=
  (String.ofList cs).toUTF8.toList.map (·.toNat)

end NodeLink.Text.Utf8
