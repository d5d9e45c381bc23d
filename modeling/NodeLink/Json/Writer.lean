import NodeLink.Json.Basic

/-!
# Writing JSON

Values are written on one line or, with an indent, one per line. Everything but visible ASCII is written
as escapes.
-/

namespace NodeLink.Json

open NodeLink.Text

/-- A code unit as an escape. -/
def unitEscape (n : Nat) : List Char := '\\' :: 'u' :: hexDigits 4 n

/-- A character beyond the first 65536 as a pair of halves. -/
def pairEscape (c : Char) : List Char :=
  let n := c.toNat - 0x10000
  unitEscape (0xD800 + n / 0x400) ++ unitEscape (0xDC00 + n % 0x400)

def escapeChar (c : Char) : List Char :=
  if c = '"' then ['\\', '"']
  else if c = '\\' then ['\\', '\\']
  else if c = '\n' then ['\\', 'n']
  else if c = '\r' then ['\\', 'r']
  else if c = '\t' then ['\\', 't']
  else if c = '\x08' then ['\\', 'b']
  else if c = '\x0c' then ['\\', 'f']
  else if 32 ≤ c.toNat ∧ c.toNat < 127 then [c]
  else if codeOf c < 0x10000 then unitEscape (codeOf c)
  else pairEscape c

/-- The characters inside a text. Two halves of one pair side by side would be read as one character, so
characters that carry such halves side by side are written as what they are. -/
def escapeChars : List Char → List Char
  | [] => []
  | [c] => escapeChar c
  | c :: d :: cs =>
    if isHighHalf (codeOf c) && isLowHalf (codeOf d) then pairEscape c ++ pairEscape d ++ escapeChars cs
    else escapeChar c ++ escapeChars (d :: cs)

/-- A text in quotes, with `rest` behind it. -/
def writeText (s : String) (rest : List Char) : List Char :=
  '"' :: escapeChars s.toList ++ '"' :: rest

def writeNumber : Number → List Char
  | .whole n => (Number.whole n).text
  | .real x => match Binary64.view x with
    | .undefined => "NaN".toList
    | .infinite neg => FixedText.signed neg "Infinity".toList
    | .finite neg m e => ShortestText.viewText (.finite neg m e)

/-- How values are set out: on one line, or every value on a line of its own behind `unit` once for each
level. -/
inductive Layout where
  | oneLine
  | indented (unit : List Char)

/-- The layout of an indent: so many spaces for each level, or one line if there is none. -/
def Layout.ofIndent : Option Nat → Layout
  | none => .oneLine
  | some width => .indented (List.replicate width ' ')

/-- What separates two values at a depth. -/
def Layout.between : Layout → Nat → List Char
  | .oneLine, _ => [',', ' ']
  | .indented unit, depth => ',' :: '\n' :: (List.replicate depth unit).flatten

/-- What stands after an opening and before a closing bracket. -/
def Layout.edge : Layout → Nat → List Char
  | .oneLine, _ => []
  | .indented unit, depth => '\n' :: (List.replicate depth unit).flatten

mutual
/-- A value at a depth, with `rest` behind it. -/
def writeOnto (layout : Layout) (depth : Nat) (value : Json) (rest : List Char) : List Char :=
  match value with
  | .null => "null".toList ++ rest
  | .bool b => (if b then "true".toList else "false".toList) ++ rest
  | .number n => writeNumber n ++ rest
  | .text s => writeText s rest
  | .list [] => '[' :: ']' :: rest
  | .list (x :: xs) =>
    '[' :: layout.edge (depth + 1) ++
      writeOnto layout (depth + 1) x (writeItems layout depth xs (layout.edge depth ++ ']' :: rest))
  | .record [] => '\x7b' :: '\x7d' :: rest
  | .record ((name, x) :: xs) =>
    '\x7b' :: layout.edge (depth + 1) ++ writeText name (':' :: ' ' ::
      writeOnto layout (depth + 1) x (writeFields layout depth xs (layout.edge depth ++ '\x7d' :: rest)))

/-- The items after the first, each behind a separator. -/
def writeItems (layout : Layout) (depth : Nat) (items : List Json) (rest : List Char) : List Char :=
  match items with
  | [] => rest
  | x :: xs =>
    layout.between (depth + 1) ++ writeOnto layout (depth + 1) x (writeItems layout depth xs rest)

/-- The fields after the first, each behind a separator. -/
def writeFields (layout : Layout) (depth : Nat) (fields : List (String × Json)) (rest : List Char) :
    List Char :=
  match fields with
  | [] => rest
  | (name, x) :: xs =>
    layout.between (depth + 1) ++ writeText name (':' :: ' ' ::
      writeOnto layout (depth + 1) x (writeFields layout depth xs rest))
end

def write (layout : Layout) (value : Json) : List Char := writeOnto layout 0 value []

def print (layout : Layout) (value : Json) : String := String.ofList (write layout value)

end NodeLink.Json
