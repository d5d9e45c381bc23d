import NodeLink.Json.Basic
import NodeLink.Number.Reading

/-!
# Reading JSON

`Json.read` takes a whole text as one JSON value, or says what is wrong and where. Beyond the standard
the three names for what is no ordinary number are values. Where a name stands twice in a record, the
later value counts.
-/

namespace NodeLink.Json

open NodeLink.Text

inductive Flaw where
  | value
  | name
  | colon
  | comma
  | openText
  | control
  | escape
  | codePoint
  | more
  | byteOrderMark
  | digits
  | depth
  deriving DecidableEq, Repr

def Flaw.wording : Flaw → String
  | .value => "Expecting value"
  | .name => "Expecting property name enclosed in double quotes"
  | .colon => "Expecting ':' delimiter"
  | .comma => "Expecting ',' delimiter"
  | .openText => "Unterminated string starting at"
  | .control => "Invalid control character at"
  | .escape => "Invalid \\escape"
  | .codePoint => "Invalid \\uXXXX escape"
  | .more => "Extra data"
  | .byteOrderMark => "Unexpected UTF-8 BOM (decode using utf-8-sig)"
  | .digits => "Exceeds the limit (4300 digits) for integer string conversion"
  | .depth => "maximum recursion depth exceeded"

/-- A flaw, and how many characters of the text are left where it was found. -/
structure ReadFault where
  flaw : Flaw
  left : Nat
  deriving DecidableEq, Repr

def failAt {α : Type} (flaw : Flaw) (rest : List Char) : Except ReadFault α := .error ⟨flaw, rest.length⟩

def isJsonBlank (c : Char) : Bool := c == ' ' || c == '\t' || c == '\n' || c == '\r'

def skipBlanks (cs : List Char) : List Char := cs.dropWhile isJsonBlank

/-- Four hexadecimal digits with at least one character after them. -/
def hexUnit? : List Char → Option (Nat × List Char)
  | a :: b :: c :: d :: e :: rest => do
    let a ← hexValue? a
    let b ← hexValue? b
    let c ← hexValue? c
    let d ← hexValue? d
    return (4096 * a + 256 * b + 16 * c + d, e :: rest)
  | _ => none

def pairChar (high low : Nat) : Char := Char.ofNat (0x10000 + (high - 0xD800) * 0x400 + (low - 0xDC00))

/-- The character after a backslash that is no code unit. -/
def simpleEscape? : Char → Option Char
  | '"' => some '"'
  | '\\' => some '\\'
  | '/' => some '/'
  | 'b' => some '\x08'
  | 'f' => some '\x0c'
  | 'n' => some '\n'
  | 'r' => some '\r'
  | 't' => some '\t'
  | _ => none

/-- A code unit, given the text from its letter on, joined with the second half that may follow it. -/
def readUnit (at_ : List Char) (cs : List Char) : Except ReadFault (Char × List Char) :=
  match hexUnit? cs with
  | none => failAt .codePoint at_
  | some (unit, rest) =>
    match isHighHalf unit, rest with
    | true, '\\' :: 'u' :: after =>
      if after.length < 5 then .ok (unitChar unit, rest)
      else match hexUnit? after with
        | none => failAt .codePoint ('u' :: after)
        | some (low, rest') =>
          if isLowHalf low then .ok (pairChar unit low, rest') else .ok (unitChar unit, rest)
    | _, _ => .ok (unitChar unit, rest)

/-- The characters of a text up to its closing quote. The fuel bounds the number of characters, and
`start` is the text from the opening quote on. -/
def readChars (start : List Char) : Nat → List Char → Except ReadFault (List Char × List Char)
  | 0, _ => failAt .openText start
  | _ + 1, [] => failAt .openText start
  | fuel + 1, c :: cs =>
    if c = '"' then .ok ([], cs)
    else if c.toNat < 32 then failAt .control (c :: cs)
    else if c = '\\' then
      match cs with
      | [] => failAt .openText start
      | 'u' :: after => do
        let (unit, rest) ← readUnit cs after
        let (more, rest) ← readChars start fuel rest
        return (unit :: more, rest)
      | e :: after =>
        match simpleEscape? e with
        | none => failAt .escape (c :: cs)
        | some plain => do
          let (more, rest) ← readChars start fuel after
          return (plain :: more, rest)
    else do
      let (more, rest) ← readChars start fuel cs
      return (c :: more, rest)

/-- A text, given from its opening quote on. -/
def readText (start : List Char) : Except ReadFault (String × List Char) := do
  let (cs, rest) ← readChars start (start.length + 1) (start.drop 1)
  return (String.ofList cs, rest)

def isAsciiDigit (c : Char) : Bool := '0' ≤ c && c ≤ '9'

/-- The whole part of a number: a zero alone or digits that begin with none. -/
def wholePart? : List Char → Option (List Char × List Char)
  | [] => none
  | c :: cs =>
    if c = '0' then some (['0'], cs)
    else if isAsciiDigit c then some (c :: cs.takeWhile isAsciiDigit, cs.dropWhile isAsciiDigit)
    else none

/-- A point with its digits, if both are there. -/
def placesPart (cs : List Char) : Option (List Char) × List Char :=
  match cs with
  | '.' :: d :: rest =>
    if isAsciiDigit d then (some (d :: rest.takeWhile isAsciiDigit), rest.dropWhile isAsciiDigit)
    else (none, cs)
  | _ => (none, cs)

/-- The sign of an exponent, of which only a minus is kept. -/
def powerSign : List Char → List Char × List Char
  | '-' :: cs => (['-'], cs)
  | '+' :: cs => ([], cs)
  | cs => ([], cs)

/-- The letter of an exponent, its sign and its digits, if all of them are there. -/
def powerPart (cs : List Char) : Option (List Char) × List Char :=
  match cs with
  | [] => (none, cs)
  | e :: after =>
    let (mark, digits) := powerSign after
    if (e = 'e' ∨ e = 'E') ∧ digits.head?.any isAsciiDigit then
      (some ('e' :: mark ++ digits.takeWhile isAsciiDigit), digits.dropWhile isAsciiDigit)
    else (none, cs)

/-- A number behind its sign; `start` is the text from the sign on. -/
def readUnsigned (start : List Char) (neg : Bool) (cs : List Char) :
    Except ReadFault (Number × List Char) :=
  match wholePart? cs with
  | none => failAt .value start
  | some (whole, rest) =>
    match placesPart rest with
    | (places, rest) =>
      match powerPart rest with
      | (none, rest) =>
        match places with
        | none => match wholeOfDigits? whole with
          | none => failAt .digits start
          | some n => .ok (.whole (if neg then -(n : Int) else n), rest)
        | some ds =>
          .ok (.real (Number.ofDecimal neg (digitsValue (whole ++ ds)) (-(ds.length : Int))), rest)
      | (some power, rest) =>
        let ds := places.getD []
        let e := (Number.exponentPart? power).getD 0
        .ok (.real (Number.ofDecimal neg (digitsValue (whole ++ ds)) (e - ds.length)), rest)

/-- A number, given from its sign or first digit on. -/
def readNumber (start : List Char) : Except ReadFault (Number × List Char) :=
  match start with
  | '-' :: cs => readUnsigned start true cs
  | cs => readUnsigned start false cs

def constants : List (List Char × Json) :=
  [("null".toList, .null), ("true".toList, .bool true), ("false".toList, .bool false),
    ("NaN".toList, .real Binary64.undefined), ("Infinity".toList, .real Binary64.infinity),
    ("-Infinity".toList, .real (-Binary64.infinity))]

def readPlain (cs : List Char) : Except ReadFault (Json × List Char) :=
  match constants.findSome? fun (name, value) => (afterLead? name cs).map (value, ·) with
  | some found => .ok found
  | none => do
    let (n, rest) ← readNumber cs
    return (.number n, rest)

/-- How many lists and records may be open at one place. -/
def depthLimit : Nat := 990

mutual
/-- A value. The fuel bounds how many values and separators are read, and `depth` lists and records may be
opened at one place. -/
def readValue : Nat → Nat → List Char → Except ReadFault (Json × List Char)
  | 0, _, cs => failAt .value cs
  | fuel + 1, depth, cs =>
    match cs with
    | '"' :: _ => do
      let (s, rest) ← readText cs
      return (.text s, rest)
    | '[' :: rest => if depth = 0 then failAt .depth cs else readList fuel (depth - 1) (skipBlanks rest)
    | '\x7b' :: rest => if depth = 0 then failAt .depth cs else readRecord fuel (depth - 1) (skipBlanks rest)
    | _ => readPlain cs

/-- A list, given from behind its opening bracket on. -/
def readList : Nat → Nat → List Char → Except ReadFault (Json × List Char)
  | 0, _, cs => failAt .value cs
  | fuel + 1, depth, cs =>
    match cs with
    | ']' :: after => .ok (.list [], after)
    | inner => do
      let (items, rest) ← readItems fuel depth inner
      return (.list items, rest)

/-- A record, given from behind its opening bracket on. -/
def readRecord : Nat → Nat → List Char → Except ReadFault (Json × List Char)
  | 0, _, cs => failAt .name cs
  | fuel + 1, depth, cs =>
    match cs with
    | '\x7d' :: after => .ok (.record [], after)
    | inner => do
      let (fields, rest) ← readFields fuel depth [] inner
      return (.record fields, rest)

/-- The values of a list, from the first one on. -/
def readItems : Nat → Nat → List Char → Except ReadFault (List Json × List Char)
  | 0, _, cs => failAt .value cs
  | fuel + 1, depth, cs => do
    let (item, rest) ← readValue fuel depth cs
    match skipBlanks rest with
    | ']' :: after => return ([item], after)
    | ',' :: after =>
      let (items, rest) ← readItems fuel depth (skipBlanks after)
      return (item :: items, rest)
    | other => failAt .comma other

/-- The fields of a record, from the first one on, added to those already read. -/
def readFields : Nat → Nat → List (String × Json) → List Char →
    Except ReadFault (List (String × Json) × List Char)
  | 0, _, _, cs => failAt .name cs
  | fuel + 1, depth, found, cs =>
    match cs with
    | '"' :: _ => do
      let (name, rest) ← readText cs
      match skipBlanks rest with
      | ':' :: after =>
        let (value, rest) ← readValue fuel depth (skipBlanks after)
        let found := setField name value found
        match skipBlanks rest with
        | '\x7d' :: after => return (found, after)
        | ',' :: after => readFields fuel depth found (skipBlanks after)
        | other => failAt .comma other
      | other => failAt .colon other
    | other => failAt .name other
end

/-- Reads a text that holds one value and blanks around it. No character takes more than three units of
fuel. -/
def readAll (cs : List Char) : Except ReadFault Json :=
  match cs with
  | '\uFEFF' :: _ => failAt .byteOrderMark cs
  | _ => do
    let (value, rest) ← readValue (3 * cs.length + 3) depthLimit (skipBlanks cs)
    match skipBlanks rest with
    | [] => return value
    | more => failAt .more more

def read (text : String) : Except ReadFault Json := readAll text.toList

/-- What is wrong with `text`, with the place given by line, column and offset. -/
def ReadFault.message (fault : ReadFault) (text : List Char) : String :=
  let offset := text.length - fault.left
  let before := text.take offset
  let line := before.count '\n' + 1
  let column := (before.reverse.takeWhile (· ≠ '\n')).length + 1
  if fault.flaw = .digits then
    let run := (text.drop offset).dropWhile (· = '-') |>.takeWhile isAsciiDigit
    fault.flaw.wording ++ ": value has " ++ toString run.length ++
      " digits; use sys.set_int_max_str_digits() to increase the limit"
  else
    fault.flaw.wording ++ ": line " ++ toString line ++ " column " ++ toString column ++ " (char " ++
      toString offset ++ ")"

end NodeLink.Json
