import NodeLink.Svg.Markup
import NodeLink.Graph.Document
import NodeLink.Text.WordChar

/-!
# Symbols

The text of an icon becomes a symbol that nodes refer to: what its root element holds, the root's view
box, and the root's fill. The symbol's id is a hash of where the icon comes from.
-/

namespace NodeLink

structure Symbol where
  id : List Char
  content : List Char
  viewBox : List Char
  deriving DecidableEq, Repr

namespace Symbol

open NodeLink.Text

def hashStep (h : Nat) (c : Char) : Nat := (h * 31 + codeOf c) % Nat.pow 2 32

/-- The magnitude of the hash, read as a number with a sign. -/
def hash (uri : List Char) : Nat :=
  let h := uri.foldl hashStep 0
  if h < Nat.pow 2 31 then h else Nat.pow 2 32 - h

def idOf (uri : List Char) : List Char := "img_".toList ++ digitsOf (hash uri)

/-- The character of a text of one character. -/
def charOf : Json → Except Fault Char
  | .text s => match s.toList with
    | [c] => .ok c
    | _ => .error (.misfit (.text "str"))
  | value => .error (.misfit (.text value.sort))

/-- The id for a value that runs through characters. -/
def idOfJson (value : Json) : Except Fault (List Char) := do return idOf (← (← value.items?).mapM charOf)

/-- Whether a character is one of the letters of the tag name, in any case. -/
def isLetterOf (letter : Char) (c : Char) : Bool :=
  c == letter || c == letter.toUpper || (letter == 's' && c == '\u017F')

/-- The text after the given lead, whose letters may be in any case. -/
def afterName? : List Char → List Char → Option (List Char)
  | [], cs => some cs
  | _ :: _, [] => none
  | a :: lead, c :: cs => if isLetterOf a c then afterName? lead cs else none

/-- Whether a name that ends here ends: no letter or digit follows. -/
def endsName (cs : List Char) : Bool := !(cs.head?.map isWordChar).getD false

/-- The root's tag after its name, and the text after the tag. -/
def tagAt? (cs : List Char) : Option (List Char × List Char) := do
  let rest ← afterName? ['<', 's', 'v', 'g'] cs
  if endsName rest then
    match rest.dropWhile (· ≠ '>') with
    | '>' :: after => some (rest.takeWhile (· ≠ '>'), after)
    | _ => none
  else none

/-- The first root tag of a text: the inside of the tag after its name, and the text after the tag. -/
def findTag? : List Char → Option (List Char × List Char)
  | [] => none
  | c :: cs =>
    match tagAt? (c :: cs) with
    | some found => some found
    | none => findTag? cs

/-- The text before the last closing tag. -/
def beforeLastClose? : List Char → Option (List Char)
  | [] => none
  | c :: cs =>
    match beforeLastClose? cs with
    | some inside => some (c :: inside)
    | none => (afterName? ['<', '/', 's', 'v', 'g', '>'] (c :: cs)).map fun _ => []

def afterEquals? (cs : List Char) : Option (List Char) :=
  match trimStart cs with
  | '=' :: rest => some (trimStart rest)
  | _ => none

def isQuote (c : Char) : Bool := c == '"' || c == '\''

/-- A non-empty text in quotes of either kind. -/
def inQuotes? : List Char → Option (List Char)
  | [] => none
  | q :: cs =>
    let value := cs.takeWhile (!isQuote ·)
    if isQuote q && !value.isEmpty && !(cs.dropWhile (!isQuote ·)).isEmpty then some value else none

/-- A run of digits and points, possibly after a quote. -/
def lengthText? (cs : List Char) : Option (List Char) :=
  let cs := match cs with
    | q :: rest => if isQuote q then rest else q :: rest
    | [] => []
  let run := cs.takeWhile fun c => isDigit c || c == '.'
  if run.isEmpty then none else some run

/-- The first value of an attribute after a blank, as far as `value?` finds one. -/
def attr? (name : List Char) (value? : List Char → Option (List Char)) : List Char → Option (List Char)
  | [] => none
  | c :: cs =>
    let here := if isBlank c
      then (afterLead? name cs).bind fun rest => (afterEquals? rest).bind value?
      else none
    match here with
    | some found => some found
    | none => attr? name value? cs

/-- The value of the view box attribute; its name begins where no letter or digit stands before it. -/
def viewBoxAttr? (before : Char) : List Char → Option (List Char)
  | [] => none
  | c :: cs =>
    let here := if isWordChar before then none
      else (afterLead? "viewBox".toList (c :: cs)).bind fun rest => (afterEquals? rest).bind inQuotes?
    match here with
    | some found => some found
    | none => viewBoxAttr? c cs

def defaultViewBox : List Char := "0 0 100 100".toList

/-- The view box that a width and a height make. -/
def viewBoxOfSize? (width height : List Char) : Option (List Char) := do
  let w ← Number.readFloat? width
  let h ← Number.readFloat? height
  return "0 0 ".toList ++ (Number.real w).compact ++ ' ' :: (Number.real h).compact

/-- The view box of a root tag, given its inside: its own, the one its size makes, or the default. -/
def viewBoxOfTag (tag : List Char) : List Char :=
  match viewBoxAttr? 'g' tag with
  | some value => trim value
  | none =>
    match attr? "width".toList lengthText? tag, attr? "height".toList lengthText? tag with
    | some width, some height => (viewBoxOfSize? width height).getD defaultViewBox
    | _, _ => defaultViewBox

def viewBoxOf (svg : List Char) : List Char :=
  match findTag? svg with
  | some (tag, _) => viewBoxOfTag tag
  | none => defaultViewBox

/-- What an icon holds inside its root element, or all of it if it has none. -/
def innerOf (svg : List Char) : List Char :=
  match (findTag? svg).bind fun found => beforeLastClose? found.2 with
  | some inner => trim inner
  | none => trim svg

def fillOf? (svg : List Char) : Option (List Char) :=
  (findTag? svg).bind fun found => attr? "fill".toList inQuotes? found.1

def ofSvg (svg id : List Char) : Symbol :=
  let inner := match fillOf? svg with
    | some fill => "<g fill=\"".toList ++ fill ++ "\">".toList ++ innerOf svg ++ "</g>".toList
    | none => innerOf svg
  let viewBox := viewBoxOf svg
  ⟨id, "<symbol id=\"".toList ++ id ++ "\" viewBox=\"".toList ++ viewBox ++ "\">".toList ++ inner ++
    "</symbol>".toList, viewBox⟩

/-- The width and the height of a view box, its third and its fourth number, if all of it can be read. -/
def sides? (viewBox : List Char) : Option (Float × Float) :=
  let parts := splitAtEach (fun c => isBlank c || c == ',') (trim viewBox)
  let readable := !(parts.head?.getD []).isEmpty && !(parts.getLast?.getD []).isEmpty
  match if readable then (parts.filter (!·.isEmpty)).mapM Number.readFloat? else none with
  | some (_ :: _ :: width :: height :: _) => some (width, height)
  | _ => none

end Symbol
end NodeLink
