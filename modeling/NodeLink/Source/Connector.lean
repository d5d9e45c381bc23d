import NodeLink.Graph.Kind
import NodeLink.Text.Blank
import NodeLink.Text.Digit

/-!
# Connectors

The part of an edge line before its label is a left end, a connector and a right end. There are five
forms of connectors, tried in a fixed order. A form is looked for behind the shortest left end that has
it; where a text has the mark of a form but no connector of it, it is cut at the mark.
-/

namespace NodeLink.Source

open NodeLink.Text

inductive Form where
  | both
  | forward
  | backward
  | dashes
  | single
  deriving DecidableEq, Repr

namespace Form

/-- The forms in the order in which they are tried. -/
def all : List Form := [.both, .forward, .backward, .dashes, .single]

/-- What marks a form. The single dash has no mark of its own. -/
def mark? : Form → Option (List Char)
  | .both => some ['<', '-', '>']
  | .forward => some ['-', '>']
  | .backward => some ['<', '-']
  | .dashes => some ['-', '-']
  | .single => none

def kind : Form → EdgeKind
  | .both => .doubleArrow
  | .forward => .arrow
  | .backward => .arrow
  | .dashes => .line
  | .single => .line

/-- Whether the edge runs from right to left. -/
def isReversed : Form → Bool
  | .backward => true
  | _ => false

/-- A weight with the mark `before` in front of it and `after` behind it. -/
def weighted? (before after : List Char) (cs : List Char) : Option (List Char × List Char) := do
  let rest ← afterLead? before cs
  let digits := rest.takeWhile isDigit
  if digits.isEmpty then none
  else return (digits, ← afterLead? after (rest.dropWhile isDigit))

/-- A mark without a weight. -/
def plain? (mark : List Char) (cs : List Char) : Option (List Char × List Char) :=
  (afterLead? mark cs).map ([], ·)

/-- The ways to read a connector at the front of a text, the longest first: its weight, empty if it has
none, and what follows it. -/
def readings (form : Form) (cs : List Char) : List (List Char × List Char) :=
  let found := match form with
    | .both => [weighted? ['<', '-'] ['-', '>'] cs, plain? ['<', '-', '>'] cs]
    | .forward =>
      [weighted? ['-', '-'] ['-', '>'] cs, plain? ['-', '-', '>'] cs, weighted? ['-'] ['-', '>'] cs,
        plain? ['-', '>'] cs]
    | .backward => [weighted? ['<', '-'] ['-'] cs, plain? ['<', '-'] cs]
    | .dashes => [weighted? ['-'] ['-', '-'] cs, plain? ['-', '-'] cs]
    | .single => [weighted? ['-'] ['-'] cs]
  found.filterMap id

/-- The right end of an edge is the rest of the line, which must not be empty. A line feed may only be
the very last character. -/
def rightEnd? (cs : List Char) : Option (List Char) :=
  let line := cs.takeWhile (· ≠ '\n')
  let rest := cs.dropWhile (· ≠ '\n')
  if !line.isEmpty && (rest.isEmpty || rest == ['\n']) then some line else none

/-- The connector at the front of a text that leaves a right end: its weight and the right end. -/
def atFront? (form : Form) (cs : List Char) : Option (List Char × List Char) :=
  (form.readings cs).findSome? fun (weight, rest) => (rightEnd? rest).map (weight, ·)

/-- The connector behind the shortest left end: the left end, the weight and the right end. -/
def find? (form : Form) : List Char → Option (List Char × List Char × List Char)
  | [] => none
  | c :: cs =>
    if c = '\n' then none
    else match form.atFront? cs with
      | some (weight, right) => some ([c], weight, right)
      | none => (form.find? cs).map fun (left, found) => (c :: left, found)

/-- The ends and the weight that a form finds in a text. -/
def split? (form : Form) (cs : List Char) : Option (List Char × List Char × List Char) :=
  match form.find? cs with
  | some found => some found
  | none => do
    let (left, right) ← cutAt? (← form.mark?) cs
    return (left, [], right)

end Form

/-- An edge between two names, as far as it is written before the label. -/
structure Link where
  source : List Char
  target : List Char
  weight : Nat
  kind : EdgeKind

/-- The weight that digits stand for: 1 if there are none, and at least 1. -/
def weightOf (digits : List Char) : Except Fault Nat :=
  if digits.isEmpty then .ok 1
  else match wholeOfDigits? digits with
    | some n => .ok (max n 1)
    | none => .error (.tooManyDigits digits.length)

/-- The link that a form finds, from its ends and weight. -/
def Form.link (form : Form) (left digits right : List Char) : Except Fault Link := do
  let weight ← weightOf digits
  if form.isReversed then return ⟨trim right, trim left, weight, form.kind⟩
  else return ⟨trim left, trim right, weight, form.kind⟩

/-- The link written in a text, by the first form that finds one. -/
def readLink (cs : List Char) : Except Fault (Option Link) :=
  match Form.all.findSome? fun form => (form.split? cs).map (form, ·) with
  | some (form, left, digits, right) => some <$> form.link left digits right
  | none => .ok none

end NodeLink.Source
