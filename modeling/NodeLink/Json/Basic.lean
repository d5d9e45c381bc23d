import NodeLink.Number.Basic
import NodeLink.Text.Quoted

/-!
# JSON values

The fields of a graph document may hold any JSON value. A value that names a node or an edge is used
through its `Key`, which is the same for numbers of equal value however they are written.
-/

namespace NodeLink

inductive Json where
  | null
  | bool (b : Bool)
  | number (n : Number)
  | text (s : String)
  | list (items : List Json)
  | record (fields : List (String × Json))
  deriving Repr

instance : Inhabited Json := ⟨.null⟩

/-- What a value is looked up by. Equal numbers have equal keys, and so have the numbers 1 and 0 and the
truth values. -/
inductive Key where
  | null
  | text (s : String)
  | whole (n : Int)
  | other (bits : Nat)
  deriving DecidableEq, Repr

namespace Json

def whole (n : Int) : Json := .number (.whole n)
def real (x : Float) : Json := .number (.real x)

def isNull : Json → Bool
  | .null => true
  | _ => false

/-- Whether the value counts as given: not null, false, zero or empty. -/
def isGiven : Json → Bool
  | .null => false
  | .bool b => b
  | .number n => !n.isZero
  | .text s => !s.isEmpty
  | .list items => !items.isEmpty
  | .record fields => !fields.isEmpty

/-- The value, or `other` in its place if it does not count as given. -/
def orElse (value other : Json) : Json := if value.isGiven then value else other

def field? (name : String) : List (String × Json) → Option Json
  | [] => none
  | (key, value) :: rest => if key = name then some value else field? name rest

/-- Puts a value under a name, in the old place if the name is there already. -/
def setField (name : String) (value : Json) : List (String × Json) → List (String × Json)
  | [] => [(name, value)]
  | (key, old) :: rest =>
    if key = name then (key, value) :: rest else (key, old) :: setField name value rest

/-- The whole number that a double is equal to. -/
def wholeOf? : FloatView → Option Int
  | .finite neg m e =>
    let (num, den) := Binary64.fraction m e
    if num % den = 0 then some (if neg then -(num / den : Nat) else (num / den : Nat)) else none
  | _ => none

def numberKey : Number → Key
  | .whole n => .whole n
  | .real x => match wholeOf? (Binary64.view x) with
    | some n => .whole n
    | none => .other x.toBits.toNat

/-- The key of a value; lists and records have none. -/
def key? : Json → Option Key
  | .null => some .null
  | .bool b => some (.whole (if b then 1 else 0))
  | .number n => some (numberKey n)
  | .text s => some (.text s)
  | .list _ => none
  | .record _ => none

mutual
/-- Whether two values are the same; numbers and truth values are compared by their keys, and the order
of the fields of a record does not matter. -/
def same : Json → Json → Bool
  | .list xs, .list ys => sameItems xs ys
  | .record xs, .record ys => xs.length == ys.length && sameFields xs ys
  | .list _, _ => false
  | .record _, _ => false
  | x, y => x.key? == y.key?

def sameItems : List Json → List Json → Bool
  | [], [] => true
  | x :: xs, y :: ys => same x y && sameItems xs ys
  | _, _ => false

def sameFields : List (String × Json) → List (String × Json) → Bool
  | [], _ => true
  | (name, x) :: xs, ys =>
    (match field? name ys with
      | some y => same x y
      | none => false) && sameFields xs ys
end

/-- Whether two values are equal. What is no ordinary number equals nothing, not even itself. -/
def equal : Json → Json → Bool
  | .number m, .number n => m.eq n
  | x, y => x.same y

mutual
/-- How a value is shown inside a message: texts in quotes, names of the constants with a capital. -/
def shown : Json → List Char
  | .null => "None".toList
  | .bool b => if b then "True".toList else "False".toList
  | .number n => n.text
  | .text s => Text.quoted s.toList
  | .list items => '[' :: shownItems items ++ [']']
  | .record fields => '\x7b' :: shownFields fields ++ ['\x7d']

def shownItems : List Json → List Char
  | [] => []
  | [x] => shown x
  | x :: xs => shown x ++ ',' :: ' ' :: shownItems xs

def shownFields : List (String × Json) → List Char
  | [] => []
  | [(name, x)] => Text.quoted name.toList ++ ':' :: ' ' :: shown x
  | (name, x) :: xs => Text.quoted name.toList ++ ':' :: ' ' :: shown x ++ ',' :: ' ' :: shownFields xs
end

/-- How a value is written out as part of a text: a text stands for itself. -/
def spelled : Json → List Char
  | .text s => s.toList
  | value => value.shown

end Json
end NodeLink
