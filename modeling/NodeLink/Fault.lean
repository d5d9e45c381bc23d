import NodeLink.Json.Reader
import NodeLink.Text.Utf8
import NodeLink.Files.Fault

/-!
# Faults

Why something could not be done. A fault is a cause with what it is about; `message` is its wording where
it has one. Many faults are about the sorts of the values that do not fit.
-/

namespace NodeLink

inductive Comparison where
  | less
  | atMost
  | greater
  | atLeast
  deriving DecidableEq, Repr

def Comparison.sign : Comparison → String
  | .less => "<"
  | .atMost => "<="
  | .greater => ">"
  | .atLeast => ">="

/-- What a value is used for that it is not fit for. -/
inductive Misfit where
  /-- An operation does not combine the two sorts. -/
  | operands (operation left right : String)
  | operand (operation sort : String)
  /-- Something of another sort cannot be joined to the value. -/
  | joining (left right : String)
  /-- Something that is no whole number cannot say how often the value is repeated. -/
  | repeating (factor : String)
  | order (how : Comparison) (left right : String)
  /-- The value has no decimal places. -/
  | places (sort : String)
  | length (sort : String)
  | key (sort : String)
  | measuring (sort : String)
  | counting (sort : String)
  | unpacking (sort : String)
  | running (sort : String)
  | field (sort : String)
  | unknownField (name : String)
  | text (sort : String)
  deriving DecidableEq, Repr

inductive Fault where
  /-- A value of another sort is needed. -/
  | misfit (m : Misfit)
  /-- The value has nothing of the name it is asked for. -/
  | noMember (sort name : String)
  | tooLarge
  /-- A divisor is zero, among doubles or among whole numbers. -/
  | zeroDivisor (real : Bool)
  | quotientTooLarge
  | outsideDomain
  | notNumeric
  | textPlaces
  | tooManyDigits (count : Nat)
  | wrongCount (enough : Bool)
  | tooDeep
  | noLoop
  | missingField (name : String)
  | unknownKind (value : Json)
  | missingSource (id : Json)
  | missingTarget (id : Json)
  | unknownFormat (name : String)
  | unknownEngine (name : String)
  | unknownStatement (name : String)
  | json (fault : Json.ReadFault) (text : List Char)
  | encoding (fault : Text.Utf8.DecodeFault)
  | unencodable
  | icon (uri : String) (reason : String)
  /-- A web address that cannot be asked for. -/
  | address (uri : String)
  /-- An address without an authority that can be used. -/
  | authority (uri : String)
  | file (fault : Files.Fault)
  | brokenPath
  | noLayout (reason : String)
  | collaborator (reason : String)

namespace Json

def sort : Json → String
  | .null => "NoneType"
  | .bool _ => "bool"
  | .number (.whole _) => "int"
  | .number (.real _) => "float"
  | .text _ => "str"
  | .list _ => "list"
  | .record _ => "dict"

end Json

namespace Misfit

def between (left right : String) : String := "'" ++ left ++ "' and '" ++ right ++ "'"

def message : Misfit → String
  | .operands operation left right =>
    "unsupported operand type(s) for " ++ operation ++ ": " ++ between left right
  | .operand operation sort => "bad operand type for " ++ operation ++ ": '" ++ sort ++ "'"
  | .joining left right => "can only concatenate " ++ left ++ " (not \"" ++ right ++ "\") to " ++ left
  | .repeating factor => "can't multiply sequence by non-int of type '" ++ factor ++ "'"
  | .order how left right =>
    "'" ++ how.sign ++ "' not supported between instances of " ++ between left right
  | .places sort => "unsupported format string passed to " ++ sort ++ ".__format__"
  | .length sort => "object of type '" ++ sort ++ "' has no len()"
  | .key sort => "unhashable type: '" ++ sort ++ "'"
  | .measuring sort => "must be real number, not " ++ sort
  | .counting sort => "'" ++ sort ++ "' object cannot be interpreted as an integer"
  | .unpacking sort => "cannot unpack non-iterable " ++ sort ++ " object"
  | .running sort => "'" ++ sort ++ "' object is not iterable"
  | .field sort => "'" ++ sort ++ "' object is not subscriptable"
  | .unknownField name => "got an unexpected keyword argument '" ++ name ++ "'"
  | .text sort => "expected string or bytes-like object, got '" ++ sort ++ "'"

end Misfit

namespace Fault

/-- The fault of a text that cannot be read as a value. -/
def ofRead (fault : Json.ReadFault) (text : List Char) : Fault :=
  match fault.flaw with
  | .digits => .notNumeric
  | .depth => .tooDeep
  | _ => .json fault text

def textOf (value : Json) : String := String.ofList value.spelled

/-- The name of the class of failures that a fault belongs to, as records of failures give it. -/
def label : Fault → String
  | .misfit _ => "TypeError"
  | .noMember .. => "AttributeError"
  | .tooLarge | .quotientTooLarge => "OverflowError"
  | .zeroDivisor _ => "ZeroDivisionError"
  | .noLoop | .collaborator _ => "RuntimeError"
  | .tooDeep => "RecursionError"
  | .missingField _ => "KeyError"
  | .json .. => "JSONDecodeError"
  | .encoding _ => "UnicodeDecodeError"
  | .unencodable => "UnicodeEncodeError"
  | .icon .. => "IconFetchError"
  | .address _ => "InvalidURL"
  | .file fault => fault.refusal.label
  | .noLayout _ => "LayoutUnavailableError"
  | .outsideDomain | .notNumeric | .textPlaces | .tooManyDigits _ | .wrongCount _ | .unknownKind _
  | .missingSource _ | .missingTarget _ | .unknownFormat _ | .unknownEngine _ | .unknownStatement _
  | .authority _ | .brokenPath => "ValueError"

def message : Fault → String
  | .misfit m => m.message
  | .noMember sort name => "'" ++ sort ++ "' object has no attribute '" ++ name ++ "'"
  | .tooLarge => "int too large to convert to float"
  | .zeroDivisor real => if real then "float division by zero" else "division by zero"
  | .quotientTooLarge => "integer division result too large for a float"
  | .outsideDomain => "math domain error"
  | .textPlaces => "Unknown format code 'f' for object of type 'str'"
  | .tooManyDigits count =>
    "Exceeds the limit (" ++ toString Text.digitLimit ++ " digits) for integer string conversion: value has " ++
      toString count ++ " digits; use sys.set_int_max_str_digits() to increase the limit"
  | .missingField name => String.ofList (Text.quoted name.toList)
  | .unknownKind value => String.ofList value.shown ++ " is not a valid EdgeKind"
  | .missingSource id => "Source node " ++ textOf id ++ " does not exist."
  | .missingTarget id => "Target node " ++ textOf id ++ " does not exist."
  | .unknownFormat name => "Unknown format: " ++ name ++ ". Use: svg, json, dot"
  | .tooDeep => Json.Flaw.depth.wording
  | .json fault text => fault.message text
  | .encoding fault => fault.message
  | .file fault => fault.message
  | .icon uri reason => uri ++ ": " ++ reason
  | .noLayout reason => reason
  | .collaborator reason => reason
  | _ => ""

end Fault

namespace Json

/-- A text, or the fault of a value that lacks what texts have under the given name. -/
def text? (name : String) : Json → Except Fault String
  | .text s => .ok s
  | value => .error (.noMember value.sort name)

/-- How many characters, items or fields a value has. -/
def length? : Json → Except Fault Nat
  | .text s => .ok s.length
  | .list items => .ok items.length
  | .record fields => .ok fields.length
  | value => .error (.misfit (.length value.sort))

/-- How often a value says that something is to be done. -/
def count? : Json → Except Fault Int
  | .bool b => .ok (if b then 1 else 0)
  | .number (.whole n) => .ok n
  | value => .error (.misfit (.counting value.sort))

end Json
end NodeLink
