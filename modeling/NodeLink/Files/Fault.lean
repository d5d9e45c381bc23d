import NodeLink.Text.HalfPair
import NodeLink.Text.Quoted
import NodeLink.Text.Utf8

/-!
# Refusals of files

Why the file system refuses a path. Every reason has a number and a wording.
-/

namespace NodeLink.Files

inductive Refusal where
  | missing
  | taken
  | notDirectory
  | isDirectory
  | nameTooLong
  /-- A reason of the system that has nothing to do with paths. -/
  | other (number : Nat) (wording : String)
  deriving DecidableEq, Repr

namespace Refusal

def number : Refusal → Nat
  | .missing => 2
  | .taken => 17
  | .notDirectory => 20
  | .isDirectory => 21
  | .nameTooLong => 36
  | .other number _ => number

def wording : Refusal → String
  | .missing => "No such file or directory"
  | .taken => "File exists"
  | .notDirectory => "Not a directory"
  | .isDirectory => "Is a directory"
  | .nameTooLong => "File name too long"
  | .other _ wording => wording

def message (r : Refusal) : String := "[Errno " ++ toString r.number ++ "] " ++ r.wording

/-- The name of the class of failures that a refusal belongs to. -/
def label : Refusal → String
  | .missing => "FileNotFoundError"
  | .taken => "FileExistsError"
  | .notDirectory => "NotADirectoryError"
  | .isDirectory => "IsADirectoryError"
  | .nameTooLong | .other .. => "OSError"

end Refusal

structure Fault where
  refusal : Refusal
  path : List Char
  deriving DecidableEq, Repr

def Fault.message (f : Fault) : String := f.refusal.message ++ ": " ++ String.ofList (Text.quoted f.path)

/-- The longest name of a file, in bytes. -/
def nameLimit : Nat := 255

def isTooLong (name : List Char) : Bool := nameLimit < (Text.Utf8.encode name).length

/-- The longest path, in bytes. -/
def pathLimit : Nat := 4095

def isTooLongPath (path : List Char) : Bool := pathLimit < (Text.Utf8.encode path).length

/-- Whether a path holds the character that ends paths. -/
def isBroken (path : List Char) : Bool := path.contains '\x00'

/-- Whether a character has no bytes in a path: it carries a half that does not stand for a byte of its own. -/
def isByteless (c : Char) : Bool := Text.carriesHalf c && !(0xDC80 ≤ Text.codeOf c && Text.codeOf c ≤ 0xDCFF)

/-- Whether a path cannot be written in bytes. -/
def isUnnameable (path : List Char) : Bool := path.any isByteless

end NodeLink.Files
