import NodeLink.Text.Blank
import NodeLink.Text.Quoted
import NodeLink.Text.Utf8

/-!
# Paths

Paths of files are compared without empty and single-dot steps; a step with two dots stays. Percent signs
with two hexadecimal digits in an address stand for bytes.
-/

namespace NodeLink.Text.Path

def isSlash (c : Char) : Bool := c == '/'

/-- The root in front of a path: none, one slash, or exactly two. -/
def rootOf (path : List Char) : List Char :=
  match (path.takeWhile isSlash).length with
  | 0 => []
  | 2 => ['/', '/']
  | _ => ['/']

/-- The steps of a path that count. -/
def steps (path : List Char) : List (List Char) :=
  (splitAtEach isSlash path).filter fun step => !step.isEmpty && step != ['.']

def joinSteps : List (List Char) → List Char
  | [] => []
  | [step] => step
  | step :: more => step ++ '/' :: joinSteps more

/-- The path in its plain form; a path without steps is a dot. -/
def normal (path : List Char) : List Char :=
  let plain := rootOf path ++ joinSteps (steps path)
  if plain.isEmpty then ['.'] else plain

def below (directory name : List Char) : List Char := normal (directory ++ '/' :: name)

/-- The directories that lead to a path, the outermost first, without the path itself. -/
def ancestors (path : List Char) : List (List Char) :=
  let ss := steps path
  (List.range (ss.length - 1)).map fun i => rootOf path ++ joinSteps (ss.take (i + 1))

/-- The bytes of a text in which percent signs stand for bytes. The fuel bounds the characters. -/
def percentBytes : Nat → List Char → List Nat
  | 0, _ => []
  | _ + 1, [] => []
  | fuel + 1, c :: cs =>
    match c, cs with
    | '%', a :: b :: rest =>
      match hexValue? a, hexValue? b with
      | some high, some low => (16 * high + low) :: percentBytes fuel rest
      | _, _ => 37 :: percentBytes fuel cs
    | c, cs => Utf8.encode [c] ++ percentBytes fuel cs

def percentDecoded (cs : List Char) : List Char :=
  Utf8.decodeLenient (percentBytes (cs.length + 1) cs)

end NodeLink.Text.Path
