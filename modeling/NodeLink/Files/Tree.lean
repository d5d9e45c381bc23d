import NodeLink.Files.Fault
import NodeLink.Text.Path

/-!
# File trees

A tree of directories and files below the directory in which the program runs. A path is followed step by
step, and every step but the last must lead to a directory; two dots lead back to the directory above. The
disk on which they lie may have reasons of its own against being written.
-/

namespace NodeLink.Files

/-- A place in the tree by the names that lead to it. -/
abbrev Place := List (List Char)

structure Tree where
  directories : List Place := []
  files : List (Place × List Nat) := []

inductive Entry where
  | file (bytes : List Nat)
  | directory
  deriving DecidableEq, Repr

namespace Tree

def upStep : List Char := ['.', '.']

def entry? (t : Tree) (place : Place) : Option Entry :=
  if place.isEmpty || t.directories.contains place then some .directory
  else (t.files.find? fun file => file.1 == place).map fun file => .file file.2

/-- The place that a step leads to, whether there is something or not. -/
def placeAfter (place : Place) (step : List Char) : Except Refusal Place :=
  if step = upStep then .ok place.dropLast
  else if isTooLong step then .error .nameTooLong
  else .ok (place ++ [step])

def enter (t : Tree) (place : Place) (step : List Char) : Except Refusal Place := do
  let next ← placeAfter place step
  match t.entry? next with
  | some .directory => return next
  | some (.file _) => throw .notDirectory
  | none => throw .missing

/-- The place that a path leads to, given its steps. -/
def follow (t : Tree) (steps : List (List Char)) : Except Refusal Place :=
  match steps.getLast? with
  | none => .ok []
  | some last => do placeAfter (← steps.dropLast.foldlM t.enter []) last

/-- The place that a path leads to, unless it is too long. -/
def followPath (t : Tree) (path : List Char) : Except Refusal Place :=
  if isTooLongPath path then .error .nameTooLong else t.follow (Text.Path.steps path)

/-- What a path leads to, if anything. A path that cannot be followed for its length or that of a name is
refused; one that is broken or cannot be written in bytes leads nowhere. -/
def find? (t : Tree) (path : List Char) : Except Fault (Option Entry) :=
  if isBroken path || isUnnameable path then .ok none
  else match t.followPath path with
  | .ok place => .ok (t.entry? place)
  | .error .nameTooLong => .error ⟨.nameTooLong, path⟩
  | .error _ => .ok none

def makeOne (t : Tree) (path : List Char) : Except Refusal Tree := do
  let place ← t.followPath path
  if (t.entry? place).isSome then throw .taken
  else return { t with directories := t.directories ++ [place] }

def makeOrKeep (t : Tree) (path : List Char) : Except Fault Tree :=
  match t.makeOne path with
  | .ok t => .ok t
  | .error refusal =>
    match t.followPath path with
    | .ok place => if t.entry? place = some .directory then .ok t else .error ⟨refusal, path⟩
    | .error _ => .error ⟨refusal, path⟩

/-- Makes the directory of a path and those that lead to it. The path is given by its root and its steps,
the last one first. -/
def makeFrom (root : List Char) : List (List Char) → Tree → Except Fault Tree
  | [], t => .ok t
  | last :: before, t =>
    let path := root ++ Text.Path.joinSteps (last :: before).reverse
    match t.makeOne path with
    | .error .missing => do (← makeFrom root before t).makeOrKeep path
    | _ => t.makeOrKeep path

/-- Makes the directory of a path with all that lead to it; one that is there already stays. -/
def makeDirectory (t : Tree) (path : List Char) : Except Fault Tree :=
  makeFrom (Text.Path.rootOf path) (Text.Path.steps path).reverse t

def put (place : Place) (bytes : List Nat) : List (Place × List Nat) → List (Place × List Nat)
  | [] => [(place, bytes)]
  | file :: rest => if file.1 = place then (place, bytes) :: rest else file :: put place bytes rest

/-- The place of a file that is opened to be written. -/
def openFile (t : Tree) (path : List Char) : Except Fault Place :=
  match t.followPath path with
  | .error refusal => .error ⟨refusal, path⟩
  | .ok place => if t.entry? place = some .directory then .error ⟨.isDirectory, path⟩ else .ok place

def withBytes (t : Tree) (place : Place) (bytes : List Nat) : Tree := { t with files := put place bytes t.files }

/-- The tree with a directory at a place and with all that lead to it. -/
def withDirectory (t : Tree) (place : Place) : Tree :=
  let leading := (List.range place.length).map fun n => place.take (n + 1)
  { t with directories := t.directories ++ leading.filter fun p => !t.directories.contains p }

def withFile (t : Tree) (place : Place) (bytes : List Nat) : Tree :=
  (t.withDirectory place.dropLast).withBytes place bytes

end Tree

/-- What a disk has against being written, whatever there is on it. -/
structure Disk where
  /-- Why no directory is made at a path, or no file is opened there. -/
  bars : List Char → Option Refusal := fun _ => none
  /-- After how many bytes a file cannot be written any further, and why. -/
  breaks : Option (Nat × Refusal) := none

namespace Disk

def makeDirectory (d : Disk) (t : Tree) (path : List Char) : Except Fault Tree :=
  match d.bars path with
  | some refusal => .error ⟨refusal, path⟩
  | none => t.makeDirectory path

def openFile (d : Disk) (t : Tree) (path : List Char) : Except Fault Place :=
  match d.bars path with
  | some refusal => .error ⟨refusal, path⟩
  | none => t.openFile path

/-- Writes an open file: the tree that is left, and why not all has been written. -/
def fill (d : Disk) (t : Tree) (place : Place) (bytes : List Nat) : Tree × Option Refusal :=
  match d.breaks with
  | some (room, refusal) =>
    if room < bytes.length then (t.withBytes place (bytes.take room), some refusal)
    else (t.withBytes place bytes, none)
  | none => (t.withBytes place bytes, none)

end Disk
end NodeLink.Files
