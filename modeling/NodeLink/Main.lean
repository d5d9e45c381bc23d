import NodeLink.CommandLine.Draws
import NodeLink.CommandLine.Run
import NodeLink.Schedule.Watch

/-!
# The program

The thin layer between a run of the command line and the system: it finds out what there is at the paths of
the arguments, lets the run say what is to be written, and writes that.
-/

namespace NodeLink.Program

open NodeLink.CommandLine

def bytesOf (b : ByteArray) : List Nat := b.toList.map (·.toNat)

def arrayOf (bytes : List Nat) : ByteArray := ⟨(bytes.map UInt8.ofNat).toArray⟩

/-- What there is at a path of the system. -/
def entryAt (path : List Char) : IO (Option Files.Entry) := do
  match ← (IO.FS.readBinFile (String.ofList path)).toBaseIO with
  | .ok bytes => return some (.file (bytesOf bytes))
  | .error (.noFileOrDirectory ..) => return none
  | .error _ => return some .directory

/-- Takes what there is at a path into a tree. -/
def look (t : Files.Tree) (path : List Char) : IO Files.Tree := do
  let place := Text.Path.steps path
  match ← entryAt path with
  | some .directory => return t.withDirectory place
  | some (.file bytes) => return t.withFile place bytes
  | none => return t

/-- The part of the system that a run with the given arguments looks at. -/
def surroundings (a : Arguments) : IO Files.Tree := do
  let outputs := match a.output with
    | .value output => Text.Path.ancestors (Text.Path.normal output) ++ [Text.Path.normal output]
    | .nothing => []
  (Text.Path.normal a.input :: outputs).foldlM look {}

partial def readAll (stream : IO.FS.Stream) (read : String) : IO String := do
  let line ← stream.getLine
  if line.isEmpty then return read else readAll stream (read ++ line)

def writeNew (before after : Files.Tree) : IO Unit := do
  for (place, bytes) in after.files do
    unless before.files.contains (place, bytes) do
      unless place.dropLast.isEmpty do
        IO.FS.createDirAll (String.ofList (Text.Path.joinSteps place.dropLast))
      IO.FS.writeBinFile (String.ofList (Text.Path.joinSteps place)) (arrayOf bytes)

def drawsOf (seed : Option (Chosen Int)) : IO (Nat → Value) := do
  let n ← match seed with
    | some (.value n) => pure n
    | _ => Int.ofNat <$> IO.rand 0 4294967295
  return fun place => .real (seededDraw n place)

/-- Looks at a file twice a second and writes the pictures of its texts to a directory. `change` counts how
often its bytes were found to differ from those before. -/
partial def watchLoop (r : Live.Worker Float Nat Pipeline.Picture) (path directory : List Char)
    (bytes : List Nat) (change : Int) (w : Watch) : IO UInt32 := do
  let (file, found, change) ← match ← entryAt path with
    | some (.file found) => do
      let change := if found == bytes then change else change + 1
      pure (some { changed := .whole change, bytes := found : FoundFile }, found, change)
    | _ => pure (none, bytes, change)
  let w := w.advance r path file Watch.interval
  for picture in w.live.state.delivered do
    let name := Text.Path.below directory (Watch.outputName picture)
    IO.FS.writeFile (String.ofList name) picture.svg
    IO.println (String.ofList name)
  if let some fault := w.ended then
    IO.eprintln fault.message
    return 1
  IO.sleep 500
  let live := { w.live with state := { w.live.state with offered := [], delivered := [], notices := [] } }
  watchLoop r path directory found change { w with live := live }

def showFault (fault : Fault) : IO UInt32 := do
  IO.eprintln (fault.label ++ ": " ++ fault.message)
  return 1

/-- Watches the input until it can no longer be read as text. -/
def watch (a : Arguments) (draw : Nat → Value) : IO UInt32 := do
  match a.directory with
  | .error fault => showFault fault
  | .ok directory =>
    let directory := Text.Path.normal directory
    IO.FS.createDirAll (String.ofList directory)
    let world : Pipeline.World := { layout := { draw } }
    let settings : Pipeline.Settings := { layout := a.layout.toJson .text, options := a.options }
    let r := Watch.worker world settings
    watchLoop r (Text.Path.normal a.input) directory [] 0 (.start (a.delay.toJson .number).delay?)

def start (arguments : List String) : IO UInt32 := do
  let texts := arguments.map String.toList
  let asked := Arguments.read texts
  let files ← match asked with
    | .ok a => surroundings a
    | .error _ => pure {}
  let fromStream := match asked with
    | .ok a => Text.Path.normal a.input == streamPath && !a.watch
    | .error _ => false
  let stdin ← if fromStream then readAll (← IO.getStdin) "" else pure ""
  let draw ← drawsOf (match asked with
    | .ok a => a.seed
    | .error _ => none)
  match run { layout := { draw }, files, stdin := stdin.toList } texts with
  | .error fault => showFault fault
  | .ok report =>
    writeNew files report.files
    IO.print report.stdout
    IO.eprint report.stderr
    match asked, report.exit with
    | .ok a, .returned 0 => if a.watch then watch a draw else return 0
    | _, .stopped status =>
      unless report.stderr.isEmpty do IO.eprintln ""
      return UInt32.ofNat status
    | _, .returned status => return UInt32.ofNat status

end NodeLink.Program

def main (arguments : List String) : IO UInt32 := NodeLink.Program.start arguments
