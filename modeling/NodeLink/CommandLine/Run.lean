import NodeLink.CommandLine.Arguments
import NodeLink.Files.Tree
import NodeLink.Pipeline

/-!
# Runs of the command line

One run reads a diagram text from a file or from the input stream, lays it out and writes it to a directory,
under a name that goes by its title. Whatever is wrong with files is said on the error stream. Then nothing
has been written, unless the disk gave way while the file was written.
-/

namespace NodeLink.CommandLine

/-- What a run finds: the arguments apart, all that it depends on. -/
structure World where
  layout : Layout.World
  icons : Icon.World := {}
  files : Files.Tree := {}
  disk : Files.Disk := {}
  stdin : List Char := []
  /-- What is wrong with the bytes of the input stream, if they are no text. -/
  streamFault : Option Text.Utf8.DecodeFault := none

/-- How a run ends: with a status of its own, or at once as the arguments are read. -/
inductive Exit where
  | returned (status : Nat)
  | stopped (status : Nat)
  deriving DecidableEq, Repr

/-- What a run leaves behind. Every generator of random numbers it makes has a seed or none. -/
structure Report where
  exit : Exit
  stdout : String := ""
  stderr : String := ""
  files : Files.Tree
  seeds : List (Option (Chosen Int)) := []
  notices : List Notice := []

namespace Report

/-- A run that fails with a line on the error stream. -/
def failed (files : Files.Tree) (seeds : List (Option (Chosen Int))) (line : String) : Report :=
  { exit := .returned 1, stderr := line ++ "\n", files, seeds }

end Report

def programName : String := "graphdiagram"

/-- The path that stands for the input stream. -/
def streamPath : List Char := ['-']

def checkInput (files : Files.Tree) (path : List Char) : Except Fault (Option String) := do
  if path = streamPath then return none
  else match ← (files.find? path).mapError Fault.file with
    | none => return some ("Error: File not found: " ++ String.ofList path)
    | some .directory => return some ("Error: Not a file: " ++ String.ofList path)
    | some (.file _) => return none

def readInput (w : World) (files : Files.Tree) (path : List Char) : Except Fault (List Char) := do
  if path = streamPath then
    match w.streamFault with
    | some fault => throw (.encoding fault)
    | none => return w.stdin
  else match ← (files.find? path).mapError Fault.file with
    | some (.file bytes) => (Text.unifyLineEnds <$> Text.Utf8.decode bytes).mapError Fault.encoding
    | some .directory => throw (.file ⟨.isDirectory, path⟩)
    | none => throw (.file ⟨.missing, path⟩)

/-- What a run says about the file it has written. -/
def doneLine (verbose : Bool) (g : Graph) (path : List Char) : String :=
  let place := String.ofList path
  if verbose then
    "Exported '" ++ Fault.textOf g.title ++ "' (" ++ toString g.nodes.length ++ " nodes, " ++
      toString g.edges.length ++ " edges) -> " ++ place ++ "\n"
  else place ++ "\n"

/-- What a run is to write: the graph as it has been laid out, its text in the format asked for, and the path of
the file. -/
structure Output where
  graph : Graph
  path : List Char
  text : List Char
  notices : List Notice

/-- The text of a graph that has been laid out, and where it belongs. -/
def compose (w : World) (a : Arguments) (graph : Graph) (notices : List Notice) : Except Fault Output := do
  let format ← a.format.get (.unknownFormat (Fault.textOf (.list [])))
  let written ← Export.write graph format a.options w.icons
  let path := Text.Path.below (Text.Path.normal (← a.directory)) (Export.fileName graph.title format)
  return { graph, path, text := written.text.toList, notices := notices ++ written.notices }

/-- What comes of a diagram text. -/
def output (w : World) (a : Arguments) (text : List Char) : Except Fault Output := do
  let built := Pipeline.build { layout := w.layout } { layout := a.layout.toJson .text } 0
    (.text (String.ofList text))
  compose w a (← built.result) built.notices

/-- Writes the file. -/
def deliver (w : World) (a : Arguments) (files : Files.Tree) (out : Output) : Except Fault Report :=
  let seeds := [a.seed]
  let failed (files : Files.Tree) (reason : String) : Report :=
    let line := "Error exporting '" ++ Fault.textOf out.graph.title ++ "': " ++ reason
    { Report.failed files seeds line with notices := out.notices }
  match w.disk.openFile files out.path with
  | .error fault => .ok (failed files fault.message)
  | .ok place =>
    if out.text.any Text.carriesHalf then .error .unencodable
    else match w.disk.fill files place (Text.Utf8.encode out.text) with
      | (files, some refusal) => .ok (failed files refusal.message)
      | (files, none) =>
        .ok { exit := .returned 0, stdout := doneLine a.verbose out.graph out.path, files, seeds
              notices := out.notices }

/-- The directory to write to, if it can be asked for. -/
def usableDirectory (a : Arguments) : Except Fault (List Char) := do
  let directory ← a.directory
  if Files.isUnnameable directory then throw .unencodable
  if Files.isBroken directory then throw .brokenPath
  return directory

/-- The run that the arguments ask for. A watch is only begun. -/
def runWith (w : World) (a : Arguments) : Except Fault Report := do
  let input := Text.Path.normal a.input
  if let some line := ← checkInput w.files input then return .failed w.files [] line
  let seeds := (a.seed.map some).toList
  let directory ← usableDirectory a
  match w.disk.makeDirectory w.files (Text.Path.normal directory) with
  | .error fault => return .failed w.files seeds ("Error creating output directory: " ++ fault.message)
  | .ok files =>
    if a.watch then
      if input = streamPath then return .failed files seeds "Error: --watch needs a file, not stdin"
      else return { exit := .returned 0, files, seeds }
    else match readInput w files input with
      | .error fault =>
        return .failed files seeds ("Error reading " ++ String.ofList input ++ ": " ++ fault.message)
      | .ok text => deliver w a files (← output w a text)

def run (w : World) (arguments : List (List Char)) : Except Fault Report :=
  match Arguments.read arguments with
  | .ok a => runWith w a
  | .error .help => .ok { exit := .stopped 0, files := w.files }
  | .error (.misuse m) =>
    .ok { exit := .stopped 2, stderr := programName ++ ": error: " ++ m.message, files := w.files }

end NodeLink.CommandLine
