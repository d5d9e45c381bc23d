import NodeLink.Schedule.Live
import NodeLink.Files.Fault
import NodeLink.Text.FileName
import NodeLink.Text.Path

/-!
# Watching a file

A file is looked at again and again, and whenever it has changed, it is read and its text is taken note of by
a live diagram, whose pictures are to be written to a directory. A file that is not there is noticed; one
that has gone by the time it is read, or whose bytes are no text, ends the watch.
-/

namespace NodeLink

/-- A file as it is found: when it was changed, and its bytes. -/
structure FoundFile where
  changed : Json
  bytes : List Nat

/-- What a look finds: when the file was changed, if it is there, and the bytes that it has as it is read after
that, if it is still there. -/
structure Sight where
  changed : Option Json
  bytes : Option (List Nat)

namespace Sight

/-- A file that stays as it is while it is looked at. -/
def ofFile (file : Option FoundFile) : Sight := ⟨file.map (·.changed), file.map (·.bytes)⟩

/-- The text of the file of the given path. -/
def text (path : List Char) (sight : Sight) : Except Fault Json :=
  match sight.bytes with
  | none => .error (.file ⟨.missing, path⟩)
  | some bytes => do
    let cs ← (Text.Utf8.decode bytes).mapError Fault.encoding
    return .text (String.ofList (Text.unifyLineEnds cs))

end Sight

/-- A watch over a file, whose texts a live diagram takes note of. -/
structure FileWatch (τ σ ρ : Type) where
  live : Live.Diagram τ σ ρ
  /-- When the file had been changed as it was looked at last. -/
  seen : Json := .null
  ended : Option Fault := none

namespace FileWatch

variable {τ σ ρ : Type} [Clock τ]

/-- A watch whose first look is to be taken at once. -/
def start (delay : Except Fault τ) (world : σ) : FileWatch τ σ ρ :=
  { live := { Live.Diagram.start delay world with ready := [.visit] } }

/-- Takes a look at the file of the given path. -/
def look (path : List Char) (sight : Sight) (w : FileWatch τ σ ρ) : FileWatch τ σ ρ :=
  match sight.changed with
  | none =>
    let notice := Notice.unreadable (String.ofList path) (Files.Fault.mk .missing path).message
    { w with live := { w.live with state := w.live.state.noting [notice] } }
  | some changed =>
    if changed.equal w.seen then w
    else
      let w := { w with seen := changed }
      match sight.text path >>= w.live.notify with
      | .ok live => { w with live }
      | .error fault => { w with ended := some fault }

/-- Takes the look that is due, and sets a timer for the next one unless the watch has ended. -/
def visit (interval : τ) (path : List Char) (sight : Sight) (w : FileWatch τ σ ρ) : FileWatch τ σ ρ :=
  let w := { w with live := { w.live with ready := w.live.ready.drop 1 } }
  let w := w.look path sight
  if w.ended.isSome then w
  else { w with live := { w.live with timeline := w.live.timeline.set interval .visit } }

/-- Lets time pass until the sleeper's timer has rung, with one look for each sight at most: the watch, and the
sights that are left. -/
def pass (r : Live.Worker τ σ ρ) (interval : τ) (path : List Char) (sleeper : Option Nat) :
    List Sight → FileWatch τ σ ρ → FileWatch τ σ ρ × List Sight
  | [], w => (w, [])
  | sight :: sights, w =>
    let w := { w with live := w.live.pass (Live.routine r) sleeper }
    if w.live.isVisited then pass r interval path sleeper sights (w.visit interval path sight)
    else (w, sight :: sights)

/-- Lets a stretch of time pass. -/
def advance (r : Live.Worker τ σ ρ) (interval : τ) (path : List Char) (stretch : τ) (sights : List Sight)
    (w : FileWatch τ σ ρ) : FileWatch τ σ ρ × List Sight :=
  let (live, sleeper) := w.live.sleep stretch
  pass r interval path sleeper sights { w with live }

end FileWatch

/-- A watch in seconds that has pictures made. -/
abbrev Watch := FileWatch Float Nat Pipeline.Picture

namespace Watch

/-- The seconds between two looks. -/
def interval : Float := 0.5

def outputName (picture : Pipeline.Picture) : List Char :=
  Text.FileName.ofTitle picture.graph.title.spelled ".svg".toList

def worker (w : Pipeline.World) (settings : Pipeline.Settings) :
    Live.Worker Float Nat Pipeline.Picture where
  compute := Live.computePicture w settings
  handOver _ := .ok ()
  delivering := none

def start (delay : Except Fault Float) : Watch := FileWatch.start delay 0

/-- How many looks there may be in a stretch of time: the one at its beginning, one for each interval, and
one more. -/
def lookCount (stretch : Float) : Nat := (stretch / interval).toUInt64.toNat + 3

/-- Lets a stretch of time pass in which the file stays as it is. -/
def advance (r : Live.Worker Float Nat Pipeline.Picture) (path : List Char) (file : Option FoundFile)
    (stretch : Float) (w : Watch) : Watch :=
  (FileWatch.advance r interval path stretch (List.replicate (lookCount stretch) (.ofFile file)) w).1

end Watch
end NodeLink
