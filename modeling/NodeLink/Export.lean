import NodeLink.Graph.Document
import NodeLink.Graph.Dot
import NodeLink.Svg.Render
import NodeLink.Text.FileName

/-!
# Export

A graph that has been laid out is written as an SVG document, as a graph document, or as DOT.
-/

namespace NodeLink

inductive Format where
  | svg
  | json
  | dot
  deriving DecidableEq, Repr

namespace Format

def all : List Format := [.svg, .json, .dot]

def name : Format → String
  | .svg => "svg"
  | .json => "json"
  | .dot => "dot"

def extension : Format → String
  | .svg => ".svg"
  | .json => ".json"
  | .dot => ".dot"

def ofName? (name : String) : Except Fault Format :=
  match all.find? fun format => format.name == name with
  | some format => .ok format
  | none => .error (.unknownFormat name)

end Format

namespace Export

/-- A graph in a format, with the notices given on the way. -/
structure Written where
  text : String
  notices : List Notice := []

def write (g : Graph) (format : Format) (o : Options) (icons : Icon.World) : Except Fault Written :=
  match format with
  | .svg => do
    let drawn := Svg.render g o icons {}
    return { text := (← drawn.result).svg, notices := drawn.notices }
  | .json => .ok { text := g.print (.ofIndent (some 2)) }
  | .dot => do return { text := ← Dot.print g [] }

def fileName (title : Json) (format : Format) : List Char :=
  Text.FileName.ofTitle title.spelled format.extension.toList

end Export
end NodeLink
