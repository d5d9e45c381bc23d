import NodeLink.Layout.Strategy
import NodeLink.Source.Document
import NodeLink.Svg.Render

/-!
# From text to picture

A diagram text is read, laid out and rendered. What has been used and noticed until a step fails counts
all the same.
-/

namespace NodeLink.Pipeline

structure Settings where
  layout : Json := .text Strategy.defaultName
  options : Options := {}

structure World where
  layout : Layout.World
  icons : Icon.World := {}

structure Picture where
  graph : Graph
  svg : String

/-- What has come of a text: a result or the fault that prevented it, and what was used and noticed. -/
structure Outcome (α : Type) where
  result : Except Fault α
  draws : Nat
  notices : List Notice := []
  requests : List String := []

def build (w : World) (settings : Settings) (draws : Nat) (text : Json) : Outcome Graph :=
  match Source.charsOf text with
  | .error fault => { result := .error fault, draws }
  | .ok cs =>
    let notices := Source.notices cs
    match Source.parse cs with
    | .error fault => { result := .error fault, draws, notices }
    | .ok g =>
      let placed := Layout.placeByName w.layout settings.layout { graph := g, draws, notices }
      { result := match placed.fault with
          | some fault => .error fault
          | none => .ok placed.state.graph
        draws := placed.state.draws
        notices := placed.state.notices }

def run (w : World) (settings : Settings) (draws : Nat) (text : Json) : Outcome Picture :=
  let built := build w settings draws text
  match built.result with
  | .error fault => { built with result := .error fault }
  | .ok g =>
    let drawn := Svg.render g settings.options w.icons {}
    { result := drawn.result.map fun r => ⟨r.graph, r.svg⟩
      draws := built.draws
      notices := built.notices ++ drawn.notices
      requests := match drawn.result with
        | .ok r => r.requests
        | .error _ => [] }

end NodeLink.Pipeline
