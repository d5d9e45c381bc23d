import NodeLink.Drawing.OfGraph
import NodeLink.Icon.Place
import NodeLink.Icon.Source
import NodeLink.Svg.Caption

/-!
# SVG documents

The document of a graph has three layers: edges, their captions, and nodes with their icons and captions.
The markup of single nodes and of the layer of edges can be replaced. Edges are written first, then nodes,
then what frames them: of several faults the first on this way counts.
-/

namespace NodeLink

def Box.viewBoxText (b : Box Value) : Except Fault (List Char) := do
  return Path.joined [' '] [← b.x.compact, ← b.y.compact, ← b.width.compact, ← b.height.compact]

namespace Svg

/-- The layer of edges: paths, and captions with their definitions. -/
structure EdgeLayer where
  paths : List Markup
  captions : List DrawnCaption

/-- Replacements for the markup of a node and for the layer of edges, which is given the drawn edges and
the scale of the drawing. -/
structure Renderers where
  node : Option (SceneNode Value → Except Fault Markup) := none
  edges : Option (List (DrawnEdge Value) → Value → Except Fault EdgeLayer) := none

def edgePath (style : Style Value) (color : Json) (outline : Outline Value) : Except Fault Markup := do
  let data ← if style.optimize then Path.shortened outline else Path.text outline
  return .empty "path".toList [.ofPlain "d" data, .ofText "fill" (← color.written?)] true

/-- The id of the path that the caption of an edge follows. -/
def captionPathId (index : Nat) : List Char := "edge-label-path-".toList ++ Text.digitsOf index

def edgeCaption? (style : Style Value) (scale : Value) (d : DrawnEdge Value) :
    Except Fault (Option DrawnCaption) := do
  match ← d.caption? style scale with
  | none => return none
  | some placed => return some (← Caption.draw placed d.edge.label d.edge.color (captionPathId d.edge.index))

/-- The path and the caption of one edge, nothing if its outline is empty. -/
def edgeParts (style : Style Value) (scale : Value) (d : DrawnEdge Value) : Except Fault EdgeLayer := do
  let outline ← d.outline style
  if outline.isEmpty then return ⟨[], []⟩
  else
    let path ← edgePath style d.edge.color outline
    return ⟨[path], (← edgeCaption? style scale d).toList⟩

/-- The layer of edges as it is drawn unless it is replaced. -/
def edgeLayer (style : Style Value) (drawn : List (DrawnEdge Value)) (scale : Value) :
    Except Fault EdgeLayer := do
  let parts ← drawn.mapM (edgeParts style scale)
  return ⟨parts.flatMap (·.paths), parts.flatMap (·.captions)⟩

def nodeIcon (loaded : Icon.Loaded) (n : SceneNode Value) : Except Fault (List Markup) := do
  if n.icon.isGiven then Icon.markup n.disc n.icon (← loaded.symbol? n.icon) else return []

def nodeCircle (n : SceneNode Value) : Except Fault Markup := do
  return .empty "circle".toList
    [.ofPlain "cx" (← n.disc.centre.x.compact), .ofPlain "cy" (← n.disc.centre.y.compact),
      .ofPlain "r" (← n.disc.radius.compact), .ofText "fill" (← n.fill.written?),
      .ofPlain "stroke" "none".toList] false

/-- The markup of a node: its circle, its icon and its caption. -/
def nodeMarkup (style : Style Value) (loaded : Icon.Loaded) (scale : Value) (n : SceneNode Value) :
    Except Fault Markup := do
  let id ← n.id.written?
  let circle ← nodeCircle n
  let icon ← nodeIcon loaded n
  let caption ← Caption.nodeMarkup style n.disc n.label scale
  return .element "g".toList [.ofPlain "class" "node".toList, .ofText "data-node-id" id]
    (circle :: icon ++ caption)

def symbolDefs (symbols : List (Json × Symbol)) : List Markup :=
  if symbols.isEmpty then []
  else [.block "defs" [] (symbols.map fun entry => .verbatim entry.2.content)]

/-- The layer of nodes as it is drawn unless single nodes are replaced. -/
def nodeLayer (style : Style Value) (loaded : Icon.Loaded) (scale : Value) (nodes : List (SceneNode Value)) :
    Except Fault (List Markup) := do
  return symbolDefs loaded.symbols ++ (← nodes.mapM (nodeMarkup style loaded scale))

def captionDefs (captions : List DrawnCaption) : List Markup :=
  let defs := captions.filterMap (·.defs)
  if defs.isEmpty then [] else [.element "defs".toList [] (Markup.onLines defs)]

/-- Whether a colour is one to be seen. -/
def isVisible (color : Json) : Bool := color.isGiven && !color.same (.text "transparent")

/-- The rectangle behind everything, if a colour is asked for. -/
def background (color : Json) (b : Box Value) : Except Fault (List Markup) := do
  if isVisible color then
    return [.empty "rect".toList ((← Icon.boxAttrs b) ++ [.ofText "fill" (← color.written?)]) true]
  else return []

def layer (name : String) (children : List Markup) : Markup :=
  .block "g" [.ofPlain "class" name.toList] children

/-- The document of a drawing, given its box, its layer of edges and its nodes. -/
def document (style : Style Value) (b : Box Value) (edges : EdgeLayer) (nodes : List Markup) :
    Except Fault Markup := do
  let width ← (style.width.getD b.width).compact
  let height ← (style.height.getD b.height).compact
  let viewBox ← b.viewBoxText
  let behind ← background style.background b
  return .block "svg"
    [.ofPlain "width" width, .ofPlain "height" height, .ofPlain "viewBox" viewBox,
      .ofPlain "xmlns" "http://www.w3.org/2000/svg".toList,
      .ofPlain "xmlns:xlink" "http://www.w3.org/1999/xlink".toList,
      .ofPlain "style" "font-family:Arial, sans-serif;".toList]
    (behind ++
      [layer "edges" edges.paths,
        layer "labels" (captionDefs edges.captions ++ edges.captions.map (·.text)),
        layer "nodes" nodes])

/-- What is known of a drawing once its edges are written: its scale, its box, and the layer of edges. -/
structure Framed where
  scale : Value
  box : Box Value
  edges : EdgeLayer

/-- Writes the edges and finds the box around everything. -/
def frame (style : Style Value) (renderers : Renderers) (s : Scene Value)
    (clipped : List (ClippedEdge Value)) : Except Fault Framed := do
  let drawn ← Scene.drawn clipped
  let extent ← s.extent drawn
  let base ← extent.box style.padding
  let scale ← Caption.viewportScale base.width base.height style.referenceSize
  let edges ← (renderers.edges.getD (edgeLayer style)) drawn scale
  let extent ← (edges.captions.map (·.around)).foldlM Extent.addDisc extent
  return ⟨scale, ← extent.box style.padding, edges⟩

/-- A rendered document, the graph with its edges fanned out, and the web addresses asked. -/
structure Rendering where
  svg : String
  graph : Graph
  requests : List String

/-- Loads the icons of a scene if they are to be part of the document. -/
def loadIcons (style : Style Value) (world : Icon.World) (s : Scene Value) : Except Fault Icon.Loaded :=
  if style.embedIcons then Icon.loadAll world (s.nodes.map (·.icon)) else .ok {}

/-- The nodes of a scene, and what was loaded for them. -/
def writeNodes (style : Style Value) (world : Icon.World) (renderers : Renderers) (s : Scene Value)
    (scale : Value) : Except Fault (List Markup × Icon.Loaded) :=
  match renderers.node with
  | some replace => do return (← s.nodes.mapM replace, {})
  | none => do
    let loaded ← loadIcons style world s
    return (← nodeLayer style loaded scale s.nodes, loaded)

/-- Renders a scene whose edges are clipped, for a graph whose edges are fanned out. The notices are about
icons. -/
def renderScene (g : Graph) (style : Style Value) (world : Icon.World) (renderers : Renderers)
    (s : Scene Value) (clipped : List (ClippedEdge Value)) : Except Fault (Rendering × List Notice) := do
  let framed ← frame style renderers s clipped
  let (nodes, loaded) ← writeNodes style world renderers s framed.scale
  let markup ← document style framed.box framed.edges nodes
  return (⟨String.ofList markup.write, g, loaded.requests⟩, loaded.notices)

/-- What comes of rendering: a document or the fault that prevented it, the notices given up to it, and the
graph as it is left. Its edges stay fanned out where no document comes of it. -/
structure Outcome where
  result : Except Fault Rendering
  notices : List Notice
  graph : Graph

def render (g : Graph) (o : Options) (world : Icon.World) (renderers : Renderers) : Outcome :=
  match g.fanOutEdges with
  | .error fault => ⟨.error fault, [], g⟩
  | .ok g =>
    let style := o.style
    let scene := g.scene style
    let clipped := scene.clipped style
    let notices := Scene.overlapNotices clipped
    match renderScene g style world renderers scene clipped with
    | .ok (drawn, more) => ⟨.ok drawn, notices ++ more, g⟩
    | .error fault => ⟨.error fault, notices, g⟩

end Svg
end NodeLink
