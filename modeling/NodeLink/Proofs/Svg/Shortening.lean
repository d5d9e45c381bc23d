import NodeLink.Proofs.Geometry.OutlineTexts
import NodeLink.Svg.Render

/-!
# Shorter path data in documents

Whether path data is made shorter is one of the options. It is asked for where the path of an edge is written and
nowhere else, and to make the data of an edge shorter never fails. So two renderings that differ in this option
alone end alike, and their documents differ in nothing but the data of the paths of edges.
-/

namespace NodeLink

variable {o o' : Options}

/-- Only the option of the given name may tell the two apart. -/
def Options.SameBut (name : String) (o o' : Options) : Prop := ∀ other, other ≠ name → o'.get other = o.get other

/-- The style whose path data is made shorter, or is not. -/
def Style.optimizing {α : Type} (style : Style α) (optimize : Bool) : Style α := { style with optimize }

theorem Json.field?_setField {name other : String} (h : other ≠ name) (value : Json) (fields : List (String × Json)) :
    Json.field? other (Json.setField name value fields) = Json.field? other fields := by
  induction fields with
  | nil => simp [Json.setField, Json.field?, h.symm]
  | cons field fields ih =>
    obtain ⟨key, old⟩ := field
    rw [Json.setField]
    split
    · rename_i hkey
      rw [Json.field?, Json.field?, if_neg (hkey ▸ h.symm), if_neg (hkey ▸ h.symm)]
    · rw [Json.field?, Json.field?, ih]

theorem Options.sameBut_setField (o : Options) (name : String) (value : Json) :
    Options.SameBut name ⟨Json.setField name value o.fields⟩ o := by
  intro other hother
  rw [Options.get, Options.get, Json.field?_setField hother]

theorem Options.style_of_sameBut (h : o.SameBut "optimize" o') :
    o'.style = o.style.optimizing (o'.isSet "optimize") := by
  have hget (name : String) (hname : name ≠ "optimize") : o'.get name = o.get name := h name hname
  have hsize (name : String) (hname : name ≠ "optimize") : o'.sizeOf? name = o.sizeOf? name := by
    rw [sizeOf?, sizeOf?, isSet, isSet, valueOf, valueOf, hget name hname]
  simp [style, Style.optimizing, valueOf, isSet, hget, hsize]

namespace Graph

theorem sceneEdgesFrom_optimizing (g : Graph) (style : Style Value) (optimize : Bool) (i : Nat) (edges : List Edge) :
    sceneEdgesFrom g (style.optimizing optimize) i edges = sceneEdgesFrom g style i edges := by
  induction edges generalizing i with
  | nil => rfl
  | cons e rest ih =>
    have hedge : g.sceneEdge? (style.optimizing optimize) i e = g.sceneEdge? style i e := rfl
    rw [sceneEdgesFrom, sceneEdgesFrom, ih, hedge]

theorem scene_optimizing (g : Graph) (style : Style Value) (optimize : Bool) :
    g.scene (style.optimizing optimize) = g.scene style :=
  congrArg (Scene.mk _) (sceneEdgesFrom_optimizing g style optimize 0 g.edges)

end Graph

theorem Scene.clipped_optimizing (s : Scene Value) (style : Style Value) (optimize : Bool) :
    s.clipped (style.optimizing optimize) = s.clipped style := rfl

namespace Svg

open Markup

/-- The path of an edge: its data as it is and made shorter, and its colour. -/
structure PathRow where
  data : List Char
  short : List Char
  fill : List Char

namespace PathRow

def markup (data fill : List Char) : Markup :=
  .empty "path".toList [.ofPlain "d" data, .ofText "fill" fill] true

def long (r : PathRow) : Markup := markup r.data r.fill

def shortened (r : PathRow) : Markup := markup r.short r.fill

end PathRow

/-- The markups are the long and the short form of the same paths. -/
def SamePaths (long short : List Markup) : Prop :=
  ∃ rows : List PathRow, long = rows.map PathRow.long ∧ short = rows.map PathRow.shortened ∧
    ∀ r ∈ rows, Path.optimize r.data = .ok r.short

/-- Two documents that are the same but for their layers of edges, where the data of the paths is made shorter in
the second. -/
def SameButPathData (long short : String) : Prop :=
  ∃ front back paths paths', SamePaths paths paths' ∧
    long = String.ofList (front ++ (layer "edges" paths).write ++ back) ∧
    short = String.ofList (front ++ (layer "edges" paths').write ++ back)

variable {style : Style Value}

/-! ## The layer of edges -/

theorem SamePaths.nil : SamePaths [] [] := ⟨[], rfl, rfl, nofun⟩

theorem SamePaths.append {long short long' short' : List Markup} (h : SamePaths long short)
    (h' : SamePaths long' short') : SamePaths (long ++ long') (short ++ short') := by
  obtain ⟨rows, rfl, rfl, hrows⟩ := h
  obtain ⟨rows', rfl, rfl, hrows'⟩ := h'
  exact ⟨rows ++ rows', (List.map_append ..).symm, (List.map_append ..).symm, List.forall_mem_append.mpr ⟨hrows, hrows'⟩⟩

theorem edgePath_alike (style : Style Value) (color : Json) (outline : Outline Value) :
    Alike (fun m m' => SamePaths [m] [m']) (edgePath (style.optimizing false) color outline)
      (edgePath (style.optimizing true) color outline) := by
  have hdata : Alike (fun data short => Path.optimize data = .ok short) (Path.text outline) (Path.shortened outline) := by
    cases htext : Path.text outline with
    | error fault =>
      rw [Path.shortened, htext]
      exact .failed fault
    | ok data =>
      obtain ⟨short, hshort, -⟩ := Path.optimize_succeeds (Path.readable_text htext)
      rw [Path.shortened, htext]
      change Alike _ (.ok data) (Path.optimize data)
      rw [hshort]
      exact .done hshort
  refine hdata.bind fun data short hshort => Alike.bind_same color.written? fun fill => .done ?_
  exact ⟨[⟨data, short, fill⟩], rfl, rfl, by simpa using hshort⟩

/-- The two layers have the same captions, and the same paths. -/
def SameLayers (long short : EdgeLayer) : Prop := SamePaths long.paths short.paths ∧ short.captions = long.captions

theorem edgeParts_alike (style : Style Value) (scale : Value) (d : DrawnEdge Value) :
    Alike SameLayers (edgeParts (style.optimizing false) scale d) (edgeParts (style.optimizing true) scale d) := by
  refine Alike.bind_same (d.outline style) fun outline => ?_
  cases hempty : outline.isEmpty with
  | true => exact .done ⟨.nil, rfl⟩
  | false =>
    refine (edgePath_alike style d.edge.color outline).bind fun m m' hm => ?_
    exact Alike.bind_same (edgeCaption? style scale d) fun caption => .done ⟨hm, rfl⟩

theorem edgeLayer_alike (style : Style Value) (drawn : List (DrawnEdge Value)) (scale : Value) :
    Alike SameLayers (edgeLayer (style.optimizing false) drawn scale) (edgeLayer (style.optimizing true) drawn scale) := by
  have hparts : Alike (List.Forall₂ SameLayers) (drawn.mapM (edgeParts (style.optimizing false) scale))
      (drawn.mapM (edgeParts (style.optimizing true) scale)) :=
    Alike.mapM fun d _ => edgeParts_alike style scale d
  refine hparts.bind fun parts parts' h => .done ?_
  induction h with
  | nil => exact ⟨.nil, rfl⟩
  | cons hpart _ ih =>
    obtain ⟨hpaths, hcaptions⟩ := hpart
    exact ⟨hpaths.append ih.1, congrArg₂ (· ++ ·) hcaptions ih.2⟩

/-! ## The document -/

theorem writeAll_append (ms ms' : List Markup) : writeAll (ms ++ ms') = writeAll ms ++ writeAll ms' := by
  induction ms with
  | nil => rfl
  | cons m ms ih => rw [List.cons_append, writeAll, writeAll, ih, List.append_assoc]

/-- A piece on a line of its own is written as it is, whatever stands around it. -/
theorem block_around (name : String) (attrs : List Attr) (before after : List Markup) :
    ∃ front back, ∀ m, (block name attrs (before ++ m :: after)).write = front ++ m.write ++ back := by
  refine ⟨'<' :: name.toList ++ attrs.flatMap Attr.write ++ '>' ::
      writeAll (before.flatMap (fun m => [newline, m]) ++ [newline]),
    writeAll (after.flatMap (fun m => [newline, m]) ++ [newline]) ++ '<' :: '/' :: name.toList ++ ['>'], fun m => ?_⟩
  have hlines : (before ++ m :: after).flatMap (fun m => [newline, m]) ++ [newline] =
      (before.flatMap (fun m => [newline, m]) ++ [newline]) ++
        m :: (after.flatMap (fun m => [newline, m]) ++ [newline]) := by
    simp
  rw [block, write, hlines, writeAll_append, writeAll]
  simp only [List.append_assoc, List.cons_append]

theorem document_alike {b : Box Value} {edges edges' : EdgeLayer} {nodes : List Markup} (h : SameLayers edges edges') :
    Alike (fun m m' => SameButPathData (String.ofList m.write) (String.ofList m'.write))
      (document (style.optimizing false) b edges nodes) (document (style.optimizing true) b edges' nodes) := by
  obtain ⟨hpaths, hcaptions⟩ := h
  refine Alike.bind_same (style.width.getD b.width).compact fun width => ?_
  refine Alike.bind_same (style.height.getD b.height).compact fun height => ?_
  refine Alike.bind_same b.viewBoxText fun viewBox => ?_
  refine Alike.bind_same (background style.background b) fun behind => .done ?_
  obtain ⟨front, back, hwrite⟩ := block_around "svg"
    [.ofPlain "width" width, .ofPlain "height" height, .ofPlain "viewBox" viewBox,
      .ofPlain "xmlns" "http://www.w3.org/2000/svg".toList,
      .ofPlain "xmlns:xlink" "http://www.w3.org/1999/xlink".toList,
      .ofPlain "style" "font-family:Arial, sans-serif;".toList] behind
    [layer "labels" (captionDefs edges.captions ++ edges.captions.map (·.text)), layer "nodes" nodes]
  refine ⟨front, back, edges.paths, edges'.paths, hpaths, ?_, ?_⟩
  · rw [hwrite]
  · rw [hcaptions, hwrite]

/-- What frames two drawings is the same, and their layers of edges are. -/
def SameFrames (long short : Framed) : Prop :=
  short.scale = long.scale ∧ short.box = long.box ∧ SameLayers long.edges short.edges

theorem frame_alike {renderers : Renderers} (hedges : renderers.edges = none) (s : Scene Value)
    (clipped : List (ClippedEdge Value)) :
    Alike SameFrames (frame (style.optimizing false) renderers s clipped)
      (frame (style.optimizing true) renderers s clipped) := by
  refine Alike.bind_same (Scene.drawn clipped) fun drawn => ?_
  refine Alike.bind_same (s.extent drawn) fun extent => ?_
  refine Alike.bind_same (extent.box style.padding) fun base => ?_
  refine Alike.bind_same (Caption.viewportScale base.width base.height style.referenceSize) fun scale => ?_
  rw [hedges]
  refine (edgeLayer_alike style drawn scale).bind fun edges edges' hsame => ?_
  rw [hsame.2]
  refine Alike.bind_same _ fun extent => ?_
  exact Alike.bind_same (extent.box style.padding) fun box => .done ⟨rfl, rfl, hsame⟩

/-- The two drawings are of the same graph, ask for the same, and their documents differ only in path data. -/
def SameDrawings (long short : Rendering) : Prop :=
  short.graph = long.graph ∧ short.requests = long.requests ∧ SameButPathData long.svg short.svg

theorem renderScene_alike (style : Style Value) {renderers : Renderers} (hedges : renderers.edges = none) (g : Graph)
    (world : Icon.World) (s : Scene Value) (clipped : List (ClippedEdge Value)) :
    Alike (fun drawing drawing' => SameDrawings drawing.1 drawing'.1 ∧ drawing'.2 = drawing.2)
      (renderScene g (style.optimizing false) world renderers s clipped)
      (renderScene g (style.optimizing true) world renderers s clipped) := by
  refine (frame_alike hedges s clipped).bind fun framed framed' hframed => ?_
  obtain ⟨hscale, hbox, hlayers⟩ := hframed
  have hnodes : writeNodes (style.optimizing true) world renderers s framed'.scale =
      writeNodes (style.optimizing false) world renderers s framed.scale := by
    rw [hscale]
    rfl
  rw [hnodes, hbox]
  refine Alike.bind_same _ fun written => ?_
  exact (document_alike hlayers).bind fun m m' hm => .done ⟨⟨rfl, rfl, hm⟩, rfl⟩

/-- The two renderings end alike and leave the same graph, and documents that come of them differ only in path
data. -/
structure SameButData (long short : Outcome) : Prop where
  notices : short.notices = long.notices
  graph : short.graph = long.graph
  result : Alike SameDrawings long.result short.result

theorem render_alike {renderers : Renderers} (hedges : renderers.edges = none) (h : o.SameBut "optimize" o')
    (hlong : o.isSet "optimize" = false) (hshort : o'.isSet "optimize" = true) (g : Graph) (world : Icon.World) :
    SameButData (render g o world renderers) (render g o' world renderers) := by
  have hstyle : o.style = o.style.optimizing false := hlong ▸ Options.style_of_sameBut fun _ _ => rfl
  have hstyle' : o'.style = o.style.optimizing true := hshort ▸ Options.style_of_sameBut h
  unfold render
  rw [hstyle']
  generalize o.style = style at hstyle
  cases g.fanOutEdges with
  | error fault => exact ⟨rfl, rfl, .failed fault⟩
  | ok d =>
    have hscene := renderScene_alike style hedges d world (d.scene style) ((d.scene style).clipped style)
    rw [← hstyle] at hscene
    dsimp only
    rw [Graph.scene_optimizing, Scene.clipped_optimizing]
    generalize renderScene d style world renderers _ _ = long at hscene ⊢
    generalize renderScene d (style.optimizing true) world renderers _ _ = short at hscene ⊢
    cases hscene with
    | failed fault => exact ⟨rfl, rfl, .failed fault⟩
    | done hsame =>
      obtain ⟨hdrawn, hnotices⟩ := hsame
      exact ⟨congrArg (Scene.overlapNotices _ ++ ·) hnotices, rfl, .done hdrawn⟩

/-- A replaced layer of edges is not asked whether it is made shorter. -/
theorem render_replaced {renderers : Renderers} (hedges : renderers.edges ≠ none) (h : o.SameBut "optimize" o')
    (g : Graph) (world : Icon.World) : render g o' world renderers = render g o world renderers := by
  obtain ⟨node, edges⟩ := renderers
  obtain ⟨replace, rfl⟩ := Option.ne_none_iff_exists'.mp hedges
  unfold render
  rw [Options.style_of_sameBut h]
  cases g.fanOutEdges with
  | error fault => rfl
  | ok d =>
    dsimp only
    rw [Graph.scene_optimizing, Scene.clipped_optimizing]
    rfl

/-- To make path data shorter keeps the outline. With exact coordinates, the shorter data leads through the same
commands, with every point at its nearest tenth, and so off by no more than half of one however long the path is;
all outlines whose coordinates are numbers are written as such path data. In documents nothing but the data of the
paths of edges is made shorter. -/
theorem shorter_data_keeps_outlines :
    (∀ text commands, PathData.IsAbsolute text commands →
      ∃ short, Path.optimizeIn ℚ text = .ok short ∧
        PathData.follow? short = some (commands.map (·.map Path.nearestTenth))) ∧
    (∀ p : Point ℚ, PathData.IsTenth (Path.nearestTenth p) ∧
      |(Path.nearestTenth p).x - p.x| ≤ 1 / 20 ∧ |(Path.nearestTenth p).y - p.y| ≤ 1 / 20) ∧
    (∀ outline : Outline Value, outline.Built → outline ≠ [] → outline.isNumber = true →
      ∃ text commands, Path.text outline = .ok text ∧ PathData.IsAbsolute text commands ∧
        commands.map (·.letter) = outline.letters) ∧
    ∀ (g : Graph) (o o' : Options) (world : Icon.World) (renderers : Renderers), o.SameBut "optimize" o' →
      o.isSet "optimize" = false → o'.isSet "optimize" = true →
      (renderers.edges = none → SameButData (render g o world renderers) (render g o' world renderers)) ∧
      (renderers.edges ≠ none → render g o' world renderers = render g o world renderers) := by
  refine ⟨fun text commands h => PathData.optimizeIn_of_absolute h, fun p => ?_, fun outline hbuilt hne hnumber => ?_,
    fun g o o' world renderers h hlong hshort => ?_⟩
  · exact ⟨PathData.isTenth_nearestTenth p, ExactTenths.abs_nearestTenth_sub p.x, ExactTenths.abs_nearestTenth_sub p.y⟩
  · exact PathData.isAbsolute_text hbuilt.looped hne hnumber
  · exact ⟨fun hedges => render_alike hedges h hlong hshort g world, fun hedges => render_replaced hedges h g world⟩

/-- Two loops, with points between tenths, and spaces and commas of all kinds. -/
def twoLoops : List Char := "M0.04 -.06 L10.05,3 Q 1 2 3.33 4C1 2\n3 4 , +5 6.66Z M7 8.15 L9 9 Z".toList

def twoLoopCommands : List (PathCommand ℚ) :=
  [.move ⟨1 / 25, -3 / 50⟩, .line ⟨201 / 20, 3⟩, .quadratic ⟨1, 2⟩ ⟨333 / 100, 4⟩,
    .cubic ⟨1, 2⟩ ⟨3, 4⟩ ⟨5, 333 / 50⟩, .close, .move ⟨7, 163 / 20⟩, .line ⟨9, 9⟩, .close]

/-- Two nodes with an arrow between them. -/
def arrowGraph : Graph where
  slots := [
    ⟨.text "A", { Node.ofId (.text "A") with x := .whole 0, y := .whole 0 }⟩,
    ⟨.text "B", { Node.ofId (.text "B") with x := .whole 100, y := .whole 30 }⟩]
  edges := [{ id := .text "e", source := .text "A", target := .text "B" }]

/-- The usual options, but for paths that are not made shorter. -/
def longPaths : Options := ⟨Json.setField "optimize" (.bool false) Options.defaults⟩

theorem two_loops_and_an_arrow_keep_their_outlines :
    PathData.IsAbsolute twoLoops twoLoopCommands ∧
    (∃ short, Path.optimizeIn ℚ twoLoops = .ok short ∧
      PathData.follow? short = some (twoLoopCommands.map (·.map Path.nearestTenth))) ∧
    (∃ outline : Outline Value, outline.Built ∧ outline ≠ [] ∧ outline.isNumber = true ∧
      ∃ text commands, Path.text outline = .ok text ∧ PathData.IsAbsolute text commands) ∧
    ∃ long short, (render arrowGraph longPaths {} {}).result = .ok long ∧
      (render arrowGraph {} {} {}).result = .ok short ∧ SameDrawings long short := by
  obtain ⟨hexact, -, houtline, hrender⟩ := shorter_data_keeps_outlines
  have hloops : PathData.IsAbsolute twoLoops twoLoopCommands := by
    have hfollow : (PathData.follow? twoLoops).any (fun commands => decide (commands = twoLoopCommands)) = true := by
      decide +kernel
    have hcapital : twoLoops.all (fun c => PathData.capital c == c) = true := by decide +kernel
    obtain ⟨commands, hcommands, hsame⟩ := (Option.any_eq_true _ _).mp hfollow
    exact ⟨by simpa using hcapital, hcommands.trans (congrArg some (of_decide_eq_true hsame)), by decide +kernel⟩
  have harrow : ((Outline.arrow (.mk (.real 0.0) (.real 0.0)) (.mk (.real 3.5) (.real 0.0)) (.real 1.0) false
      true : Except Fault (Outline Value)).toOption.any fun o => !o.isEmpty && o.isNumber) = true := by
    decide +kernel
  obtain ⟨outline, hmade, hchecked⟩ := Succeeds.of_any harrow
  rw [Bool.and_eq_true] at hchecked
  have hne : outline ≠ [] := by simpa using hchecked.1
  obtain ⟨text, commands, htext, habsolute, -⟩ := houtline outline (.arrow hmade) hne hchecked.2
  have hany : (render arrowGraph longPaths {} {}).result.toOption.any (fun _ => true) = true := by decide +kernel
  obtain ⟨long, hlong, -⟩ := Succeeds.of_any hany
  obtain ⟨hresult, -⟩ := hrender arrowGraph longPaths {} {} {}
    (Options.sameBut_setField {} "optimize" (.bool false)) rfl rfl
  obtain ⟨short, hshort, hsame⟩ := (hresult rfl).result.of_ok hlong
  exact ⟨hloops, hexact twoLoops twoLoopCommands hloops, ⟨outline, .arrow hmade, hne, hchecked.2, text, commands, htext,
    habsolute⟩, long, short, hlong, hshort, hsame⟩

end Svg
end NodeLink
