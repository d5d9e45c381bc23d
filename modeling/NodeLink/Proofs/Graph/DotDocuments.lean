import NodeLink.Proofs.Graph.DotStatements

/-!
# The DOT text of a graph read back

What DOT tells of the graph of a diagram text: one statement for each node and one for each edge, in order. Their
names are those of the graph as long as these are literal; a name in angle brackets is not.
-/

namespace NodeLink

open Dot

variable {text : List Char} {g : Graph} {directed : Bool}

/-- No text of a graph runs on behind its quotes or its brackets. -/
structure Graph.Whole (g : Graph) : Prop where
  title : Dot.Whole g.title.spelled
  ids : ∀ n ∈ g.nodes, Dot.Whole n.id.spelled
  colors : ∀ n ∈ g.nodes, Dot.Whole n.color.spelled
  captions : ∀ e ∈ g.edges, Dot.Whole e.label.spelled

namespace Dot

theorem mapM_tells {α : Type} (directed : Bool) (names : α → List Name) {f : α → Except Fault (List Char)} {as : List α}
    {lines : List (List Char)} (h : as.mapM f = .ok lines)
    (ht : ∀ a ∈ as, ∀ line, f a = .ok line → ∃ s, Tells directed line s ∧ s.names = names a) :
    ∃ sentences, List.Forall₂ (Tells directed) lines sentences ∧ sentences.map Sentence.names = as.map names := by
  have hpairs := mapM_eq_ok h
  clear h
  induction hpairs with
  | nil => exact ⟨[], .nil, rfl⟩
  | cons hline _ ih =>
    obtain ⟨hfirst, hmore⟩ := List.forall_mem_cons.mp ht
    obtain ⟨s, htells, hnames⟩ := hfirst _ hline
    obtain ⟨sentences, hsentences, hall⟩ := ih hmore
    exact ⟨s :: sentences, .cons htells hsentences, by rw [List.map_cons, List.map_cons, hnames, hall]⟩

/-- The names of a statement about a node or an edge, unless one of them has a port. -/
def Statement.names? : Statement → Option (List Name)
  | .ends es _ => if es.all (·.port.isEmpty) then some (es.map (·.name)) else none
  | .setting _ _ => none

theorem names?_statement (s : Sentence) : s.statement.names? = some s.names := by
  have hports : (s.names.map fun n => (⟨n, []⟩ : End)).all (·.port.isEmpty) = true := by simp
  rw [Sentence.statement, Statement.names?, if_pos hports, List.map_map]
  exact congrArg some (List.map_id' _)

theorem names?_statements (sentences : List Sentence) :
    (sentences.map Sentence.statement).map Statement.names? = (sentences.map Sentence.names).map some := by
  rw [List.map_map, List.map_map]
  exact List.map_congr_left fun s _ => names?_statement s

/-- The word that says which kind of graph follows. -/
def kindWord (directed : Bool) : List Char := if directed then "digraph".toList else "graph".toList

theorem kindWord_read (directed : Bool) : Reads (kindWord directed) [.keyword (kindWord directed)] := by
  cases directed with
  | true =>
    have hplain : isPlainName "digraph".toList = true := by decide
    exact reads_word hplain
  | false =>
    have hplain : isPlainName "graph".toList = true := by decide
    exact reads_word hplain

/-- The tokens in front of the statements. -/
def header (directed : Bool) (name : Option Name) : List Token :=
  .keyword (kindWord directed) :: (name.toList.map Token.name ++ [.leftBrace])

theorem ofTokens_header (directed : Bool) (name : Option Name) (body : List Token) :
    Document.ofTokens (header directed name ++ body) = Document.ofBody directed name body := by
  have hkind : Document.kind? (kindWord directed) = some directed := by cases directed <;> decide
  cases name with
  | none =>
    change (Document.kind? (kindWord directed) >>= _) = _
    rw [hkind]
    rfl
  | some name =>
    change (Document.kind? (kindWord directed) >>= _) = _
    rw [hkind]
    rfl

theorem opening_read {title : String} (h : Nameable title.toList) {first : List Char}
    (ho : opening directed (.text title) = .ok first) :
    ∃ name, ∀ {bs us}, Reads bs us → Reads (first ++ bs) (header directed name ++ us) := by
  have hword : (if directed then "digraph ".toList else "graph ".toList) = kindWord directed ++ [' '] := by
    cases directed <;> rfl
  have hbrace {bs : List Char} {us : List Token} (hb : Reads bs us) :
      Reads ("\x7b\n".toList ++ bs) (.leftBrace :: us) := (hb.space (c := '\n') (by decide)).sign (by decide) rfl
  unfold opening at ho
  dsimp only at ho
  rw [hword] at ho
  split_ifs at ho
  · refine ⟨some (nameOf title.toList), fun {bs us} hb => ?_⟩
    cases ho
    have hname := h.reads.append (c := ' ') (by decide) (by decide) ((hbrace hb).space (by decide))
    have hkind := (kindWord_read directed).append (c := ' ') (by decide) (by decide) (hname.space (by decide))
    have hline : '\n' ∉ ' ' :: title.toList := by simpa using h.line
    have hcomment := hkind.comment hline
    have hspelled : Json.spelled (.text title) = title.toList := rfl
    have hend : " \x7b\n".toList = ' ' :: "\x7b\n".toList := rfl
    rw [hspelled, hend]
    simpa [header] using hcomment
  · refine ⟨none, fun {bs us} hb => ?_⟩
    cases ho
    have hkind := (kindWord_read directed).append (c := ' ') (by decide) (by decide) ((hbrace hb).space (by decide))
    simpa [header] using hkind

/-- A text in which lines follow an opening is read as the statements of the lines. -/
theorem read_lines {title : String} (h : Nameable title.toList) {first : List Char}
    (ho : opening directed (.text title) = .ok first) {lines : List (List Char)} {sentences : List Sentence}
    (hlines : List.Forall₂ (Tells directed) lines sentences) : ∃ name,
      Document.read (first ++ (lines.flatten ++ "\x7d\n".toList)) =
        some ⟨directed, name, sentences.map Sentence.statement⟩ := by
  obtain ⟨name, hopening⟩ := opening_read h ho
  have hclose : Reads "\x7d\n".toList [.rightBrace] := (reads_nil.space (c := '\n') (by decide)).sign (by decide) rfl
  refine ⟨name, ?_⟩
  rw [Document.read, (hopening (lines_read hlines hclose)).tokens]
  exact (ofTokens_header directed name _).trans (Document.ofBody_sentences directed name sentences)

end Dot

/-! ## Graphs of diagram texts -/

namespace Source

theorem unfed_of_written {value : Json} {s : String} (h : value.Written text) (hs : value = .text s) :
    '\n' ∉ s.toList := fun hfeed => not_written_feed text (h s hs '\n' hfeed)

theorem nameable_of_written {value : Json} (h : value.Written text) (hw : Dot.Whole value.spelled) :
    Dot.NameableJson value := by
  rintro s rfl
  exact ⟨unfed_of_written h rfl, hw⟩

theorem nodes_of_parse (h : parse text = .ok g) : ∀ n ∈ g.nodes, ∃ id color, n.id = .text id ∧ n.label = .text id ∧
    n.color = .text color ∧ n.x = .null ∧ n.y = .null := by
  obtain ⟨D, -, hmeans⟩ := means_of_parse h
  intro n hn
  rw [Graph.nodes, hmeans.slots, List.map_map] at hn
  obtain ⟨id, -, rfl⟩ := List.mem_map.mp hn
  exact ⟨id, _, rfl, rfl, rfl, rfl, rfl⟩

theorem edges_of_text (h : parse text = .ok g) : ∀ e ∈ g.edges, e.label.IsCaption ∧
    (∃ weight : Nat, e.size = .whole weight) ∧ (∃ n ∈ g.nodes, n.id = e.source) ∧ ∃ n ∈ g.nodes, n.id = e.target := by
  obtain ⟨D, -, hmeans⟩ := means_of_parse h
  intro e he
  obtain ⟨d, hd, hdraws⟩ := hmeans.declared e he
  have hnode (id : String) (hid : id ∈ (Declaration.edge d).mentioned) : ∃ n ∈ g.nodes, n.id = .text id := by
    refine ⟨recordOf D id, ?_, rfl⟩
    rw [Graph.nodes, hmeans.slots, List.map_map]
    exact List.mem_map.mpr ⟨id, mem_idsOf hd hid, rfl⟩
  refine ⟨?_, ⟨d.weight, hdraws.size⟩, ?_, ?_⟩
  · rw [hdraws.label]
    cases d.label with
    | none => exact Or.inl rfl
    | some label => exact Or.inr ⟨label, rfl⟩
  · rw [hdraws.source]
    exact hnode d.source (by simp [Declaration.mentioned])
  · rw [hdraws.target]
    exact hnode d.target (by simp [Declaration.mentioned])

theorem title_of_parse (h : parse text = .ok g) : ∃ title, g.title = .text title := by
  obtain ⟨D, -, hmeans⟩ := means_of_parse h
  exact ⟨_, hmeans.title⟩

theorem writable_of_parse (h : parse text = .ok g) (hs : ∀ n ∈ g.nodes, n.size.FitsTwice) : g.Writable where
  title := title_of_parse h
  nodes := by
    intro n hn
    obtain ⟨id, color, hid, hlabel, hcolor, hx, hy⟩ := nodes_of_parse h n hn
    exact ⟨⟨id, hid⟩, Or.inr ⟨id, hlabel⟩, Or.inr ⟨color, hcolor⟩, hs n hn, Or.inl hx, Or.inl hy⟩
  edges := by
    intro e he
    obtain ⟨source, target, hsource, htarget, -, -⟩ := ends_of_parse h e he
    exact ⟨⟨source, hsource⟩, ⟨target, htarget⟩, (edges_of_text h e he).1⟩

theorem endName_of_parse (h : parse text = .ok g) (hw : g.Whole) {e : Edge} (he : e ∈ g.edges) :
    ∃ source target, e.source = .text source ∧ e.target = .text target ∧ Dot.EndName source.toList ∧
      Dot.EndName target.toList := by
  have hwritten := written_of_parse h
  obtain ⟨source, target, hsource, htarget, hcolon, hcolon'⟩ := ends_of_parse h e he
  obtain ⟨-, -, ⟨n, hn, hid⟩, m, hm, hid'⟩ := edges_of_text h e he
  have hwhole := hw.ids n hn
  have hwhole' := hw.ids m hm
  rw [hid, hsource] at hwhole
  rw [hid', htarget] at hwhole'
  exact ⟨source, target, hsource, htarget, ⟨⟨unfed_of_written (hwritten.sources e he) hsource, hwhole⟩, hcolon⟩,
    ⟨⟨unfed_of_written (hwritten.targets e he) htarget, hwhole'⟩, hcolon'⟩⟩

end Source

namespace Dot

/-- What statements about nodes and edges name, one behind the other, where an id is named as said. -/
def namesOf (nameOf : List Char → Name) (g : Graph) : List (Option (List Name)) :=
  g.nodes.map (fun n => some [nameOf n.id.spelled]) ++
    g.edges.map fun e => some [nameOf e.source.spelled, nameOf e.target.spelled]

/-- A document tells of the nodes and edges of a graph: a statement for each, in order and by name, and of no other
node. -/
structure Document.Depicts (doc : Document) (g : Graph) : Prop where
  directed : doc.directed = isDirected g
  statements : doc.statements.map Statement.names? = namesOf .text g
  known : ∀ s ∈ doc.statements, ∃ names, s.names? = some names ∧
    ∀ name ∈ names, ∃ n ∈ g.nodes, name = .text n.id.spelled

/-- Every statement names nodes of the graph, if the ends of edges are among them. -/
theorem known_of_statements {ss : List Statement} (hs : ss.map Statement.names? = namesOf .text g)
    (he : ∀ e ∈ g.edges, (∃ n ∈ g.nodes, n.id = e.source) ∧ ∃ n ∈ g.nodes, n.id = e.target) :
    ∀ s ∈ ss, ∃ names, s.names? = some names ∧ ∀ name ∈ names, ∃ n ∈ g.nodes, name = .text n.id.spelled := by
  intro s hmem
  have hnames := List.mem_map_of_mem (f := Statement.names?) hmem
  rw [hs, namesOf, List.mem_append, List.mem_map, List.mem_map] at hnames
  rcases hnames with ⟨n, hn, hname⟩ | ⟨e, hedge, hname⟩
  · exact ⟨_, hname.symm, List.forall_mem_singleton.mpr ⟨n, hn, rfl⟩⟩
  · obtain ⟨⟨n, hn, hsource⟩, m, hm, htarget⟩ := he e hedge
    refine ⟨_, hname.symm, List.forall_mem_cons.mpr ⟨⟨n, hn, ?_⟩, List.forall_mem_singleton.mpr ⟨m, hm, ?_⟩⟩⟩
    · rw [hsource]
    · rw [htarget]

/-- Two ways of naming agree on a graph where they agree on its ids. -/
theorem namesOf_eq_iff {name name' : List Char → Name}
    (he : ∀ e ∈ g.edges, (∃ n ∈ g.nodes, n.id = e.source) ∧ ∃ n ∈ g.nodes, n.id = e.target) :
    namesOf name g = namesOf name' g ↔ ∀ n ∈ g.nodes, name n.id.spelled = name' n.id.spelled := by
  constructor
  · intro h n hn
    have hnodes := (List.append_inj h (by simp)).1
    have hname := List.map_inj_left.mp hnodes n hn
    exact (List.cons.inj (Option.some.inj hname)).1
  · intro h
    refine congrArg₂ (· ++ ·) (List.map_congr_left fun n hn => ?_) (List.map_congr_left fun e hedge => ?_)
    · rw [h n hn]
    · obtain ⟨⟨n, hn, hsource⟩, m, hm, htarget⟩ := he e hedge
      rw [← hsource, ← htarget, h n hn, h m hm]

theorem nodeLine_of_parse (h : Source.parse text = .ok g) (hw : g.Whole) {n : Node} (hn : n ∈ g.nodes)
    {line : List Char} (hline : nodeLine n = .ok line) :
    ∃ s, Tells directed line s ∧ s.names = [nameOf n.id.spelled] := by
  have hwritten := Source.written_of_parse h
  obtain ⟨id, color, hid, hlabel, hcolor, -, -⟩ := Source.nodes_of_parse h n hn
  have hname := Source.nameable_of_written (hwritten.ids n hn) (hw.ids n hn) id hid
  have hcolored := Source.nameable_of_written (hwritten.colors n hn) (hw.colors n hn)
  obtain ⟨attrs, htells⟩ := nodeLine_tells hline hid hname hlabel hname hcolored directed
  exact ⟨_, htells, by rw [hid]; rfl⟩

theorem edgeLine_of_parse (h : Source.parse text = .ok g) (hw : g.Whole) {e : Edge} (he : e ∈ g.edges)
    {line : List Char} (hline : edgeLine (isDirected g) e = .ok line) :
    ∃ s, Tells (isDirected g) line s ∧ s.names = [nameOf e.source.spelled, nameOf e.target.spelled] := by
  have hwritten := Source.written_of_parse h
  obtain ⟨source, target, hs, ht, hsource, htarget⟩ := Source.endName_of_parse h hw he
  obtain ⟨hcaption, ⟨weight, hweight⟩, -, -⟩ := Source.edges_of_text h e he
  have hcaptioned := Source.nameable_of_written (hwritten.captions e he) (hw.captions e he)
  obtain ⟨attrs, htells⟩ := edgeLine_tells hline hs hsource ht htarget hweight hcaptioned hcaption
  exact ⟨_, htells, by rw [hs, ht]; rfl⟩

/-- The DOT text of a graph whose texts are whole is read as statements about its nodes and edges, under the names that
are read of their ids. -/
theorem print_reads (h : Source.parse text = .ok g) (hs : ∀ n ∈ g.nodes, n.size.FitsTwice) (hw : g.Whole) :
    ∃ dot doc, print g [] = .ok dot ∧ Document.read dot.toList = some doc ∧ doc.directed = isDirected g ∧
      doc.statements.map Statement.names? = namesOf nameOf g := by
  have hsettings : ∃ line, settingsLine [] = .ok line := ⟨[], rfl⟩
  obtain ⟨dot, hdot⟩ := print_succeeds (Source.writable_of_parse h hs) hsettings
  obtain ⟨title, htitle⟩ := Source.title_of_parse h
  obtain ⟨body, hbody, hprint⟩ := bind_eq_ok hdot
  obtain ⟨last, hlast, hprint⟩ := bind_eq_ok hprint
  obtain ⟨first, hfirst, hprint⟩ := bind_eq_ok hprint
  obtain ⟨nodeLines, hnodes, hbody⟩ := bind_eq_ok hbody
  obtain ⟨edgeLines, hedges, hbody⟩ := bind_eq_ok hbody
  cases hlast
  cases hbody
  obtain rfl := Except.ok.inj hprint
  obtain ⟨nodeSentences, hnodeTells, hnodeNames⟩ := mapM_tells (isDirected g)
    (fun n : Node => [nameOf n.id.spelled]) hnodes fun n hn _ hline => nodeLine_of_parse h hw hn hline
  obtain ⟨edgeSentences, hedgeTells, hedgeNames⟩ := mapM_tells (isDirected g)
    (fun e : Edge => [nameOf e.source.spelled, nameOf e.target.spelled]) hedges
    fun e he _ hline => edgeLine_of_parse h hw he hline
  rw [htitle] at hfirst
  have hname := Source.nameable_of_written (Source.written_of_parse h).title hw.title title htitle
  obtain ⟨name, hread⟩ := read_lines hname hfirst (List.rel_append hnodeTells hedgeTells)
  refine ⟨_, ⟨isDirected g, name, (nodeSentences ++ edgeSentences).map Sentence.statement⟩, hdot, ?_, rfl, ?_⟩
  · rw [String.toList_ofList]
    simpa using hread
  · rw [names?_statements, List.map_append, hnodeNames, hedgeNames, List.map_append, List.map_map, List.map_map]
    rfl

/-- A document with the names that are read of the ids of a graph depicts it exactly if the ids are literal. -/
theorem depicts_iff (h : Source.parse text = .ok g) (hw : g.Whole) {doc : Document}
    (hd : doc.directed = isDirected g) (hs : doc.statements.map Statement.names? = namesOf nameOf g) :
    doc.Depicts g ↔ ∀ n ∈ g.nodes, Literal n.id.spelled := by
  have hends : ∀ e ∈ g.edges, (∃ n ∈ g.nodes, n.id = e.source) ∧ ∃ n ∈ g.nodes, n.id = e.target :=
    fun e he => (Source.edges_of_text h e he).2.2
  constructor
  · intro hdepicts n hn
    have hnames := (namesOf_eq_iff hends).mp (hs.symm.trans hdepicts.statements) n hn
    exact (nameOf_eq_iff (hw.ids n hn)).mp hnames
  · intro hl
    have hnames : doc.statements.map Statement.names? = namesOf .text g :=
      hs.trans ((namesOf_eq_iff hends).mpr fun n hn => (nameOf_eq_iff (hw.ids n hn)).mpr (hl n hn))
    exact ⟨hd, hnames, known_of_statements hnames hends⟩

/-- For every graph of a diagram text: exactly the names that are literal are read as the names that they are. If no
text of the graph runs on behind its quotes or brackets and no size is beyond the doubles, the graph becomes a DOT text
that is read, and it tells of the nodes and edges of the graph, a statement for each, in order and by name, exactly if
all names are literal. -/
theorem literal_names_are_read_back (h : Source.parse text = .ok g) :
    (∀ n ∈ g.nodes, tokens (quote n.id.spelled) = some [.name (.text n.id.spelled)] ↔ Literal n.id.spelled) ∧
      ((∀ n ∈ g.nodes, n.size.FitsTwice) → g.Whole →
        ∃ dot doc, print g [] = .ok dot ∧ Document.read dot.toList = some doc ∧
          (doc.Depicts g ↔ ∀ n ∈ g.nodes, Literal n.id.spelled)) := by
  refine ⟨fun n hn => ?_, fun hs hw => ?_⟩
  · obtain ⟨id, -, hid, -⟩ := Source.nodes_of_parse h n hn
    rw [hid]
    exact tokens_quote_iff (Source.unfed_of_written ((Source.written_of_parse h).ids n hn) hid)
  · obtain ⟨dot, doc, hdot, hread, hdirected, hstatements⟩ := print_reads h hs hw
    exact ⟨dot, doc, hdot, hread, depicts_iff h hw hdirected hstatements⟩

/-- A node with a quote in its name, and an edge to a name with a blank. -/
def quotedText : List Char := "graphDiagram Trip\nnode a\"b 20 #red\na\"b -2-> New York: by \"car\"".toList

/-- The size of a node is a whole number that a diameter can have. -/
def hasDiameter : Json → Bool
  | .number (.whole n) => Value.wholeFits (2 * n)
  | _ => false

theorem fitsTwice_of_hasDiameter {value : Json} (h : hasDiameter value = true) : value.FitsTwice := by
  unfold hasDiameter at h
  split at h
  · exact Or.inr ⟨_, rfl, h⟩
  · cases h

theorem quotedText_reads_back :
    ∃ g dot doc, Source.parse quotedText = .ok g ∧ (∀ n ∈ g.nodes, n.size.FitsTwice) ∧ g.Whole ∧
      print g [] = .ok dot ∧ Document.read dot.toList = some doc ∧ doc.Depicts g := by
  have hdiagram : (Source.parse quotedText).toOption.any (fun g =>
      g.nodes.all (fun n => hasDiameter n.size && decide (Literal n.id.spelled) && decide (Literal n.color.spelled)) &&
        g.edges.all (fun e => decide (Literal e.label.spelled)) && decide (Literal g.title.spelled)) = true := by
    decide +kernel
  cases hparse : Source.parse quotedText with
  | error fault =>
    rw [hparse] at hdiagram
    cases hdiagram
  | ok g =>
    rw [hparse] at hdiagram
    simp only [Except.toOption, Option.any_some, Bool.and_eq_true, List.all_eq_true, decide_eq_true_eq] at hdiagram
    obtain ⟨⟨hnodes, hedges⟩, htitle⟩ := hdiagram
    have hsizes : ∀ n ∈ g.nodes, n.size.FitsTwice := fun n hn => fitsTwice_of_hasDiameter (hnodes n hn).1.1
    have hwhole : g.Whole := ⟨htitle.whole, fun n hn => (hnodes n hn).1.2.whole, fun n hn => (hnodes n hn).2.whole,
      fun e he => (hedges e he).whole⟩
    obtain ⟨dot, doc, hdot, hread, hdepicts⟩ := (literal_names_are_read_back hparse).2 hsizes hwhole
    exact ⟨g, dot, doc, rfl, hsizes, hwhole, hdot, hread, hdepicts.mpr fun n hn => (hnodes n hn).1.2⟩

/-- A node with a name in angle brackets. -/
def bracketText : List Char := "node <b>".toList

/-- What holds of literal names does not hold of all: brackets make markup of a name. -/
theorem brackets_are_read_as_markup : ¬∀ (text : List Char) (g : Graph), Source.parse text = .ok g →
    ∃ dot doc, print g [] = .ok dot ∧ Document.read dot.toList = some doc ∧ doc.Depicts g := by
  intro hall
  have hdiagram : (Source.parse bracketText).toOption.any (fun g =>
      g.nodes.any (fun n => n.id.spelled == ['<', 'b', '>']) &&
        g.nodes.all (fun n => hasDiameter n.size && n.id.spelled == ['<', 'b', '>'] &&
          decide (Literal n.color.spelled)) &&
        g.edges.isEmpty && decide (Literal g.title.spelled)) = true := by
    decide +kernel
  cases hparse : Source.parse bracketText with
  | error fault =>
    rw [hparse] at hdiagram
    cases hdiagram
  | ok g =>
    rw [hparse] at hdiagram
    simp only [Except.toOption, Option.any_some, Bool.and_eq_true, List.all_eq_true, List.any_eq_true, beq_iff_eq,
      decide_eq_true_eq, List.isEmpty_iff] at hdiagram
    obtain ⟨⟨⟨⟨n, hn, hid⟩, hnodes⟩, hedges⟩, htitle⟩ := hdiagram
    have hwhole : g.Whole := by
      refine ⟨htitle.whole, fun n hn => ?_, fun n hn => (hnodes n hn).2.whole, ?_⟩
      · rw [(hnodes n hn).1.2]
        simp [Whole, isBracketed, Closes]
      · rw [hedges]
        exact List.forall_mem_nil _
    obtain ⟨dot, doc, hdot, hread, hdirected, hstatements⟩ := print_reads hparse
      (fun n hn => fitsTwice_of_hasDiameter (hnodes n hn).1.1) hwhole
    obtain ⟨dot', doc', hdot', hread', hdepicts⟩ := hall bracketText g hparse
    obtain rfl : dot = dot' := Except.ok.inj (hdot.symm.trans hdot')
    obtain rfl : doc = doc' := Option.some.inj (hread.symm.trans hread')
    have hliteral := (depicts_iff hparse hwhole hdirected hstatements).mp hdepicts n hn
    rw [hid] at hliteral
    cases hliteral.bracketed

end Dot
end NodeLink
