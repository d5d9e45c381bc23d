import NodeLink.Proofs.CommandLine.Settings
import NodeLink.Proofs.CommandLine.Stages
import NodeLink.Proofs.Pipeline
import NodeLink.Proofs.Source.LongNumbers

/-!
# How runs end

A run without a watch that comes to an end of its own has written its one file as a whole, or it tells of a failure and
has written none. There is one exception: a disk that gives way while the file is written keeps what it has got. As long
as paths, options and text are handled with care, every run comes to such an end.
-/

namespace NodeLink

/-- A graph that can be drawn and written as DOT is written in every format. -/
theorem Export.write_succeeds {g : Graph} {o : Options} (ho : o.style.Usual) (hdrawable : g.Drawable)
    (hwritable : g.Writable) (icons : Icon.World) (format : Format) : ∃ document, write g format o icons = .ok document := by
  cases format with
  | svg => exact bind_succeeds (Svg.render_succeeds ho hdrawable icons).exists_ok fun _ _ => ⟨_, rfl⟩
  | json => exact ⟨_, rfl⟩
  | dot => exact bind_succeeds (Dot.print_succeeds hwritable ⟨_, rfl⟩) fun _ _ => ⟨_, rfl⟩

namespace CommandLine

open NodeLink.Text

variable {w : World} {a : Arguments} {files : Files.Tree} {text : List Char} {parsed g : Graph} {fault : Fault}
  {out : Output} {place : Files.Place} {report : Report}

/-! ### How a run ends -/

theorem Given.bytesAt (h : Given w a files text) (p : Files.Place) : files.bytesAt p = w.files.bytesAt p := by
  obtain ⟨directory, -, hmade⟩ := h.directory
  exact Files.Disk.bytesAt_makeDirectory hmade p

theorem Given.unique {files' : Files.Tree} {text' : List Char} (h : Given w a files text) (h' : Given w a files' text') :
    files = files' ∧ text = text' := by
  obtain ⟨directory, hdirectory, hmade⟩ := h.directory
  obtain ⟨directory', hdirectory', hmade'⟩ := h'.directory
  obtain rfl : directory = directory' := Except.ok.inj (hdirectory.symm.trans hdirectory')
  obtain rfl : files = files' := Except.ok.inj (hmade.symm.trans hmade')
  exact ⟨rfl, Except.ok.inj (h.text.symm.trans h'.text)⟩

theorem Given.output (h : Given w a files text) : ∃ directory, a.output = .value directory := by
  obtain ⟨directory, hdirectory, -⟩ := h.directory
  cases houtput : a.output with
  | value d => exact ⟨d, rfl⟩
  | nothing =>
    rw [usableDirectory_nothing houtput] at hdirectory
    cases hdirectory

theorem Opened.of_given {out' : Output} (h : Opened w a out' place) (given : Given w a files text)
    (complete : Complete w a text out) : out'.text = out.text ∧ w.disk.openFile files out.path = .ok place := by
  obtain ⟨files', text', given', complete', hopen⟩ := h
  obtain ⟨rfl, rfl⟩ := given.unique given'
  obtain ⟨notices, houtput⟩ := output_of_complete complete
  obtain ⟨notices', houtput'⟩ := output_of_complete complete'
  obtain ⟨-, hpath, htext, -⟩ := Output.mk.inj (Except.ok.inj (houtput.symm.trans houtput'))
  rw [hpath, htext]
  exact ⟨rfl, hopen⟩

/-- A run that ends has written its file, or it tells of a failure and has not. -/
def Settled (w : World) (a : Arguments) (report : Report) : Prop :=
  report.exit = .returned 0 ∧ Written w a report ∨ Fails w a report ∧ ¬Written w a report

theorem settled_failed (hfiles : ∀ p, files.bytesAt p = w.files.bytesAt p) (hnot : ∀ out place, ¬Opened w a out place)
    (seeds : List (Option (Chosen Int))) (line : String) (notices : List Notice) :
    Settled w a { Report.failed files seeds line with notices } := by
  refine Or.inr ⟨⟨rfl, rfl, ⟨line, rfl⟩, Or.inl hfiles⟩, ?_⟩
  rintro ⟨out, place, hopened, -⟩
  exact hnot out place hopened

theorem holds_withBytes (given : Given w a files text) (place : Files.Place) (bytes : List Nat) {report : Report}
    (hfiles : report.files = files.withBytes place bytes) : Holds w report place bytes := by
  intro p
  rw [hfiles, Files.Tree.bytesAt_withBytes, given.bytesAt]

/-- What is broken off is not the whole text. -/
theorem not_written_of_brokenOff (h : BrokenOff w a report) : ¬Written w a report := by
  rintro ⟨out', place', hopened', hfull⟩
  obtain ⟨out, place, room, refusal, hopened, -, hroom, hholds⟩ := h
  obtain ⟨files, text, given, complete, hopen⟩ := hopened
  obtain ⟨htext, hopen'⟩ := hopened'.of_given given complete
  obtain rfl : place = place' := Except.ok.inj (hopen.symm.trans hopen')
  have hsame := (hholds place).symm.trans (hfull place)
  rw [if_pos rfl, if_pos rfl, htext] at hsame
  have hlength := congrArg List.length (Option.some.inj hsame)
  rw [List.length_take] at hlength
  omega

theorem deliver_cases (given : Given w a files text) (complete : Complete w a text out) :
    (out.text.any carriesHalf = true ∧ ∃ place, Opened w a out place) ∨
      ∃ report, deliver w a files out = .ok report ∧ Settled w a report := by
  unfold deliver
  dsimp only
  cases hopen : w.disk.openFile files out.path with
  | error f =>
    refine Or.inr ⟨_, rfl, settled_failed given.bytesAt (fun out' place hopened => ?_) _ _ _⟩
    obtain ⟨-, hplace⟩ := hopened.of_given given complete
    rw [hopen] at hplace
    cases hplace
  | ok place =>
    have hopened : Opened w a out place := ⟨files, text, given, complete, hopen⟩
    dsimp only
    by_cases hhalf : out.text.any carriesHalf = true
    · exact Or.inl ⟨hhalf, place, hopened⟩
    · right
      rw [if_neg hhalf]
      obtain hfill | ⟨room, refusal, hbreaks, hroom, hfill⟩ :=
        Files.Disk.fill_cases w.disk files place (Utf8.encode out.text)
      · rw [hfill]
        exact ⟨_, rfl, Or.inl ⟨rfl, out, place, hopened, holds_withBytes given place _ rfl⟩⟩
      · rw [hfill]
        refine ⟨_, rfl, Or.inr ?_⟩
        have hbroken (report : Report) (hfiles : report.files = files.withBytes place
            ((Utf8.encode out.text).take room)) : BrokenOff w a report :=
          ⟨out, place, room, refusal, hopened, hbreaks, hroom, holds_withBytes given place _ hfiles⟩
        exact ⟨⟨rfl, rfl, ⟨_, rfl⟩, Or.inr (hbroken _ rfl)⟩, not_written_of_brokenOff (hbroken _ rfl)⟩

theorem ends_of_complete (given : Given w a files text) (complete : Complete w a text out) :
    (∃ fault, Leaks w a fault) ∨
      ∃ report, (output w a text >>= deliver w a files) = .ok report ∧ Settled w a report := by
  obtain ⟨notices, houtput⟩ := output_of_complete complete
  have complete' : Complete w a text { out with notices } := ⟨complete.laid, complete.written⟩
  rw [houtput]
  obtain ⟨hhalf, place, hopened⟩ | hends := deliver_cases given complete'
  · exact Or.inl ⟨_, .encoding hopened hhalf⟩
  · exact Or.inr hends

/-- Once a text is read, the run leaks what keeps the text from being drawn or encoded, or it ends. -/
theorem ends_of_given (given : Given w a files text) :
    (∃ fault, Leaks w a fault) ∨
      ∃ report, (output w a text >>= deliver w a files) = .ok report ∧ Settled w a report := by
  rcases laid_cases w a text with ⟨fault, hparse⟩ | ⟨parsed, fault, hparse, hlayout⟩ | ⟨g, laid⟩
  · exact Or.inl ⟨fault, .parse fault given hparse⟩
  · exact Or.inl ⟨fault, .layout fault given hparse hlayout⟩
  · cases hformat : a.format with
    | nothing => exact Or.inl ⟨_, .noFormat given laid hformat⟩
    | value format =>
      cases hdocument : Export.write g format a.options w.icons with
      | error fault => exact Or.inl ⟨fault, .document format fault given laid hformat hdocument⟩
      | ok document =>
        obtain ⟨directory, hdirectory⟩ := given.output
        have complete : Complete w a text
            { graph := g, text := document.text.toList, notices := document.notices
              path := Path.below (Path.normal directory) (Export.fileName g.title format) } :=
          ⟨laid, format, document, directory, hformat, hdocument, hdirectory, rfl, rfl⟩
        exact ends_of_complete given complete

theorem checkInput_cases (files : Files.Tree) (path : List Char) :
    checkInput files path = .ok none ∨ (∃ line, checkInput files path = .ok (some line)) ∨
      ∃ f, path ≠ streamPath ∧ files.find? path = .error f := by
  unfold checkInput
  by_cases hpath : path = streamPath
  · rw [if_pos hpath]
    exact Or.inl rfl
  · rw [if_neg hpath]
    cases hfind : files.find? path with
    | error f => exact Or.inr (Or.inr ⟨f, hpath, rfl⟩)
    | ok entry? =>
      rcases entry? with _ | _ | _
      · exact Or.inr (Or.inl ⟨_, rfl⟩)
      · exact Or.inl rfl
      · exact Or.inr (Or.inl ⟨_, rfl⟩)

theorem runIn_cases {d : List Char} (hpresent : Present w a) (hdirectory : usableDirectory a = .ok d) :
    (∃ fault, Leaks w a fault) ∨ ∃ report, runIn w a d = .ok report ∧ Settled w a report := by
  have hmakes {files' : Files.Tree} {text' : List Char} (given : Given w a files' text') :
      w.disk.makeDirectory w.files (Path.normal d) = .ok files' := by
    obtain ⟨d', hd', hmade'⟩ := given.directory
    obtain rfl : d = d' := Except.ok.inj (hdirectory.symm.trans hd')
    exact hmade'
  unfold runIn
  cases hmade : w.disk.makeDirectory w.files (Path.normal d) with
  | error f =>
    refine Or.inr ⟨_, rfl, settled_failed (fun _ => rfl) (fun out place hopened => ?_) _ _ []⟩
    obtain ⟨files', text', given, -, -⟩ := hopened
    have hmade' := hmakes given
    rw [hmade] at hmade'
    cases hmade'
  | ok files =>
    dsimp only
    cases hread : readInput w files (Path.normal a.input) with
    | error f =>
      refine Or.inr ⟨_, rfl, settled_failed (Files.Disk.bytesAt_makeDirectory hmade) (fun out place hopened => ?_) _ _
        []⟩
      obtain ⟨files', text', given, -, -⟩ := hopened
      obtain rfl : files = files' := Except.ok.inj (hmade.symm.trans (hmakes given))
      have hread' := given.text
      rw [hread] at hread'
      cases hread'
    | ok text => exact ends_of_given ⟨hpresent, ⟨d, hdirectory, hmade⟩, hread⟩

/-- A run leaks, or it ends with its file written or with a failure told of. -/
theorem runWith_cases (hwatch : a.watch = false) :
    (∃ fault, Leaks w a fault) ∨ ∃ report, runWith w a = .ok report ∧ Settled w a report := by
  obtain hpresent | ⟨line, habsent⟩ | ⟨f, hpath, hfind⟩ := checkInput_cases w.files (Path.normal a.input)
  · rw [runWith_of_present hwatch hpresent]
    cases houtput : a.output with
    | nothing => exact Or.inl ⟨_, .noDirectory hpresent houtput⟩
    | value d =>
      cases hname : Files.isUnnameable d with
      | true => exact Or.inl ⟨_, .unnameable d hpresent houtput hname⟩
      | false =>
        cases hbroken : Files.isBroken d with
        | true => exact Or.inl ⟨_, .broken d hpresent houtput hname hbroken⟩
        | false =>
          have hdirectory : usableDirectory a = .ok d := by
            rw [usableDirectory_value houtput, hname, hbroken]
            rfl
          rw [hdirectory]
          exact runIn_cases hpresent hdirectory
  · rw [runWith_eq hwatch, habsent]
    refine Or.inr ⟨_, rfl, settled_failed (fun _ => rfl) (fun out place hopened => ?_) _ _ []⟩
    obtain ⟨files, text, given, -, -⟩ := hopened
    have hpresent : checkInput w.files (Path.normal a.input) = .ok none := given.present
    rw [habsent] at hpresent
    cases hpresent
  · exact Or.inl ⟨_, .input f hpath hfind⟩

theorem run_of_read {args : List (List Char)} (h : Arguments.read args = .ok a) : run w args = runWith w a := by
  unfold run
  rw [h]

/-! ### Runs that leak nothing -/

/-- What the run is to write cannot be encoded. -/
def Unencodable (w : World) (a : Arguments) : Prop :=
  ∃ out place, Opened w a out place ∧ out.text.any carriesHalf = true

/-- The paths can be looked for and named, no option is left without its value, and the text is moderate and comes to a
graph, as does an answer of Graphviz about it that can be read. -/
structure Careful (w : World) (a : Arguments) : Prop where
  input : ∀ f, w.files.find? (Path.normal a.input) ≠ .error f
  directory : ∃ d, a.output = .value d ∧ Files.isUnnameable d = false ∧ Files.isBroken d = false
  format : a.format ≠ .nothing
  layout : ∃ name, a.layout = .value name
  padding : a.padding ≠ .nothing
  seed : a.seed ≠ some .nothing
  draws : Force.UnitDraws w.layout.draw
  text : ∀ files text, Given w a files text →
    ∃ parsed, Source.parse text = .ok parsed ∧ Source.Moderate text parsed ∧ w.layout.graphviz.Legible parsed

theorem Careful.plots (hc : Careful w a) (hparse : Source.parse text = .ok parsed) (hm : Source.Moderate text parsed)
    (hw : w.layout.graphviz.Legible parsed) :
    (placed w a text parsed).fault = none ∧ (placed w a text parsed).state.graph.Plotted ∧
      parsed.OnlyMoved (placed w a text parsed).state.graph := by
  obtain ⟨name, hname⟩ := hc.layout
  have hjson : a.layout.toJson .text = .text name := by
    rw [hname]
    rfl
  unfold CommandLine.placed
  rw [hjson]
  let s : Layout.State := { graph := parsed, notices := Source.notices text }
  have hplottable : s.graph.Plottable := Source.plottable_of_parse hparse hm
  obtain ⟨hends, hplotted⟩ := Layout.placeByName_legible_plots hc.draws hw name hplottable
  exact ⟨hends, hplotted, (Layout.lays_placeByName w.layout (.text name) s).moved⟩

theorem Careful.unencodable (hc : Careful w a) (hmeasured : a.Measured) (h : Leaks w a fault) :
    fault = .unencodable ∧ Unencodable w a := by
  obtain ⟨d, hd, hname, hbroken⟩ := hc.directory
  -- each fault that gets out contradicts what is careful, but for that of encoding
  cases h with
  | input f _ hfind => exact absurd hfind (hc.input f)
  | noDirectory _ houtput =>
    rw [hd] at houtput
    cases houtput
  | unnameable d' _ houtput hname' =>
    obtain rfl : d = d' := Chosen.value.inj (hd.symm.trans houtput)
    rw [hname] at hname'
    cases hname'
  | broken d' _ houtput _ hbroken' =>
    obtain rfl : d = d' := Chosen.value.inj (hd.symm.trans houtput)
    rw [hbroken] at hbroken'
    cases hbroken'
  | parse f given hfails =>
    obtain ⟨parsed, hparse, -⟩ := hc.text _ _ given
    rw [hparse] at hfails
    cases hfails
  | layout f given hparse' hfails =>
    obtain ⟨parsed, hparse, hm, hw⟩ := hc.text _ _ given
    obtain rfl := Except.ok.inj (hparse.symm.trans hparse')
    rw [(hc.plots hparse hm hw).1] at hfails
    cases hfails
  | noFormat _ _ hformat => exact absurd hformat hc.format
  | document format f given laid hformat hdocument =>
    obtain ⟨parsed, hparse, hm, hw⟩ := hc.text _ _ given
    obtain ⟨parsed', hparse', -, rfl⟩ := laid
    obtain rfl := Except.ok.inj (hparse.symm.trans hparse')
    obtain ⟨-, hplotted, hmoved⟩ := hc.plots hparse hm hw
    obtain ⟨document, hwritten⟩ := Export.write_succeeds (Arguments.usual_options hmeasured hc.padding)
      (Source.drawable_of_parse hparse hm hmoved hplotted)
      ((Source.plottable_of_parse hparse hm).writable.moved hmoved hplotted) w.icons format
    rw [hwritten] at hdocument
    cases hdocument
  | encoding hopened hhalf => exact ⟨rfl, _, _, hopened, hhalf⟩

/-- For all arguments that are accepted without a watch, whatever is found and whatever the disk does: a run that comes
to an end of its own has the status 0 if and only if its one file has been written as a whole, and else it tells of a
failure, with the status 1 and no file written, unless the disk gave way meanwhile. Which runs do not come to an end, and
with which fault, is said by `Leaks`. Where paths, options and text are handled with care, nothing leaks but that a text
cannot be encoded. -/
theorem runs_end_or_leak (w : World) {args : List (List Char)} {a : Arguments} (h : Arguments.read args = .ok a)
    (hwatch : a.watch = false) :
    (∀ report, run w args = .ok report →
      (report.exit = .returned 0 ↔ Written w a report) ∧ (report.exit = .returned 0 ∨ Fails w a report)) ∧
    (∀ fault, run w args = .error fault ↔ Leaks w a fault) ∧
    (Careful w a → (∃ report, run w args = .ok report) ∨ run w args = .error .unencodable ∧ Unencodable w a) := by
  rw [run_of_read h]
  have hleaks {fault : Fault} (hleak : Leaks w a fault) : runWith w a = .error fault := runWith_of_leaks hwatch hleak
  obtain ⟨fault, hleak⟩ | ⟨report, hends, hsettled⟩ := runWith_cases (w := w) hwatch
  · have hfault := hleaks hleak
    refine ⟨fun report hrun => ?_, fun fault' => ⟨fun hrun => ?_, hleaks⟩, fun hc => Or.inr ?_⟩
    · rw [hfault] at hrun
      cases hrun
    · obtain rfl := Except.error.inj (hfault.symm.trans hrun)
      exact hleak
    · obtain ⟨rfl, hunencodable⟩ := hc.unencodable (measured_read h) hleak
      exact ⟨hfault, hunencodable⟩
  · refine ⟨fun report' hrun => ?_, fun fault => ⟨fun hrun => ?_, hleaks⟩, fun _ => Or.inl ⟨report, hends⟩⟩
    · obtain rfl := Except.ok.inj (hends.symm.trans hrun)
      rcases hsettled with ⟨hexit, hwritten⟩ | ⟨hfails, hnot⟩
      · exact ⟨iff_of_true hexit hwritten, Or.inl hexit⟩
      · refine ⟨iff_of_false (fun hexit => ?_) hnot, Or.inr hfails⟩
        rw [hfails.exit] at hexit
        cases hexit
    · rw [hends] at hrun
      cases hrun

/-- A diagram on the input stream, with nothing else around. -/
def streamed (text : List Char) : World where
  layout := { draw := fun _ => .real 0.5 }
  stdin := text

def streamArguments : List (List Char) := ["-", "-f", "json"].map String.toList

def streamSettings : Arguments where
  input := streamPath
  format := .value .json

theorem read_streamArguments : Arguments.read streamArguments = .ok streamSettings := by rfl

theorem given_streamed (text : List Char) : Given (streamed text) streamSettings {} text where
  present := if_pos (by decide)
  directory := by
    have hname : Files.isUnnameable ['.'] = false := by decide
    have hbroken : Files.isBroken ['.'] = false := by decide
    have hsteps : Path.steps (Path.normal ['.']) = [] := by decide
    refine ⟨['.'], ?_, ?_⟩
    · rw [usableDirectory_value (d := ['.']) rfl, hname, hbroken]
      rfl
    · unfold Files.Disk.makeDirectory Files.Tree.makeDirectory
      rw [hsteps]
      rfl
  text := if_pos (by decide)

def lonelyText : List Char := "graphDiagram Small\nnode Ann 20 #red".toList

theorem lonely_run_writes :
    ∃ report, Arguments.read streamArguments = .ok streamSettings ∧ streamSettings.watch = false ∧
      Careful (streamed lonelyText) streamSettings ∧ run (streamed lonelyText) streamArguments = .ok report ∧
      report.stdout = "small.json\n" ∧ report.exit = .returned 0 ∧ Written (streamed lonelyText) streamSettings report := by
  obtain ⟨report, hrun, hreport⟩ : Succeeds (run (streamed lonelyText) streamArguments)
      (fun report => (decide (report.exit = .returned 0) && report.stdout == "small.json\n") = true) :=
    .of_any (by decide +kernel)
  obtain ⟨hexit, hstdout⟩ := Bool.and_eq_true_iff.mp hreport
  have hexit := of_decide_eq_true hexit
  obtain ⟨parsed, hparse, hsizes⟩ : Succeeds (Source.parse lonelyText) (fun g =>
      (g.nodes.all (fun n => Pipeline.isModerate n.size) && g.edges.isEmpty) = true) := .of_any (by decide +kernel)
  obtain ⟨hnodes, hedges⟩ := Bool.and_eq_true_iff.mp hsizes
  have hmoderate : Source.Moderate lonelyText parsed := by
    refine ⟨by decide +kernel, fun n hn _ => Pipeline.lt_of_isModerate (List.all_eq_true.mp hnodes n hn), ?_⟩
    rw [List.isEmpty_iff.mp hedges]
    exact nofun
  have hcareful : Careful (streamed lonelyText) streamSettings := by
    have hinput : Files.Tree.find? {} (Path.normal streamPath) = .ok none := by decide +kernel
    refine ⟨fun f hf => ?_, ⟨_, rfl, by decide +kernel, by decide +kernel⟩, nofun, ⟨_, rfl⟩, nofun, nofun,
      Layout.unitDraws_half, fun files text given => ?_⟩
    · cases hinput.symm.trans hf
    · obtain ⟨-, rfl⟩ := given.unique (given_streamed lonelyText)
      exact ⟨parsed, hparse, hmoderate, trivial⟩
  obtain ⟨hends, -, -⟩ := runs_end_or_leak (streamed lonelyText) read_streamArguments rfl
  exact ⟨report, read_streamArguments, rfl, hcareful, hrun, beq_iff_eq.mp hstdout, hexit, (hends report hrun).1.mp hexit⟩

/-- A node of a size with 4301 digits. -/
def longText : List Char := "node A ".toList ++ List.replicate 4301 '9'

/-- Not every run comes to an end of its own: nothing catches what a number of too many digits does to the reading. -/
theorem long_numbers_leak :
    ¬∀ (w : World) (args : List (List Char)) (a : Arguments), Arguments.read args = .ok a → a.watch = false →
      ∃ report, run w args = .ok report ∧ (report.exit = .returned 0 ∨ report.exit = .returned 1) := by
  intro hall
  obtain ⟨report, hrun, -⟩ := hall (streamed longText) streamArguments streamSettings read_streamArguments rfl
  have hlong : digitLimit < (List.replicate 4301 '9').length := by
    rw [List.length_replicate]
    decide
  have hdigits : ∀ c ∈ List.replicate 4301 '9', isDigit c = true := by
    intro c hc
    rw [List.eq_of_mem_replicate hc]
    decide
  have hparse : Source.parse longText = .error _ := Source.parse_of_long_size hdigits hlong
  rw [run_of_read read_streamArguments, runWith_of_leaks rfl (.parse _ (given_streamed longText) hparse)] at hrun
  cases hrun

end CommandLine
end NodeLink
