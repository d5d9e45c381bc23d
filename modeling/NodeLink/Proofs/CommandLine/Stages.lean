import NodeLink.CommandLine.Run
import NodeLink.Proofs.Files.Contents

/-!
# Stages of a run

A run finds its input, makes its directory, reads a text, lays the graph of it out, writes that in a format, and opens
its file for it. What goes wrong in a stage is reported, or it leaks: it is left to whoever has started the run. That is
where the path of the input is too long, where the directory cannot be named, and where a text cannot be read, laid out,
written in its format or encoded.
-/

namespace NodeLink.CommandLine

open NodeLink.Text

/-! ### What a run comes to -/

/-- The input is there, as a file or as the stream. -/
def Present (w : World) (a : Arguments) : Prop := checkInput w.files (Path.normal a.input) = .ok none

/-- A run has made its directory and read its text. -/
structure Given (w : World) (a : Arguments) (files : Files.Tree) (text : List Char) : Prop where
  present : Present w a
  directory : ∃ directory, usableDirectory a = .ok directory ∧
    w.disk.makeDirectory w.files (Path.normal directory) = .ok files
  text : readInput w files (Path.normal a.input) = .ok text

/-- The layout of the graph that a text comes to. -/
def placed (w : World) (a : Arguments) (text : List Char) (parsed : Graph) : Layout.Result :=
  Layout.placeByName w.layout (a.layout.toJson .text) { graph := parsed, notices := Source.notices text }

/-- A text comes to a graph, and that is laid out. -/
def Laid (w : World) (a : Arguments) (text : List Char) (g : Graph) : Prop :=
  ∃ parsed, Source.parse text = .ok parsed ∧ (placed w a text parsed).fault = none ∧
    (placed w a text parsed).state.graph = g

/-- The whole text of the graph that a text is laid out as, in the format asked for, and the path that goes by its
title. -/
structure Complete (w : World) (a : Arguments) (text : List Char) (out : Output) : Prop where
  laid : Laid w a text out.graph
  written : ∃ format document directory, a.format = .value format ∧
    Export.write out.graph format a.options w.icons = .ok document ∧ a.output = .value directory ∧
    out.text = document.text.toList ∧
    out.path = Path.below (Path.normal directory) (Export.fileName out.graph.title format)

/-- A run has opened its file. -/
def Opened (w : World) (a : Arguments) (out : Output) (place : Files.Place) : Prop :=
  ∃ files text, Given w a files text ∧ Complete w a text out ∧ w.disk.openFile files out.path = .ok place

/-- A file holds what it is said to hold, and all others hold what they held before. -/
def Holds (w : World) (report : Report) (place : Files.Place) (bytes : List Nat) : Prop :=
  ∀ p, report.files.bytesAt p = if p = place then some bytes else w.files.bytesAt p

/-- The one file has been written as a whole. -/
def Written (w : World) (a : Arguments) (report : Report) : Prop :=
  ∃ out place, Opened w a out place ∧ Holds w report place (Utf8.encode out.text)

/-- No file has been written. -/
def Untouched (w : World) (report : Report) : Prop := ∀ p, report.files.bytesAt p = w.files.bytesAt p

/-- The disk has given way while the file was written. -/
def BrokenOff (w : World) (a : Arguments) (report : Report) : Prop :=
  ∃ out place room refusal, Opened w a out place ∧ w.disk.breaks = some (room, refusal) ∧
    room < (Utf8.encode out.text).length ∧ Holds w report place ((Utf8.encode out.text).take room)

/-- The run tells of a failure. -/
structure Fails (w : World) (a : Arguments) (report : Report) : Prop where
  exit : report.exit = .returned 1
  stdout : report.stdout = ""
  stderr : ∃ line, report.stderr = line ++ "\n"
  files : Untouched w report ∨ BrokenOff w a report

/-- Why a run does not come to an end of its own. -/
inductive Leaks (w : World) (a : Arguments) : Fault → Prop
  | input (f : Files.Fault) : Path.normal a.input ≠ streamPath → w.files.find? (Path.normal a.input) = .error f →
      Leaks w a (.file f)
  | noDirectory : Present w a → a.output = .nothing → Leaks w a (.noMember "list" "mkdir")
  | unnameable (d : List Char) : Present w a → a.output = .value d → Files.isUnnameable d = true →
      Leaks w a .unencodable
  | broken (d : List Char) : Present w a → a.output = .value d → Files.isUnnameable d = false →
      Files.isBroken d = true → Leaks w a .brokenPath
  | parse {files : Files.Tree} {text : List Char} (f : Fault) : Given w a files text → Source.parse text = .error f →
      Leaks w a f
  | layout {files : Files.Tree} {text : List Char} {parsed : Graph} (f : Fault) : Given w a files text →
      Source.parse text = .ok parsed → (placed w a text parsed).fault = some f → Leaks w a f
  | noFormat {files : Files.Tree} {text : List Char} {g : Graph} : Given w a files text → Laid w a text g →
      a.format = .nothing → Leaks w a (.unknownFormat "[]")
  | document {files : Files.Tree} {text : List Char} {g : Graph} (format : Format) (f : Fault) : Given w a files text →
      Laid w a text g → a.format = .value format → Export.write g format a.options w.icons = .error f → Leaks w a f
  | encoding {out : Output} {place : Files.Place} : Opened w a out place → out.text.any carriesHalf = true →
      Leaks w a .unencodable

/-! ### The text that is written -/

variable {w : World} {a : Arguments} {files : Files.Tree} {text : List Char} {parsed g : Graph} {fault : Fault}
  {out : Output} {place : Files.Place} {report : Report}

theorem charsOf_ofList (cs : List Char) : Source.charsOf (.text (String.ofList cs)) = .ok cs := by
  have hsame : (Json.text (String.ofList cs)).orElse (.text "") = .text (String.ofList cs) := by
    unfold Json.orElse
    split
    · rfl
    · rename_i hempty
      have htext : String.ofList cs = "" := by simpa [Json.isGiven] using hempty
      rw [htext]
  have hread : Source.charsOf (.text (String.ofList cs)) =
      String.toList <$> Json.text? "splitlines" ((Json.text (String.ofList cs)).orElse (.text "")) := by
    simp [Source.charsOf]
  rw [hread, hsame]
  exact congrArg Except.ok String.toList_ofList

theorem output_eq (w : World) (a : Arguments) (text : List Char) : output w a text =
    match Source.parse text with
    | .error fault => .error fault
    | .ok parsed =>
      match (placed w a text parsed).fault with
      | some fault => .error fault
      | none => compose w a (placed w a text parsed).state.graph (placed w a text parsed).state.notices := by
  unfold output Pipeline.build placed
  rw [charsOf_ofList]
  dsimp only
  cases Source.parse text with
  | error fault => rfl
  | ok parsed =>
    dsimp only
    generalize Layout.placeByName _ _ _ = result
    cases result.fault with
    | none => rfl
    | some fault => rfl

theorem output_of_laid (h : Laid w a text g) : ∃ notices, output w a text = compose w a g notices := by
  obtain ⟨parsed, hparse, hends, rfl⟩ := h
  refine ⟨(placed w a text parsed).state.notices, ?_⟩
  simp only [output_eq, hparse, hends]

theorem laid_cases (w : World) (a : Arguments) (text : List Char) :
    (∃ fault, Source.parse text = .error fault) ∨
    (∃ parsed fault, Source.parse text = .ok parsed ∧ (placed w a text parsed).fault = some fault) ∨
    ∃ g, Laid w a text g := by
  cases hparse : Source.parse text with
  | error fault => exact Or.inl ⟨fault, rfl⟩
  | ok parsed =>
    cases hlayout : (placed w a text parsed).fault with
    | some fault => exact Or.inr (Or.inl ⟨parsed, fault, rfl, hlayout⟩)
    | none => exact Or.inr (Or.inr ⟨_, parsed, hparse, hlayout, rfl⟩)

theorem output_of_complete (h : Complete w a text out) :
    ∃ notices, output w a text = .ok { out with notices } := by
  obtain ⟨laid, format, document, directory, hformat, hdocument, hdirectory, htext, hpath⟩ := h
  obtain ⟨notices, houtput⟩ := output_of_laid laid
  refine ⟨notices ++ document.notices, ?_⟩
  rw [houtput, htext, hpath]
  unfold compose Arguments.directory
  simp only [hformat, hdocument, hdirectory, Chosen.get, bind, Except.bind, pure, Except.pure]

/-! ### The stages of a run -/

/-- What a run without a watch does once it has its directory. -/
def runIn (w : World) (a : Arguments) (directory : List Char) : Except Fault Report :=
  let seeds := (a.seed.map some).toList
  match w.disk.makeDirectory w.files (Path.normal directory) with
  | .error fault => .ok (.failed w.files seeds ("Error creating output directory: " ++ fault.message))
  | .ok files =>
    match readInput w files (Path.normal a.input) with
    | .error fault =>
      .ok (.failed files seeds ("Error reading " ++ String.ofList (Path.normal a.input) ++ ": " ++ fault.message))
    | .ok text => output w a text >>= deliver w a files

theorem runWith_eq (hwatch : a.watch = false) : runWith w a =
    checkInput w.files (Path.normal a.input) >>= fun line? =>
      match line? with
      | some line => .ok (.failed w.files [] line)
      | none => usableDirectory a >>= runIn w a := by
  unfold runWith
  dsimp only
  rw [hwatch]
  rcases checkInput w.files (Path.normal a.input) with fault | _ | line
  · rfl
  · rfl
  · rfl

theorem runWith_of_present (hwatch : a.watch = false) (h : Present w a) :
    runWith w a = usableDirectory a >>= runIn w a := by
  rw [runWith_eq hwatch, h]
  rfl

theorem runWith_of_given (hwatch : a.watch = false) (h : Given w a files text) :
    runWith w a = output w a text >>= deliver w a files := by
  obtain ⟨directory, hdirectory, hmade⟩ := h.directory
  rw [runWith_of_present hwatch h.present, hdirectory]
  change runIn w a directory = _
  unfold runIn
  rw [hmade]
  dsimp only
  rw [h.text]

theorem usableDirectory_nothing (h : a.output = .nothing) :
    usableDirectory a = .error (.noMember "list" "mkdir") := by
  unfold usableDirectory Arguments.directory
  rw [h]
  rfl

theorem usableDirectory_value {d : List Char} (h : a.output = .value d) :
    usableDirectory a = if Files.isUnnameable d = true then .error .unencodable
      else if Files.isBroken d = true then .error .brokenPath else .ok d := by
  unfold usableDirectory Arguments.directory
  rw [h]
  change (if Files.isUnnameable d = true then _ else _) = _
  by_cases hname : Files.isUnnameable d = true
  · rw [if_pos hname, if_pos hname]
    rfl
  · rw [if_neg hname, if_neg hname]
    by_cases hbroken : Files.isBroken d = true
    · rw [if_pos hbroken, if_pos hbroken]
      rfl
    · rw [if_neg hbroken, if_neg hbroken]
      rfl

theorem runWith_of_leaks (hwatch : a.watch = false) (h : Leaks w a fault) : runWith w a = .error fault := by
  cases h with
  | input f hpath hfind =>
    have hcheck : checkInput w.files (Path.normal a.input) = .error (.file f) := by
      unfold checkInput
      rw [if_neg hpath, hfind]
      rfl
    rw [runWith_eq hwatch, hcheck]
    rfl
  | noDirectory hpresent houtput =>
    rw [runWith_of_present hwatch hpresent, usableDirectory_nothing houtput]
    rfl
  | unnameable d hpresent houtput hname =>
    rw [runWith_of_present hwatch hpresent, usableDirectory_value houtput, if_pos hname]
    rfl
  | broken d hpresent houtput hname hbroken =>
    rw [runWith_of_present hwatch hpresent, usableDirectory_value houtput, if_neg (Bool.not_eq_true _ ▸ hname),
      if_pos hbroken]
    rfl
  | parse f given hparse =>
    rw [runWith_of_given hwatch given, output_eq, hparse]
    rfl
  | layout f given hparse hlayout =>
    simp only [runWith_of_given hwatch given, output_eq, hparse, hlayout]
    rfl
  | noFormat given laid hformat =>
    obtain ⟨notices, houtput⟩ := output_of_laid laid
    rw [runWith_of_given hwatch given, houtput]
    unfold compose
    rw [hformat]
    rfl
  | document format f given laid hformat hdocument =>
    obtain ⟨notices, houtput⟩ := output_of_laid laid
    rw [runWith_of_given hwatch given, houtput]
    unfold compose
    rw [hformat]
    change (Export.write _ format a.options w.icons >>= _) >>= _ = _
    rw [hdocument]
    rfl
  | encoding opened hhalf =>
    obtain ⟨files, text, given, complete, hopen⟩ := opened
    obtain ⟨notices, houtput⟩ := output_of_complete complete
    rw [runWith_of_given hwatch given, houtput]
    change deliver w a files _ = _
    unfold deliver
    dsimp only
    rw [hopen]
    simp only [hhalf, if_true]

end NodeLink.CommandLine
