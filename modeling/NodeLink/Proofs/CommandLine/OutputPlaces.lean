import NodeLink.CommandLine.Run
import NodeLink.Proofs.Files.Contents
import NodeLink.Proofs.Files.Paths
import NodeLink.Proofs.Text.FileNames

/-!
# Where a drawing is written

A file is named for the title of its graph. The name is a single step of a path, whatever the title is, so the file
lies in the output directory itself, and no other file is touched.
-/

namespace NodeLink

open NodeLink.Text

/-! ### Names -/

namespace Text.FileName

variable {title : List Char}

theorem pointed_extension (format : Format) : pointed format.extension.toList = format.extension.toList := by
  cases format <;> decide

theorem ofTitle_extension (title : List Char) (format : Format) :
    ofTitle title format.extension.toList = stem title ++ format.extension.toList := by
  rw [ofTitle, pointed_extension]

theorem two_le_length_extension (format : Format) : 2 ≤ format.extension.toList.length := by
  cases format <;> decide

theorem slash_not_mem_extension (format : Format) : '/' ∉ format.extension.toList := by
  cases format <;> decide

/-- The name for a title is longer than any of the steps that mean a directory. -/
theorem isStep_ofTitle (title : List Char) (format : Format) :
    Path.IsStep (ofTitle title format.extension.toList) ∧
      ofTitle title format.extension.toList ≠ Files.Tree.upStep := by
  rw [ofTitle_extension]
  have hlong : 2 < (stem title ++ format.extension.toList).length := by
    have hstem := List.length_pos_iff.mpr (stem_ne_nil title)
    have hextension := two_le_length_extension format
    rw [List.length_append]
    omega
  have hshort {short : List Char} (h : short.length ≤ 2) : stem title ++ format.extension.toList ≠ short := by
    rintro rfl
    omega
  refine ⟨⟨hshort (Nat.zero_le 2), hshort (by decide), ?_⟩, hshort (by decide)⟩
  intro hslash
  rcases List.mem_append.mp hslash with hstem | hextension
  · exact absurd ((isSlug_stem title).chars '/' hstem) (by decide)
  · exact slash_not_mem_extension format hextension

theorem letters_of_isStemChar {c : Char} (h : isStemChar c = true) :
    'a' ≤ c ∧ c ≤ 'z' ∨ '0' ≤ c ∧ c ≤ '9' ∨ c = '_' ∨ c = '-' := by
  simpa [isStemChar, or_assoc] using h

end Text.FileName

/-! ### Files -/

namespace CommandLine

variable {w : World} {a : Arguments} {g : Graph} {notices : List Notice} {files : Files.Tree} {out : Output}
  {place : Files.Place} {directory : List Char} {format : Format} {report : Report}

/-- Of all files only a direct child of the directory is another one, and that is what it holds. -/
def WritesChild (before after : Files.Tree) (directory name : List Char) (bytes : List Nat) : Prop :=
  ∃ parent, before.follow (Path.steps directory) = .ok parent ∧ before.entry? parent = some .directory ∧
    ∀ p, after.bytesAt p = if p = parent ++ [name] then some bytes else before.bytesAt p

theorem path_of_compose (houtput : a.output = .value directory) (hformat : a.format = .value format)
    (h : compose w a g notices = .ok out) :
    out.path = Path.below (Path.normal directory) (Export.fileName g.title format) := by
  unfold compose Arguments.directory at h
  rw [houtput, hformat] at h
  obtain ⟨chosen, hchosen, h⟩ := bind_eq_ok h
  cases hchosen
  obtain ⟨written, -, h⟩ := bind_eq_ok h
  cases h
  rfl

theorem writesChild_of_openFile {title : List Char}
    (hopen : w.disk.openFile files (Path.below (Path.normal directory)
      (FileName.ofTitle title format.extension.toList)) = .ok place) (bytes : List Nat) :
    WritesChild files (files.withBytes place bytes) directory (FileName.ofTitle title format.extension.toList)
      bytes := by
  obtain ⟨hstep, hup⟩ := FileName.isStep_ofTitle title format
  obtain ⟨parent, hfollow, hentry, rfl⟩ :=
    Files.Tree.child_of_follow hstep hup (Files.Disk.follow_of_openFile hopen)
  rw [Path.steps_normal] at hfollow
  exact ⟨parent, hfollow, hentry, Files.Tree.bytesAt_withBytes files _ bytes⟩

theorem deliver_writes {title : List Char}
    (hpath : out.path = Path.below (Path.normal directory) (FileName.ofTitle title format.extension.toList))
    (h : deliver w a files out = .ok report) :
    (report.exit = .returned 0 ∧ WritesChild files report.files directory
      (FileName.ofTitle title format.extension.toList) (Utf8.encode out.text)) ∨
    (report.exit = .returned 1 ∧ (report.files = files ∨ ∃ room, WritesChild files report.files directory
      (FileName.ofTitle title format.extension.toList) ((Utf8.encode out.text).take room))) := by
  unfold deliver at h
  dsimp only at h
  cases hopen : w.disk.openFile files out.path with
  | error f =>
    rw [hopen] at h
    cases h
    exact Or.inr ⟨rfl, Or.inl rfl⟩
  | ok place =>
    have hopened := hpath ▸ hopen
    rw [hopen] at h
    dsimp only at h
    split at h
    · cases h
    · obtain hfill | ⟨room, refusal, -, -, hfill⟩ :=
        Files.Disk.fill_cases w.disk files place (Utf8.encode out.text)
      · rw [hfill] at h
        cases h
        exact Or.inl ⟨rfl, writesChild_of_openFile hopened _⟩
      · rw [hfill] at h
        cases h
        exact Or.inr ⟨rfl, Or.inr ⟨room, writesChild_of_openFile hopened _⟩⟩

/-- The name for a title is a stem of small letters, digits, underscores and single dashes, which is its own stem, and
the extension of the format. So a drawing is written to a direct child of the output directory with this name, as a
whole or as far as the disk goes, or nothing is written. -/
theorem drawings_are_written_to_children :
    (∀ (title : List Char) (format : Format), ∃ stem,
      FileName.ofTitle title format.extension.toList = stem ++ format.extension.toList ∧ stem ≠ [] ∧
      (∀ c ∈ stem, 'a' ≤ c ∧ c ≤ 'z' ∨ '0' ≤ c ∧ c ≤ '9' ∨ c = '_' ∨ c = '-') ∧ ¬ ['-', '-'] <:+: stem ∧
      FileName.ofTitle stem format.extension.toList = FileName.ofTitle title format.extension.toList) ∧
    ∀ (w : World) (a : Arguments) (g : Graph) (notices : List Notice) (files : Files.Tree) (out : Output)
      (report : Report) (directory : List Char) (format : Format), a.output = .value directory →
      a.format = .value format → compose w a g notices = .ok out → deliver w a files out = .ok report →
      let name := FileName.ofTitle g.title.spelled format.extension.toList
      (report.exit = .returned 0 ∧ WritesChild files report.files directory name (Utf8.encode out.text)) ∨
      (report.exit = .returned 1 ∧ (report.files = files ∨
        ∃ room, WritesChild files report.files directory name ((Utf8.encode out.text).take room))) := by
  constructor
  · intro title format
    have hslug := FileName.isSlug_stem title
    refine ⟨FileName.stem title, FileName.ofTitle_extension title format, FileName.stem_ne_nil title, ?_,
      hslug.no_pair, ?_⟩
    · exact fun c hc => FileName.letters_of_isStemChar (hslug.chars c hc)
    · rw [FileName.ofTitle, FileName.stem_stem, FileName.ofTitle]
  · intro w a g notices files out report directory format houtput hformat hcompose hdeliver
    exact deliver_writes (path_of_compose houtput hformat hcompose) hdeliver

/-- A title that names a path, and a directory to write to. -/
theorem title_with_path_is_written_here :
    let w : World := { layout := { draw := fun _ => .real 0.5 } }
    let a : Arguments := { input := streamPath, output := .value ['o'], format := .value .json }
    let g : Graph := { title := .text "../Etc / Pass--wd" }
    let files : Files.Tree := { directories := [[['o']]] }
    ∃ out report, compose w a g [] = .ok out ∧ deliver w a files out = .ok report ∧
      WritesChild files report.files ['o'] "etc-pass-wd.json".toList (Utf8.encode out.text) := by
  intro w a g files
  obtain ⟨report, hrun, hexit⟩ : Succeeds (compose w a g [] >>= deliver w a files)
      (fun report => decide (report.exit = .returned 0) = true) := .of_any (by decide +kernel)
  obtain ⟨out, hcompose, hdeliver⟩ := bind_eq_ok hrun
  have hname : FileName.ofTitle g.title.spelled Format.json.extension.toList = "etc-pass-wd.json".toList := by
    decide +kernel
  have hwrites := drawings_are_written_to_children.2 w a g [] files out report ['o'] .json rfl rfl hcompose hdeliver
  rcases hwrites with ⟨-, hchild⟩ | ⟨hfails, -⟩
  · exact ⟨out, report, hcompose, hdeliver, hname ▸ hchild⟩
  · cases (of_decide_eq_true hexit).symm.trans hfails

end CommandLine
end NodeLink
