import NodeLink.Files.Tree
import NodeLink.Proofs.Outcome
import NodeLink.Proofs.Text.Parts

/-!
# Places of paths

The plain form of a path has the same steps, and the path of a name below a directory has one step more. So a file
that is opened there lies in the directory itself.
-/

namespace NodeLink

namespace Text.Path

variable {path step name : List Char} {ss : List (List Char)}

/-- A step of its own in a path. -/
structure IsStep (step : List Char) : Prop where
  ne_nil : step ≠ []
  ne_dot : step ≠ ['.']
  no_slash : '/' ∉ step

theorem isStep_of_mem_steps (h : step ∈ steps path) : IsStep step := by
  obtain ⟨hm, hcounts⟩ := List.mem_filter.mp h
  have hcounts : ¬ step = [] ∧ ¬ step = ['.'] := by simpa using hcounts
  refine ⟨hcounts.1, hcounts.2, fun hslash => ?_⟩
  have hnot := splitAtEach_parts hm '/' hslash
  cases hnot

theorem steps_append_slash (before after : List Char) :
    steps (before ++ '/' :: after) = steps before ++ steps after := by
  rw [steps, splitAtEach_append_cons (by decide), List.filter_append]
  rfl

theorem IsStep.steps_eq (h : IsStep step) : steps step = [step] := by
  have hnone : ∀ c ∈ step, isSlash c = false := by
    intro c hc
    rw [isSlash, beq_eq_false_iff_ne]
    rintro rfl
    exact h.no_slash hc
  rw [steps, splitAtEach_of_none hnone]
  simp [h.ne_nil, h.ne_dot]

theorem steps_joinSteps (h : ∀ step ∈ ss, IsStep step) : steps (joinSteps ss) = ss := by
  induction ss with
  | nil => decide
  | cons step more ih =>
    obtain ⟨hstep, hmore⟩ := List.forall_mem_cons.mp h
    cases more with
    | nil => exact hstep.steps_eq
    | cons next more =>
      rw [joinSteps, steps_append_slash, hstep.steps_eq, ih hmore]
      · rfl
      · exact List.cons_ne_nil _ _

theorem steps_rootOf_append (path rest : List Char) : steps (rootOf path ++ rest) = steps rest := by
  have hslash (rest : List Char) : steps ('/' :: rest) = steps rest := by
    have hnone : steps [] = [] := by decide
    have happend := steps_append_slash [] rest
    rwa [hnone] at happend
  unfold rootOf
  split
  · rfl
  · exact (hslash _).trans (hslash rest)
  · exact hslash rest

/-- The plain form of a path leads the same way. -/
theorem steps_normal (path : List Char) : steps (normal path) = steps path := by
  have hplain : steps (rootOf path ++ joinSteps (steps path)) = steps path := by
    rw [steps_rootOf_append, steps_joinSteps fun step h => isStep_of_mem_steps h]
  unfold normal
  dsimp only
  split
  · rename_i hempty
    rw [List.isEmpty_iff.mp hempty] at hplain
    exact hplain
  · exact hplain

theorem steps_below (directory : List Char) (h : IsStep name) :
    steps (below directory name) = steps directory ++ [name] := by
  rw [below, steps_normal, steps_append_slash, h.steps_eq]

end Text.Path

namespace Files.Tree

open Text.Path (steps below IsStep)

variable {t : Tree} {directory name : List Char} {place parent : Place} {ss : List (List Char)}

theorem placeAfter_eq {step : List Char} (hup : step ≠ upStep) (h : placeAfter parent step = .ok place) :
    place = parent ++ [step] := by
  unfold placeAfter at h
  rw [if_neg hup] at h
  split at h
  · cases h
  · exact (Except.ok.inj h).symm

theorem enter_eq_ok {step : List Char} (h : t.enter parent step = .ok place) :
    placeAfter parent step = .ok place ∧ t.entry? place = some .directory := by
  obtain ⟨next, hnext, h⟩ := bind_eq_ok h
  split at h
  · rename_i hentry
    cases h
    exact ⟨hnext, hentry⟩
  · cases h
  · cases h

theorem follow_concat (t : Tree) (ss : List (List Char)) (last : List Char) :
    t.follow (ss ++ [last]) = ss.foldlM t.enter [] >>= fun parent => placeAfter parent last := by
  unfold follow
  rw [List.getLast?_concat, List.dropLast_concat]

theorem follow_of_entered (h : ss.foldlM t.enter [] = .ok parent) :
    t.follow ss = .ok parent ∧ t.entry? parent = some .directory := by
  rcases List.eq_nil_or_concat ss with rfl | ⟨before, last, rfl⟩
  · cases h
    exact ⟨rfl, rfl⟩
  · rw [List.concat_eq_append] at h ⊢
    rw [List.foldlM_append] at h
    obtain ⟨above, habove, h⟩ := bind_eq_ok h
    rw [List.foldlM_cons] at h
    obtain ⟨place, hplace, h⟩ := bind_eq_ok h
    cases h
    obtain ⟨hafter, hentry⟩ := enter_eq_ok hplace
    exact ⟨by rw [follow_concat, habove]; exact hafter, hentry⟩

/-- What a name below a directory leads to is a child of this directory. -/
theorem child_of_follow (hname : IsStep name) (hup : name ≠ upStep)
    (h : t.follow (steps (below directory name)) = .ok place) :
    ∃ parent, t.follow (steps directory) = .ok parent ∧ t.entry? parent = some .directory ∧
      place = parent ++ [name] := by
  rw [Text.Path.steps_below directory hname, follow_concat] at h
  obtain ⟨parent, hparent, h⟩ := bind_eq_ok h
  obtain ⟨hfollow, hentry⟩ := follow_of_entered hparent
  exact ⟨parent, hfollow, hentry, placeAfter_eq hup h⟩

theorem follow_of_openFile {path : List Char} (h : t.openFile path = .ok place) : t.follow (steps path) = .ok place := by
  unfold openFile at h
  split at h
  · cases h
  · rename_i opened hfollow
    split at h
    · cases h
    · cases h
      unfold followPath at hfollow
      split at hfollow
      · cases hfollow
      · exact hfollow

end Files.Tree

theorem Files.Disk.follow_of_openFile {d : Disk} {t : Tree} {path : List Char} {place : Place}
    (h : d.openFile t path = .ok place) : t.follow (Text.Path.steps path) = .ok place := by
  unfold openFile at h
  split at h
  · cases h
  · exact Tree.follow_of_openFile h

end NodeLink
