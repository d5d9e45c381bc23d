import NodeLink.Files.Tree
import NodeLink.Proofs.Outcome

/-!
# Contents of files

A file that is written has its new contents, and every other file keeps those it had. Making directories leaves all
files as they are.
-/

namespace NodeLink.Files

variable {t t' : Tree} {place : Place} {bytes : List Nat} {path : List Char}

namespace Tree

/-- What a file holds, if there is one at a place. -/
def bytesAt (t : Tree) (place : Place) : Option (List Nat) := (t.files.find? fun file => file.1 == place).map (·.2)

theorem find?_file (file : Place × List Nat) (rest : List (Place × List Nat)) (p : Place) :
    (file :: rest).find? (fun file => file.1 == p) =
      if p = file.1 then some file else rest.find? fun file => file.1 == p := by
  by_cases hp : p = file.1
  · rw [if_pos hp]
    exact List.find?_cons_of_pos (beq_iff_eq.mpr hp.symm)
  · rw [if_neg hp]
    exact List.find?_cons_of_neg fun h => hp (beq_iff_eq.mp h).symm

theorem find?_put (files : List (Place × List Nat)) (p : Place) :
    (put place bytes files).find? (fun file => file.1 == p) =
      if p = place then some (place, bytes) else files.find? fun file => file.1 == p := by
  induction files with
  | nil => exact find?_file (place, bytes) [] p
  | cons file rest ih =>
    rw [put, find?_file]
    by_cases hfile : file.1 = place
    · rw [if_pos hfile, find?_file, hfile]
      by_cases hp : p = place
      · rw [if_pos hp, if_pos hp]
      · rw [if_neg hp, if_neg hp, if_neg hp]
    · rw [if_neg hfile, find?_file, ih]
      by_cases hp : p = file.1
      · rw [if_pos hp, if_neg fun h => hfile (hp.symm.trans h), if_pos hp]
      · rw [if_neg hp, if_neg hp]

theorem bytesAt_withBytes (t : Tree) (place : Place) (bytes : List Nat) (p : Place) :
    (t.withBytes place bytes).bytesAt p = if p = place then some bytes else t.bytesAt p := by
  rw [bytesAt, withBytes, find?_put]
  split
  · rfl
  · rfl

theorem files_makeOne (h : t.makeOne path = .ok t') : t'.files = t.files := by
  obtain ⟨place, -, h⟩ := bind_eq_ok h
  split at h
  · cases h
  · cases h
    rfl

theorem files_makeOrKeep (h : t.makeOrKeep path = .ok t') : t'.files = t.files := by
  unfold makeOrKeep at h
  split at h
  · rename_i made hmade
    cases h
    exact files_makeOne hmade
  · split at h
    · split at h
      · cases h
        rfl
      · cases h
    · cases h

theorem files_makeFrom {root : List Char} {steps : List (List Char)} (h : makeFrom root steps t = .ok t') :
    t'.files = t.files := by
  induction steps generalizing t t' with
  | nil =>
    cases h
    rfl
  | cons last before ih =>
    unfold makeFrom at h
    dsimp only at h
    split at h
    · obtain ⟨mid, hmid, h⟩ := bind_eq_ok h
      exact (files_makeOrKeep h).trans (ih hmid)
    · exact files_makeOrKeep h

end Tree

namespace Disk

variable {d : Disk}

theorem bytesAt_makeDirectory (h : d.makeDirectory t path = .ok t') (p : Place) : t'.bytesAt p = t.bytesAt p := by
  unfold makeDirectory at h
  split at h
  · cases h
  · exact congrArg (fun files => (files.find? fun file => file.1 == p).map (·.2)) (Tree.files_makeFrom h)

theorem fill_cases (d : Disk) (t : Tree) (place : Place) (bytes : List Nat) :
    d.fill t place bytes = (t.withBytes place bytes, none) ∨
      ∃ room refusal, d.breaks = some (room, refusal) ∧ room < bytes.length ∧
        d.fill t place bytes = (t.withBytes place (bytes.take room), some refusal) := by
  unfold fill
  cases hbreaks : d.breaks with
  | none => exact Or.inl rfl
  | some broken =>
    obtain ⟨room, refusal⟩ := broken
    by_cases hroom : room < bytes.length
    · exact Or.inr ⟨room, refusal, rfl, hroom, if_pos hroom⟩
    · exact Or.inl (if_neg hroom)

end Disk
end NodeLink.Files
