import NodeLink.Icon.Source
import NodeLink.Proofs.Outcome
import Mathlib.Data.List.Perm.Lattice

/-!
# Fetches that come back in any order

While icons are loaded side by side, all that there is follows from which fetches have come back, and in which
order. What is gathered in the end does not depend on the order any more, but for the order of the notices.
-/

namespace NodeLink.Icon

variable {w : World} {uri : Json} {unique : List Json} {done order : List Nat} {place : Nat} {fault : Fault}
  {outcome : Except Notice (Json × Symbol)}

/-- The entry that an address gets, if its icon can be loaded. -/
def entryFor? (w : World) (uri : Json) : Option (Json × Symbol) := (load w uri).toOption.bind symbolOf?

/-- The notice about an address, if its icon is missing. -/
def noticeFor? (w : World) (uri : Json) : Option Notice := (load w uri).toOption.bind noticeOf?

/-- The addresses in some of the places. -/
def addressesAt (unique : List Json) (places : List Nat) : List Json := places.filterMap (unique[·]?)

/-- The icon of the address in a place is loaded or missing. -/
def Ends (w : World) (unique : List Json) (place : Nat) : Prop :=
  ∃ uri outcome, unique[place]? = some uri ∧ load w uri = .ok outcome

namespace Loading

/-- How things stand after the fetches in some places have come back. -/
def standing (w : World) (unique : List Json) (done : List Nat) : Loading where
  slots := unique.mapIdx fun i uri => (uri, if i ∈ done then (load w uri).toOption else none)
  fetched := addressesAt unique done
  notices := (addressesAt unique done).filterMap (noticeFor? w)

theorem standing_nil (w : World) (unique : List Json) : standing w unique [] = start unique := by
  have hslots : unique.mapIdx (fun i uri => (uri, if i ∈ [] then (load w uri).toOption else none)) =
      unique.map fun uri => (uri, none) := by
    apply List.ext_getElem?
    intro i
    simp
  rw [standing, hslots]
  rfl

theorem addressesAt_concat (huri : unique[place]? = some uri) :
    addressesAt unique (done ++ [place]) = addressesAt unique done ++ [uri] := by
  rw [addressesAt, List.filterMap_append, List.filterMap_cons_some huri]
  rfl

theorem slots_set (huri : unique[place]? = some uri) (hload : load w uri = .ok outcome) :
    (standing w unique done).slots.set place (uri, some outcome) = (standing w unique (done ++ [place])).slots := by
  apply List.ext_getElem?
  intro i
  simp only [standing, List.getElem?_set, List.getElem?_mapIdx, List.length_mapIdx, List.mem_append,
    List.mem_singleton]
  by_cases hi : place = i
  · subst hi
    have hplace : place < unique.length := (List.getElem?_eq_some_iff.mp huri).1
    rw [if_pos rfl, if_pos hplace, huri]
    simp [hload, Except.toOption]
  · have hother : ¬ i = place := fun h => hi h.symm
    simp [hi, hother]

/-- A fetch that comes back is added to those that are back. -/
theorem comeBack_fresh (huri : unique[place]? = some uri) (hfresh : place ∉ done) :
    comeBack w (standing w unique done) place = (load w uri).map fun _ => standing w unique (done ++ [place]) := by
  have hslot : (standing w unique done).slots[place]? = some (uri, none) := by
    simp [standing, List.getElem?_mapIdx, huri, hfresh]
  unfold comeBack
  rw [hslot]
  cases hload : load w uri with
  | error fault => simp only [hload]; rfl
  | ok outcome =>
    have hnotice : [uri].filterMap (noticeFor? w) = (noticeOf? outcome).toList := by
      cases houtcome : noticeOf? outcome <;> simp [noticeFor?, hload, Except.toOption, houtcome]
    have hnotices : (addressesAt unique (done ++ [place])).filterMap (noticeFor? w) =
        (addressesAt unique done).filterMap (noticeFor? w) ++ (noticeOf? outcome).toList := by
      rw [addressesAt_concat huri, List.filterMap_append, hnotice]
    simp only [hload]
    change Except.ok (⟨_, _, _⟩ : Loading) = .ok ⟨_, _, _⟩
    rw [slots_set huri hload, hnotices, addressesAt_concat huri]
    rfl

/-- A fetch that is back already, or none at all, changes nothing. -/
theorem comeBack_done (hdone : place ∈ done ∧ Ends w unique place ∨ unique[place]? = none) :
    comeBack w (standing w unique done) place = .ok (standing w unique done) := by
  unfold comeBack
  rcases hdone with ⟨hplace, uri, outcome, huri, hload⟩ | hnone
  · have hslot : (standing w unique done).slots[place]? = some (uri, some outcome) := by
      simp [standing, List.getElem?_mapIdx, huri, hplace, hload, Except.toOption]
    rw [hslot]
  · have hslot : (standing w unique done).slots[place]? = none := by
      simp [standing, List.getElem?_mapIdx, hnone]
    rw [hslot]

/-- Of the fetches that are to come back, each has come back once. -/
structure Back (w : World) (unique : List Json) (done order done' : List Nat) : Prop where
  nodup : done'.Nodup
  ends : ∀ i ∈ done', Ends w unique i
  all : ∀ i < unique.length, i ∈ done ∨ i ∈ order → i ∈ done'

theorem Back.skip {done' : List Nat} (h : Back w unique done order done')
    (hplace : place < unique.length → place ∈ done) : Back w unique done (place :: order) done' := by
  refine ⟨h.nodup, h.ends, fun i hi hmem => h.all i hi ?_⟩
  rcases hmem with hmem | hmem
  · exact Or.inl hmem
  · rcases List.mem_cons.mp hmem with rfl | hmem
    · exact Or.inl (hplace hi)
    · exact Or.inr hmem

theorem Back.step {done' : List Nat} (h : Back w unique (done ++ [place]) order done') :
    Back w unique done (place :: order) done' := by
  refine ⟨h.nodup, h.ends, fun i hi hmem => h.all i hi ?_⟩
  grind

/-- Fetches come back one after the other, up to one whose address has another fault than that its icon is missing. -/
theorem foldlM_comeBack (order : List Nat) (hdone : done.Nodup) (hends : ∀ i ∈ done, Ends w unique i) :
    (∃ done', order.foldlM (comeBack w) (standing w unique done) = .ok (standing w unique done') ∧
        Back w unique done order done') ∨
      ∃ uri ∈ unique, ∃ fault, order.foldlM (comeBack w) (standing w unique done) = .error fault ∧
        load w uri = .error fault := by
  -- over the order of coming back, with what is back so far
  induction order generalizing done with
  | nil => exact Or.inl ⟨done, rfl, hdone, hends, fun i _ h => h.resolve_right List.not_mem_nil⟩
  | cons place order ih =>
    rw [List.foldlM_cons]
    by_cases hback : place ∈ done
    · rw [comeBack_done (Or.inl ⟨hback, hends place hback⟩)]
      rcases ih hdone hends with ⟨done', hrun, hall⟩ | hfault
      · exact Or.inl ⟨done', hrun, hall.skip fun _ => hback⟩
      · exact Or.inr hfault
    · cases huri : unique[place]? with
      | none =>
        rw [comeBack_done (Or.inr huri)]
        have hbeyond : ¬ place < unique.length := Nat.not_lt.mpr (List.getElem?_eq_none_iff.mp huri)
        rcases ih hdone hends with ⟨done', hrun, hall⟩ | hfault
        · exact Or.inl ⟨done', hrun, hall.skip fun hlt => absurd hlt hbeyond⟩
        · exact Or.inr hfault
      | some uri =>
        rw [comeBack_fresh huri hback]
        cases hload : load w uri with
        | error fault => exact Or.inr ⟨uri, List.mem_of_getElem? huri, fault, rfl, hload⟩
        | ok outcome =>
          have hdone' : (done ++ [place]).Nodup := by
            refine List.nodup_append.mpr ⟨hdone, List.nodup_singleton place, ?_⟩
            grind
          have hends' : ∀ i ∈ done ++ [place], Ends w unique i := by
            intro i hi
            rcases List.mem_append.mp hi with hi | hi
            · exact hends i hi
            · rw [List.mem_singleton.mp hi]
              exact ⟨uri, outcome, huri, hload⟩
          rcases ih hdone' hends' with ⟨done', hrun, hall⟩ | hfault
          · exact Or.inl ⟨done', hrun, hall.step⟩
          · exact Or.inr hfault

theorem addressesAt_range (unique : List Json) : addressesAt unique (List.range unique.length) = unique := by
  induction unique with
  | nil => rfl
  | cons uri rest ih =>
    rw [addressesAt, List.length_cons, List.range_succ_eq_map, List.filterMap_cons_some List.getElem?_cons_zero,
      List.filterMap_map]
    exact congrArg (uri :: ·) ih

theorem gathered_standing (hall : ∀ i < unique.length, i ∈ done) :
    (standing w unique done).gathered =
      { symbols := unique.filterMap (entryFor? w), notices := (addressesAt unique done).filterMap (noticeFor? w)
        fetched := addressesAt unique done } := by
  have hslots : (standing w unique done).slots = unique.map fun uri => (uri, (load w uri).toOption) := by
    apply List.ext_getElem?
    intro i
    rw [List.getElem?_map, standing, List.getElem?_mapIdx]
    by_cases hi : i < unique.length
    · simp [hall i hi]
    · simp [List.getElem?_eq_none (Nat.le_of_not_lt hi)]
  rw [gathered, hslots, List.filterMap_map]
  rfl

end Loading

open Loading

/-- Fetches that come back in any order: each of them once, or up to one that has another fault than that its icon is
missing. -/
theorem loadInOrder_cases {uris : List Json} {order : Nat → List Nat} (hunique : distinct uris = .ok unique)
    (horder : ∀ i < unique.length, i ∈ order unique.length) :
    (∃ fetched, fetched.Perm unique ∧ (∀ uri ∈ unique, ∃ outcome, load w uri = .ok outcome) ∧
        loadInOrder order w uris = .ok { symbols := unique.filterMap (entryFor? w)
                                         notices := fetched.filterMap (noticeFor? w), fetched }) ∨
      ∃ uri ∈ unique, ∃ fault, loadInOrder order w uris = .error fault ∧ load w uri = .error fault := by
  unfold loadInOrder
  rw [hunique]
  simp only [bind, Except.bind]
  rw [← standing_nil w unique]
  rcases foldlM_comeBack (w := w) (order unique.length) List.nodup_nil (by simp) with ⟨done, hrun, hback⟩ | hfault
  · have hall : ∀ i < unique.length, i ∈ done := fun i hi => hback.all i hi (Or.inr (horder i hi))
    have hplaces : ∀ i ∈ done, i < unique.length := by
      intro i hi
      obtain ⟨uri, outcome, huri, -⟩ := hback.ends i hi
      exact (List.getElem?_eq_some_iff.mp huri).1
    have hperm : done.Perm (List.range unique.length) := by
      refine (List.perm_ext_iff_of_nodup hback.nodup List.nodup_range).mpr fun i => ?_
      exact ⟨fun hi => List.mem_range.mpr (hplaces i hi), fun hi => hall i (List.mem_range.mp hi)⟩
    refine Or.inl ⟨addressesAt unique done, ?_, ?_, ?_⟩
    · exact (hperm.filterMap _).trans (.of_eq (addressesAt_range unique))
    · intro uri huri
      obtain ⟨i, hi, rfl⟩ := List.mem_iff_getElem.mp huri
      obtain ⟨uri, outcome, hsame, hload⟩ := hback.ends i (hall i hi)
      rw [List.getElem?_eq_getElem hi] at hsame
      exact ⟨outcome, Option.some.inj hsame ▸ hload⟩
    · rw [hrun]
      exact congrArg Except.ok (gathered_standing hall)
  · obtain ⟨uri, huri, fault, hrun, hload⟩ := hfault
    exact Or.inr ⟨uri, huri, fault, by rw [hrun], hload⟩

end NodeLink.Icon
