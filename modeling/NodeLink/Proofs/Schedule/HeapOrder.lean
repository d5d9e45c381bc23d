import NodeLink.Schedule.Heap

/-!
# The order of heaps

The item at the top of a heap is before every other, or no other is before it. Letting items rise and sink
puts a heap in order that is so except at one place.
-/

namespace NodeLink.Heap

/-- What an order by which heaps are kept has to be: items of which none is before the other count as equal. -/
structure Orders {α : Type} (before : α → α → Bool) : Prop where
  asymm : ∀ {a b}, before a b = true → before b a = false
  trans : ∀ {a b c}, before a b = false → before b c = false → before a c = false

section

variable {α : Type} (before : α → α → Bool)

/-- The item at one place is not before the one at another, if both places are taken. -/
def Fits (heap : Array α) (low high : Nat) : Prop :=
  ∀ a b, heap[low]? = some a → heap[high]? = some b → before a b = false

/-- No item below the place `top` or further on is before the one above it. -/
def InOrder (top : Nat) (heap : Array α) : Prop :=
  ∀ i, 0 < i → top ≤ (i - 1) / 2 → Fits before heap i ((i - 1) / 2)

/-- The heap is in order except at a hole. What is below the hole fits to what is above it. -/
structure InOrderBut (top hole : Nat) (heap : Array α) : Prop where
  others : ∀ i, 0 < i → top ≤ (i - 1) / 2 → i ≠ hole → (i - 1) / 2 ≠ hole → Fits before heap i ((i - 1) / 2)
  across : ∀ i, 0 < i → 0 < hole → top ≤ (hole - 1) / 2 → (i - 1) / 2 = hole →
    Fits before heap i ((hole - 1) / 2)

end

/-- A place is reached from `top` by going down. -/
inductive Under (top : Nat) : Nat → Prop
  | here : Under top top
  | down {i : Nat} : 0 < i → Under top ((i - 1) / 2) → Under top i

theorem under_zero (i : Nat) : Under 0 i := by
  induction i using Nat.strongRecOn with
  | ind i ih =>
    by_cases h : i = 0
    · exact h ▸ .here
    · exact .down (by omega) (ih _ (by omega))

theorem Under.le {top i : Nat} (h : Under top i) : top ≤ i := by
  induction h with
  | here => exact Nat.le_refl _
  | down => omega

theorem Under.up {top i : Nat} (h : Under top i) (ht : top < i) : Under top ((i - 1) / 2) := by
  cases h with
  | here => omega
  | down _ h => exact h

variable {α : Type} {before : α → α → Bool}

theorem Orders.irrefl (o : Orders before) (a : α) : before a a = false := by
  cases h : before a a with
  | false => rfl
  | true => rw [← h, o.asymm h]

theorem Fits.refl (o : Orders before) (heap : Array α) (i : Nat) : Fits before heap i i := by
  intro a b ha hb
  rw [Option.some.inj (ha.symm.trans hb)]
  exact o.irrefl b

theorem Fits.of_eq {heap heap' : Array α} {i j i' j' : Nat} (h : Fits before heap i' j')
    (hi : heap'[i]? = heap[i']?) (hj : heap'[j]? = heap[j']?) : Fits before heap' i j := by
  intro a b ha hb
  rw [hi] at ha
  rw [hj] at hb
  exact h a b ha hb

theorem Fits.trans {heap : Array α} {i j k : Nat} (o : Orders before) (h : Fits before heap i j)
    (h' : Fits before heap j k) (hj : j < heap.size) : Fits before heap i k := by
  intro a c ha hc
  have hb : heap[j]? = some heap[j] := Array.getElem?_eq_getElem hj
  exact o.trans (h a _ ha hb) (h' _ c hb hc)

theorem fits_of_before {heap : Array α} {i j : Nat} (o : Orders before) (hi : i < heap.size)
    (hj : j < heap.size) (h : before heap[i] heap[j] = true) : Fits before heap j i := by
  intro b a hb ha
  rw [Array.getElem?_eq_getElem hj] at hb
  rw [Array.getElem?_eq_getElem hi] at ha
  cases hb
  cases ha
  exact o.asymm h

theorem fits_of_not_before {heap : Array α} {i j : Nat} (hi : i < heap.size) (hj : j < heap.size)
    (h : ¬before heap[i] heap[j] = true) : Fits before heap i j := by
  intro a b ha hb
  rw [Array.getElem?_eq_getElem hi] at ha
  rw [Array.getElem?_eq_getElem hj] at hb
  cases ha
  cases hb
  exact Bool.eq_false_iff.mpr h

theorem fits_of_size_le {heap : Array α} {i j : Nat} (h : heap.size ≤ i) : Fits before heap i j := by
  intro a b ha
  rw [Array.getElem?_eq_none h] at ha
  cases ha

theorem swap_left {heap : Array α} {i j : Nat} (hi : i < heap.size) (hj : j < heap.size) :
    (heap.swap i j hi hj)[i]? = heap[j]? := by
  rw [Array.getElem?_swap, Array.getElem?_eq_getElem hj]
  split
  · rename_i h
    subst h
    rfl
  · rw [if_pos rfl]

theorem swap_right {heap : Array α} {i j : Nat} (hi : i < heap.size) (hj : j < heap.size) :
    (heap.swap i j hi hj)[j]? = heap[i]? := by
  rw [Array.getElem?_swap, if_pos rfl, Array.getElem?_eq_getElem hi]

theorem swap_other {heap : Array α} {i j k : Nat} (hi : i < heap.size) (hj : j < heap.size) (h : k ≠ i)
    (h' : k ≠ j) : (heap.swap i j hi hj)[k]? = heap[k]? := by
  rw [Array.getElem?_swap, if_neg (Ne.symm h'), if_neg (Ne.symm h)]

/-! ### Sinking -/

variable (before) in
theorem above_below (heap : Array α) (place : Nat) (h : 2 * place + 1 < heap.size) :
    (below before heap place h - 1) / 2 = place := by
  unfold below
  split
  · split <;> omega
  · omega

/-- No item right below a place is before the one that the item there sinks to. -/
theorem fits_below {heap : Array α} {place i : Nat} (o : Orders before) (h : 2 * place + 1 < heap.size)
    (hi : 0 < i) (hp : (i - 1) / 2 = place) : Fits before heap i (below before heap place h) := by
  obtain rfl | rfl : i = 2 * place + 1 ∨ i = 2 * place + 2 := by omega
  · unfold below
    split
    · split
      · exact .refl o heap _
      · rename_i hright hb
        exact fits_of_not_before h hright hb
    · exact .refl o heap _
  · unfold below
    split
    · rename_i hright
      split
      · rename_i hb
        exact fits_of_before o h hright hb
      · exact .refl o heap _
    · rename_i hright
      exact fits_of_size_le (by omega)

theorem InOrderBut.sink {top place low : Nat} {heap : Array α} (hu : Under top place)
    (h : InOrderBut before top place heap) (hplace : place < heap.size) (hlow : low < heap.size)
    (hgt : place < low) (hup : (low - 1) / 2 = place)
    (hmin : ∀ i, 0 < i → (i - 1) / 2 = place → Fits before heap i low) :
    InOrderBut before top low (heap.swap place low) := by
  have hl := swap_left hplace hlow
  have hle := hu.le
  constructor
  · intro i hi ht hne hni
    by_cases hip : i = place
    · -- what rose to the hole stands below what was above the hole
      subst hip
      exact (h.across low (by omega) hi ht hup).of_eq hl (swap_other _ _ (by omega) (by omega))
    · have hi' := swap_other hplace hlow hip hne
      by_cases hpp : (i - 1) / 2 = place
      · rw [hpp]
        exact (hmin i hi hpp).of_eq hi' hl
      · exact (h.others i hi ht hip hpp).of_eq hi' (swap_other _ _ hpp hni)
  · intro i hi _ _ hni
    rw [hup]
    have hbelow := h.others i hi (by omega) (by omega) (by omega)
    rw [hni] at hbelow
    exact hbelow.of_eq (swap_other _ _ (by omega) (by omega)) hl

theorem inOrderBut_sink {top place : Nat} {heap : Array α} (o : Orders before) (hu : Under top place)
    (h : InOrderBut before top place heap) :
    InOrderBut before top (sink before heap place).2 (sink before heap place).1 ∧
      Under top (sink before heap place).2 ∧
      (sink before heap place).1.size ≤ 2 * (sink before heap place).2 + 1 := by
  fun_induction sink before heap place with
  | case1 heap place hs ih =>
    have hgt := lt_below before heap place hs
    have hup := above_below before heap place hs
    refine ih (.down (by omega) (hup.symm ▸ hu)) ?_
    exact h.sink hu (by omega) (below_lt before heap place hs) hgt hup fun i hi hp => fits_below o hs hi hp
  | case2 heap place hs => exact ⟨h, hu, by dsimp only; omega⟩

/-! ### Rising -/

theorem InOrderBut.rise {top place high : Nat} {heap : Array α} (o : Orders before)
    (h : InOrderBut before top place heap) (hplace : place < heap.size) (hhigh : (place - 1) / 2 = high)
    (ht : top ≤ high) (hpos : 0 < place) (hlt : high < heap.size) :
    InOrderBut before top high (heap.swap place high) := by
  have hl := swap_left hplace hlt
  have hne : high ≠ place := by omega
  constructor
  · intro i hi hti hih hni
    by_cases hip : i = place
    · exact absurd (hip ▸ hhigh) hni
    · have hi' := swap_other hplace hlt hip hih
      by_cases hpp : (i - 1) / 2 = place
      · -- what sank to the place stands above what was below it
        rw [hpp]
        exact (h.across i hi hpos (hhigh ▸ ht) hpp).of_eq hi' (hhigh.symm ▸ hl)
      · exact (h.others i hi hti hip hpp).of_eq hi' (swap_other _ _ hpp hni)
  · intro i hi h0 htop hni
    have hup : Fits before heap high ((high - 1) / 2) := h.others high h0 htop hne (by omega)
    have hg := swap_other (k := (high - 1) / 2) hplace hlt (by omega) (by omega)
    by_cases hip : i = place
    · subst hip
      exact hup.of_eq hl hg
    · have hsib := h.others i hi (hni.symm ▸ ht) hip (hni.symm ▸ hne)
      rw [hni] at hsib
      exact (hsib.trans o hup hlt).of_eq (swap_other _ _ hip (by omega)) hg

theorem inOrder_rise {top place : Nat} {heap : Array α} (o : Orders before) (hu : Under top place)
    (h : InOrderBut before top place heap)
    (hbelow : ∀ i, 0 < i → (i - 1) / 2 = place → Fits before heap i place) :
    InOrder before top (rise before top heap place) := by
  fun_induction rise before top heap place with
  | case1 heap place hs high hb ih =>
    obtain ⟨ht, hplace⟩ := hs
    have hhigh : high < heap.size := by omega
    have hup := hu.up ht
    -- Below the new place stand the one that was above and its other child, both behind it.
    refine ih hup (h.rise o hplace rfl hup.le (by omega) hhigh) fun i hi hni => ?_
    have hr := swap_right hplace hhigh
    have hfits := fits_of_before o hplace hhigh hb
    by_cases hip : i = place
    · subst hip
      exact hfits.of_eq (swap_left hplace hhigh) hr
    · have hsib := h.others i hi (hni.symm ▸ hup.le) hip (by omega)
      rw [hni] at hsib
      exact (hsib.trans o hfits hhigh).of_eq (swap_other _ _ hip (by omega)) hr
  | case2 heap place hs high hb =>
    have hhigh : high < heap.size := by omega
    intro i hi ht
    by_cases hip : i = place
    · subst hip
      exact fits_of_not_before hs.2 hhigh hb
    · by_cases hpp : (i - 1) / 2 = place
      · rw [hpp]
        exact hbelow i hi hpp
      · exact h.others i hi ht hip hpp
  | case3 heap place hs =>
    intro i hi ht
    have hle := hu.le
    by_cases hip : i = place
    · exact fits_of_size_le (by omega)
    · by_cases hpp : (i - 1) / 2 = place
      · rw [hpp]
        exact hbelow i hi hpp
      · exact h.others i hi ht hip hpp

/-! ### Heaps in order -/

theorem inOrder_arrange {place : Nat} {heap : Array α} (o : Orders before)
    (h : InOrder before (place + 1) heap) : InOrder before place (arrange before heap place) := by
  have hbut : InOrderBut before place place heap := by
    constructor
    · intro i hi ht _ hne
      exact h i hi (by omega)
    · intro i _ _ ht
      omega
  obtain ⟨hsunk, hu, hleaf⟩ := inOrderBut_sink o .here hbut
  exact inOrder_rise o hu hsunk fun i hi hp => fits_of_size_le (by omega)

theorem inOrder_push {heap : Array α} (o : Orders before) (h : InOrder before 0 heap) (item : α) :
    InOrder before 0 (push before heap item) := by
  have hother {i : Nat} (hi : i < heap.size) : (heap.push item)[i]? = heap[i]? := by
    rw [Array.getElem?_push, if_neg (by omega)]
  refine inOrder_rise o (under_zero _) ⟨?_, ?_⟩ ?_
  · intro i hi ht hne _
    by_cases hs : i < heap.size
    · exact (h i hi ht).of_eq (hother hs) (hother (by omega))
    · exact fits_of_size_le (by simp; omega)
  · intro i _ _ _ hp
    exact fits_of_size_le (by simp; omega)
  · intro i _ hp
    exact fits_of_size_le (by simp; omega)

theorem inOrder_ofArray (o : Orders before) (items : Array α) : InOrder before 0 (ofArray before items) := by
  have hall (count : Nat) (heap : Array α) (h : InOrder before count heap) :
      InOrder before 0 ((List.range count).reverse.foldl (arrange before) heap) := by
    induction count generalizing heap with
    | zero => exact h
    | succ count ih =>
      rw [List.range_succ, List.reverse_append, List.reverse_singleton, List.singleton_append, List.foldl_cons]
      exact ih _ (inOrder_arrange o h)
  refine hall _ items fun i hi ht => fits_of_size_le ?_
  omega

theorem inOrder_pop? {heap rest : Array α} {item : α} (o : Orders before) (h : InOrder before 0 heap)
    (hp : pop? before heap = some (item, rest)) : InOrder before 0 rest := by
  unfold pop? at hp
  split at hp
  · rename_i hs
    cases hp
    refine inOrder_arrange o fun i hi ht => ?_
    by_cases hlast : i < heap.size - 1
    · have hkept {j : Nat} (hj : 0 < j) (hjs : j < heap.size - 1) :
          (heap.swap 0 (heap.size - 1)).pop[j]? = heap[j]? := by
        rw [Array.getElem?_pop, Array.size_swap, if_pos hjs, swap_other hs _ (by omega) (by omega)]
      exact (h i hi (by omega)).of_eq (hkept hi hlast) (hkept (by omega) (by omega))
    · exact fits_of_size_le (by simp; omega)
  · cases hp

theorem fits_top {heap : Array α} (o : Orders before) (h : InOrder before 0 heap) (i : Nat) :
    Fits before heap i 0 := by
  induction i using Nat.strongRecOn with
  | ind i ih =>
    by_cases hi : i = 0
    · exact hi ▸ .refl o heap 0
    · by_cases hs : i < heap.size
      · exact (h i (by omega) (by omega)).trans o (ih _ (by omega)) (by omega)
      · exact fits_of_size_le (by omega)

/-- What is taken out of a heap is before what is left, or nothing that is left is before it. -/
theorem least_pop? {heap rest : Array α} {item : α} (o : Orders before) (h : InOrder before 0 heap)
    (hp : pop? before heap = some (item, rest)) : ∀ other ∈ heap, before other item = false := by
  intro other hother
  obtain ⟨i, hi, rfl⟩ := Array.mem_iff_getElem.mp hother
  unfold pop? at hp
  split at hp
  · rename_i hs
    cases hp
    refine fits_top o h i _ _ (Array.getElem?_eq_getElem hi) ?_
    have hlast : heap.size - 1 < heap.size := Nat.sub_lt hs Nat.one_pos
    rw [← swap_right hs hlast, Array.back_eq_getElem, Array.getElem?_eq_getElem (by simpa using hlast)]
    simp only [Array.size_swap]
  · cases hp

end NodeLink.Heap
