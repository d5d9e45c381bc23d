/-!
# Heaps

An array in which no item is before the one at half its place. The item at the top is before none other,
and taking it out puts the last one in its place. Items of which neither is before the other keep no order
of their own: it comes from the places they were moved through. Putting in and taking out lose nothing.
-/

namespace NodeLink.Heap

variable {α : Type} (before : α → α → Bool)

/-- Lets the item at a place rise as long as it is before the one above it, at most to the place `top`. -/
def rise (top : Nat) (heap : Array α) (place : Nat) : Array α :=
  if h : top < place ∧ place < heap.size then
    let above := (place - 1) / 2
    if before heap[place] heap[above] then rise top (heap.swap place above) above else heap
  else heap
termination_by place

/-- The place below the given one that its item sinks to: the left one if that is before the right one. -/
def below (heap : Array α) (place : Nat) (h : 2 * place + 1 < heap.size) : Nat :=
  if h' : 2 * place + 2 < heap.size then
    if before heap[2 * place + 1] heap[2 * place + 2] then 2 * place + 1 else 2 * place + 2
  else 2 * place + 1

theorem below_lt (heap : Array α) (place : Nat) (h : 2 * place + 1 < heap.size) :
    below before heap place h < heap.size := by
  unfold below
  split
  · split <;> omega
  · exact h

theorem lt_below (heap : Array α) (place : Nat) (h : 2 * place + 1 < heap.size) :
    place < below before heap place h := by
  unfold below
  split
  · split <;> omega
  · omega

/-- Lets the item at a place sink to where nothing is below it, and says where that is. -/
def sink (heap : Array α) (place : Nat) : Array α × Nat :=
  if h : 2 * place + 1 < heap.size then
    sink (heap.swap place (below before heap place h) (by omega) (below_lt before heap place h))
      (below before heap place h)
  else (heap, place)
termination_by heap.size - place
decreasing_by
  have := lt_below before heap place h
  have := below_lt before heap place h
  simp only [Array.size_swap]
  omega

/-- Puts the item at a place where it belongs at or below that place. -/
def arrange (heap : Array α) (place : Nat) : Array α :=
  let (heap, low) := sink before heap place
  rise before place heap low

def push (heap : Array α) (item : α) : Array α := rise before 0 (heap.push item) heap.size

/-- Takes the item at the top out. -/
def pop? (heap : Array α) : Option (α × Array α) :=
  if h : 0 < heap.size then
    let turned := heap.swap 0 (heap.size - 1)
    some (turned.back (by simp [turned]; exact h), arrange before turned.pop 0)
  else none

/-- The heap of the items of an array. -/
def ofArray (items : Array α) : Array α :=
  (List.range (items.size / 2)).reverse.foldl (arrange before) items

theorem rise_perm (top : Nat) (heap : Array α) (place : Nat) : (rise before top heap place).Perm heap := by
  fun_induction rise before top heap place with
  | case1 heap place h above hb ih => exact ih.trans (Array.swap_perm _ _)
  | case2 => exact .refl _
  | case3 => exact .refl _

theorem sink_perm (heap : Array α) (place : Nat) : (sink before heap place).1.Perm heap := by
  fun_induction sink before heap place with
  | case1 heap place h ih => exact ih.trans (Array.swap_perm _ _)
  | case2 => exact .refl _

theorem arrange_perm (heap : Array α) (place : Nat) : (arrange before heap place).Perm heap :=
  (rise_perm before _ _ _).trans (sink_perm before heap place)

theorem push_perm (heap : Array α) (item : α) : (push before heap item).Perm (heap.push item) :=
  rise_perm before _ _ _

theorem ofArray_perm (items : Array α) : (ofArray before items).Perm items := by
  unfold ofArray
  generalize (List.range (items.size / 2)).reverse = places
  induction places generalizing items with
  | nil => exact .refl _
  | cons place places ih => exact (ih _).trans (arrange_perm before items place)

theorem push_pop_back (heap : Array α) (h : 0 < heap.size) : heap.pop.push (heap.back h) = heap := by
  apply Array.ext'
  have hne : heap.toList ≠ [] := by
    intro e
    rw [← Array.length_toList, e] at h
    exact absurd h (Nat.lt_irrefl 0)
  have hlast : heap.back h = heap.toList.getLast hne := (Array.getLast_toList heap hne).symm
  rw [Array.toList_push, Array.toList_pop, hlast]
  exact List.dropLast_concat_getLast hne

/-- What is taken out and what is left are what there was. -/
theorem pop?_perm {heap rest : Array α} {item : α} (h : pop? before heap = some (item, rest)) :
    (rest.push item).Perm heap := by
  unfold pop? at h
  split at h
  · rename_i hs
    simp only [Option.some.injEq, Prod.mk.injEq] at h
    obtain ⟨rfl, rfl⟩ := h
    refine (Array.Perm.push _ (arrange_perm before _ 0)).trans ?_
    rw [push_pop_back]
    exact Array.swap_perm _ _
  · simp at h

end NodeLink.Heap
