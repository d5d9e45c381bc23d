import NodeLink.Proofs.Outcome
import NodeLink.Proofs.Text.Digits
import NodeLink.Source.Declaration

/-!
# What single lines declare

A line is read by the first rule that takes it. What it declares is proper: a title that is declared is not
empty, and numbers have no more digits than may be read.
-/

namespace NodeLink.Source

open NodeLink.Text

/-- What a declaration may hold. -/
def Declaration.Proper : Declaration → Prop
  | .title given => given ≠ some ""
  | .node d => d.size < 10 ^ digitLimit
  | .edge d => d.weight < 10 ^ digitLimit

theorem nonEmpty?_ne (cs : List Char) : nonEmpty? cs ≠ some "" := by
  unfold nonEmpty?
  split
  · exact nofun
  · rename_i h
    intro he
    have := congrArg String.toList (Option.some.inj he)
    simp_all

theorem matchTitle_proper {line : List Char} {d : Declaration} (h : matchTitle line = some d) :
    d.Proper := by
  obtain ⟨rest, -, rfl⟩ := Option.map_eq_some_iff.mp h
  exact nonEmpty?_ne _

theorem sizeOf_lt {token : List Char} {n : Nat} (h : sizeOf token = .ok (some n)) :
    n < 10 ^ digitLimit := by
  unfold sizeOf at h
  split at h
  rename_i neg rest _
  dsimp only at h
  split at h
  · cases h
  · split at h
    · cases h
    · rename_i m hm
      split at h
      · cases h
      · cases h
        exact wholeOfDigits?_lt hm

theorem traits_lt {color : Option String} {size : Option Nat} {tokens : List (List Char)}
    {found : Option String × Option Nat} (h : traits color size tokens = .ok found)
    (hs : ∀ n ∈ size, n < 10 ^ digitLimit) : ∀ n ∈ found.2, n < 10 ^ digitLimit := by
  induction tokens generalizing color size with
  | nil =>
    cases h
    exact hs
  | cons token tokens ih =>
    unfold traits at h
    split at h
    · exact ih h hs
    · split at h
      · obtain ⟨size', hn, h⟩ := bind_eq_ok h
        refine ih h ?_
        rintro n hm
        rw [hm] at hn
        exact sizeOf_lt hn
      · exact ih h hs

/-- What the node rule finds is a node after a keyword, with the traits that the other tokens give. -/
theorem matchNode_node {tokens : List (List Char)} {d : Declaration} (h : matchNode tokens = .ok (some d)) :
    ∃ first id rest color size, tokens = first :: id :: rest ∧ toSmall first ∈ nodeKeywords ∧
      traits none none rest = .ok (color, size) ∧
      d = .node
        { keyword := String.ofList (toSmall first), id := String.ofList id, size := size.getD defaultSize,
          color := color.getD defaultColor, icon := iconOf? (toSmall first) } := by
  unfold matchNode at h
  split at h
  · rename_i first id rest
    dsimp only at h
    split at h
    · rename_i hkeyword
      obtain ⟨⟨color, size⟩, ht, h⟩ := bind_eq_ok h
      cases h
      exact ⟨first, id, rest, color, size, rfl, by simpa using hkeyword, ht, rfl⟩
    · cases h
  · cases h

theorem matchNode_proper {tokens : List (List Char)} {d : Declaration}
    (h : matchNode tokens = .ok (some d)) : d.Proper := by
  obtain ⟨first, id, rest, color, size, -, -, ht, rfl⟩ := matchNode_node h
  have hlt := traits_lt ht (by simp)
  show size.getD defaultSize < 10 ^ digitLimit
  cases size with
  | none => exact lt_limit (by decide)
  | some n => exact hlt n rfl

theorem weightOf_lt {digits : List Char} {n : Nat} (h : weightOf digits = .ok n) :
    n < 10 ^ digitLimit := by
  have hone : 1 < 10 ^ digitLimit := lt_limit (by decide)
  unfold weightOf at h
  split at h
  · cases h
    exact hone
  · split at h
    · rename_i m hm
      cases h
      exact Nat.max_lt.mpr ⟨wholeOfDigits?_lt hm, hone⟩
    · cases h

namespace Form

/-- The forms that are tried before a form. -/
def earlier (form : Form) : List Form := all.takeWhile (· ≠ form)

theorem earlier_eq {form : Form} {before after : List Form} (h : all = before ++ form :: after) :
    form.earlier = before := by
  have hnodup : all.Nodup := by decide
  rw [h] at hnodup
  have hbefore : ∀ other ∈ before, decide (other ≠ form) = true := fun other hother =>
    decide_eq_true ((List.nodup_append.mp hnodup).2.2 other hother form List.mem_cons_self)
  rw [earlier, h, List.takeWhile_append_of_pos hbefore]
  simp

/-- A form decides if it finds something and none that is tried before does. -/
theorem findSome?_first {form : Form} {cs left digits right : List Char}
    (h : (all.findSome? fun form => (form.split? cs).map (form, ·)) = some (form, left, digits, right)) :
    form.split? cs = some (left, digits, right) ∧ ∀ other ∈ form.earlier, other.split? cs = none := by
  obtain ⟨before, found, after, hall, hfound, hbefore⟩ := List.findSome?_eq_some_iff.mp h
  obtain ⟨split, hsplit, he⟩ := Option.map_eq_some_iff.mp hfound
  cases he
  refine ⟨hsplit, ?_⟩
  rw [earlier_eq hall]
  exact fun other hother => Option.map_eq_none_iff.mp (hbefore other hother)

end Form

/-- A link is that of the first form that finds something. -/
theorem readLink_form {cs : List Char} {link : Link} (h : readLink cs = .ok (some link)) :
    ∃ (form : Form) (left digits right : List Char), form.split? cs = some (left, digits, right) ∧
      (∀ other ∈ form.earlier, other.split? cs = none) ∧ form.link left digits right = .ok link := by
  unfold readLink at h
  split at h
  · rename_i form left digits right hfirst
    obtain ⟨found, hlink, he⟩ := map_eq_ok h
    cases he
    obtain ⟨hsplit, hbefore⟩ := Form.findSome?_first hfirst
    exact ⟨form, left, digits, right, hsplit, hbefore, hlink⟩
  · cases h

theorem readLink_weight {cs : List Char} {link : Link} (h : readLink cs = .ok (some link)) :
    link.weight < 10 ^ digitLimit := by
  obtain ⟨form, left, digits, right, -, -, hlink⟩ := readLink_form h
  obtain ⟨weight, hw, hlink⟩ := bind_eq_ok hlink
  have hlt := weightOf_lt hw
  split at hlink
  · cases hlink
    exact hlt
  · cases hlink
    exact hlt

/-- The declaration of a link, with the label that follows it. -/
def Link.declares (l : Link) (label : List Char) : EdgeDecl where
  source := String.ofList l.source
  target := String.ofList l.target
  label := nonEmpty? (trim label)
  weight := l.weight
  kind := l.kind

/-- What the edge rule finds is the declaration of a link between two names. -/
theorem matchEdge_link {line : List Char} {d : Declaration} {notices : List Notice}
    (h : matchEdge line = .ok (some d, notices)) :
    ∃ link, readLink (cutLabel line).1 = .ok (some link) ∧ link.source ≠ [] ∧ link.target ≠ [] ∧
      d = .edge (link.declares (cutLabel line).2) := by
  unfold matchEdge at h
  obtain ⟨found, hread, h⟩ := bind_eq_ok h
  split at h
  · cases h
  · rename_i link
    split at h
    · cases h
    · rename_i hends
      cases h
      rw [Bool.or_eq_true, not_or, List.isEmpty_iff, List.isEmpty_iff] at hends
      exact ⟨link, hread, hends.1, hends.2, rfl⟩

theorem matchEdge_proper {line : List Char} {d : Declaration} {notices : List Notice}
    (h : matchEdge line = .ok (some d, notices)) : d.Proper := by
  obtain ⟨link, hread, -, -, rfl⟩ := matchEdge_link h
  exact readLink_weight hread

/-- What a line declares is found by one of the rules. -/
theorem readLine_some {line : List Char} {d : Declaration} {notices : List Notice}
    (h : readLine line = .ok (some d, notices)) :
    matchTitle line = some d ∨ matchNode (words line) = .ok (some d) ∨
      matchEdge line = .ok (some d, notices) := by
  unfold readLine at h
  split at h
  · rename_i decl hd
    cases h
    exact Or.inl hd
  · obtain ⟨found, hn, h⟩ := bind_eq_ok h
    cases found with
    | none => exact Or.inr (Or.inr h)
    | some decl =>
      cases h
      exact Or.inr (Or.inl hn)

theorem readLine_proper {line : List Char} {d : Declaration} {notices : List Notice}
    (h : readLine line = .ok (some d, notices)) : d.Proper := by
  rcases readLine_some h with h | h | h
  · exact matchTitle_proper h
  · exact matchNode_proper h
  · exact matchEdge_proper h

end NodeLink.Source
