import NodeLink.Proofs.Icon.Loading

/-!
# Icons loaded side by side

Whatever order the fetches come back in, every address is fetched once and the entries are those of the addresses
that can be fetched, in the order of their first uses. That holds as long as each address is fetched or its icon is
missing: an address that cannot be read at all ends the whole loading.
-/

namespace NodeLink.Icon

open Json (eq_text_of_key)
open NodeLink.Text

variable {w : World} {uri : Json} {uris unique : List Json} {order : Nat → List Nat} {loaded : Loaded}

/-- The given ones of some addresses, each once, in the order of their first uses. -/
structure FirstUses (uris unique : List Json) : Prop where
  mem_iff : ∀ uri, uri ∈ unique ↔ uri ∈ uris ∧ uri.isGiven = true
  nodup : unique.Nodup
  inOrder : unique.Pairwise fun a b => ∃ before after, uris = before ++ a :: after ∧ b ∉ before

/-- Every address that is given is fetched, or its icon is missing. -/
def Settles (w : World) (uris : List Json) : Prop :=
  ∀ uri ∈ uris, uri.isGiven = true → (∃ svg, fetch w uri = .ok svg) ∨ Missing w uri

/-- An order in which all fetches come back, however many there are. -/
def Exhausts (order : Nat → List Nat) : Prop := ∀ n, ∀ i < n, i ∈ order n

/-- The warning that an address gives. -/
def warning? (w : World) : Json → Option Notice
  | .text uri =>
    match fetch w (.text uri) with
    | .error (.icon _ reason) => some (.iconMissing uri (Fault.icon uri reason).message)
    | _ => none
  | _ => none

/-! ## Distinct addresses -/

theorem FirstUses.skip (h : FirstUses uris unique) (hnot : uri.isGiven ≠ true) : FirstUses (uri :: uris) unique := by
  refine ⟨fun other => ?_, h.nodup, h.inOrder.imp_of_mem ?_⟩
  · rw [h.mem_iff, List.mem_cons]
    constructor
    · exact fun ⟨hm, hgiven⟩ => ⟨Or.inr hm, hgiven⟩
    · rintro ⟨rfl | hm, hgiven⟩
      · exact absurd hgiven hnot
      · exact ⟨hm, hgiven⟩
  · rintro a b - hb ⟨before, after, rfl, hnew⟩
    refine ⟨uri :: before, after, rfl, ?_⟩
    rintro (_ | ⟨_, hold⟩)
    · exact hnot ((h.mem_iff uri).mp hb).2
    · exact hnew hold

theorem FirstUses.put (h : FirstUses uris unique) {keep : Json → Bool} (hkeep : ∀ other, keep other ↔ other ≠ uri)
    (hgiven : uri.isGiven = true) : FirstUses (uri :: uris) (uri :: unique.filter keep) := by
  have hmem (other : Json) : other ∈ unique.filter keep ↔ (other ∈ uris ∧ other.isGiven = true) ∧ other ≠ uri := by
    rw [List.mem_filter, h.mem_iff, hkeep]
  refine ⟨fun other => ?_, ?_, ?_⟩
  · rw [List.mem_cons, List.mem_cons, hmem]
    by_cases hsame : other = uri
    · simp [hsame, hgiven]
    · simp [hsame]
  · exact List.nodup_cons.mpr ⟨fun hm => ((hmem uri).mp hm).2 rfl, h.nodup.filter _⟩
  · refine List.pairwise_cons.mpr ⟨fun b _ => ⟨[], uris, rfl, List.not_mem_nil⟩, ?_⟩
    refine (h.inOrder.filter _).imp_of_mem ?_
    rintro a b - hb ⟨before, after, rfl, hnew⟩
    refine ⟨uri :: before, after, rfl, ?_⟩
    rintro (_ | ⟨_, hold⟩)
    · exact ((hmem uri).mp hb).2 rfl
    · exact hnew hold

theorem distinct_firstUses (h : ∀ uri ∈ uris, uri.isGiven = true → ∃ s, uri = .text s) :
    Succeeds (distinct uris) (FirstUses uris) := by
  induction uris with
  | nil => exact ⟨[], rfl, by simp, .nil, .nil⟩
  | cons uri rest ih =>
    obtain ⟨huri, hrest⟩ := List.forall_mem_cons.mp h
    obtain ⟨more, hmore, huses⟩ := ih hrest
    by_cases hgiven : uri.isGiven = true
    · obtain ⟨s, rfl⟩ := huri hgiven
      refine ⟨.text s :: more.filter fun other => other.key? != some (.text s), ?_, huses.put ?_ hgiven⟩
      · rw [distinct, if_pos hgiven, hmore]
        rfl
      · intro other
        rw [bne_iff_ne]
        exact not_congr ⟨eq_text_of_key, fun hsame => hsame ▸ rfl⟩
    · exact ⟨more, by rw [distinct, if_neg hgiven, hmore], huses.skip hgiven⟩

/-! ## Warnings -/

section

variable {address name reason : String}

theorem name_of_answered {answer : WebAnswer} (h : answered address answer = .error (.icon name reason)) :
    name = address := by
  cases answer with
  | failure _ =>
    cases h
    rfl
  | response status body =>
    rw [answered] at h
    by_cases hfound : status = 200
    · rw [if_pos hfound] at h
      cases h
    · rw [if_neg hfound] at h
      cases h
      rfl

theorem name_of_fetchWeb (h : fetchWeb w address = .error (.icon name reason)) : name = address := by
  unfold fetchWeb at h
  cases hread : WebAddress.read? address.toList with
  | none =>
    rw [hread] at h
    cases h
  | some parts =>
    simp only [hread] at h
    by_cases hhalf : address.toList.any carriesHalf = true
    · rw [if_pos hhalf] at h
      cases h
    · rw [if_neg hhalf] at h
      by_cases hhost : parts.hasHost = true
      · rw [if_pos hhost] at h
        exact name_of_answered h
      · rw [if_neg hhost] at h
        cases hanswer : w.ask parts.hostless with
        | failure _ =>
          rw [hanswer] at h
          cases h
          rfl
        | response status body =>
          rw [hanswer] at h
          cases h

theorem localPath_fault {cs : List Char} : localPath cs ≠ .error (.icon name reason) := by
  unfold localPath
  cases afterLead? "file://".toList cs with
  | none => nofun
  | some rest => cases hpath : FileAddress.path? rest <;> simp [hpath]

theorem name_of_fetchFile (h : fetchFile w address = .error (.icon name reason)) : name = address := by
  rcases bind_eq_error h with hpath | ⟨path, hpath, hread⟩
  · exact absurd hpath localPath_fault
  · cases hfile : readFile w path with
    | ok cs =>
      rw [hfile] at hread
      cases hread
    | error fault =>
      rw [hfile] at hread
      cases hread
      rfl

theorem name_of_missing (h : fetch w (.text address) = .error (.icon name reason)) : name = address := by
  change (if isWeb address.toList then fetchWeb w address else fetchFile w address) = _ at h
  by_cases hweb : isWeb address.toList = true
  · rw [if_pos hweb] at h
    exact name_of_fetchWeb h
  · rw [if_neg hweb] at h
    exact name_of_fetchFile h

end

theorem noticeFor?_eq (w : World) (uri : Json) : noticeFor? w uri = warning? w uri := by
  cases uri with
  | text s =>
    simp only [noticeFor?, load, warning?]
    cases hfetch : fetch w (.text s) with
    | ok svg => rfl
    | error fault =>
      cases fault with
      | icon name reason =>
        rw [name_of_missing hfetch]
        rfl
      | _ => rfl
  | _ => rfl

/-! ## Loading -/

theorem load_eq_ok_iff : (∃ found, load w uri = .ok found) ↔ (∃ svg, fetch w uri = .ok svg) ∨ Missing w uri := by
  constructor
  · rintro ⟨found, hload⟩
    rcases load_cases hload with ⟨s, -, t, svg, htext, hfetch, -⟩ | ⟨-, hmissing⟩
    · cases htext
      exact Or.inl ⟨svg, hfetch⟩
    · exact Or.inr hmissing
  · rintro (⟨svg, hfetch⟩ | ⟨name, reason, hfetch⟩)
    · exact ⟨_, by rw [load, hfetch]⟩
    · exact ⟨_, by rw [load, hfetch]⟩

/-- Where each address is fetched or missing, any order of coming back ends with the same entries. -/
theorem loadInOrder_of_settles (h : Settles w uris) :
    ∃ unique, FirstUses uris unique ∧ ∀ order, Exhausts order → ∃ loaded, loadInOrder order w uris = .ok loaded ∧
      loaded.symbols = unique.filterMap (entryFor? w) ∧ loaded.fetched.Perm unique ∧
      loaded.notices = loaded.fetched.filterMap (noticeFor? w) := by
  obtain ⟨unique, hunique, huses⟩ := distinct_firstUses fun uri hm hgiven => fetch_text (h uri hm hgiven)
  refine ⟨unique, huses, fun order horder => ?_⟩
  rcases loadInOrder_cases (w := w) hunique (horder unique.length) with
    ⟨fetched, hfetched, -, hrun⟩ | ⟨uri, huri, fault, -, hfault⟩
  · exact ⟨_, hrun, rfl, hfetched, rfl⟩
  · obtain ⟨hm, hgiven⟩ := (huses.mem_iff uri).mp huri
    obtain ⟨found, hload⟩ := load_eq_ok_iff.mpr (h uri hm hgiven)
    rw [hload] at hfault
    cases hfault

/-- Nothing is loaded at all if an address is neither fetched nor missing. -/
theorem settles_of_loadInOrder (horder : Exhausts order) (h : loadInOrder order w uris = .ok loaded) :
    Settles w uris := by
  intro uri hm hgiven
  obtain ⟨unique, hunique, -⟩ := bind_eq_ok h
  obtain ⟨hloads, -⟩ := loadInOrder_eq_ok hunique (horder unique.length) h
  exact load_eq_ok_iff.mp (hloads uri ((kept_distinct hunique).mem_of_loads hloads hm hgiven))

/-- An icon that is missing besides takes away its own entry and no other. -/
theorem mem_entries_of_missing {w' : World} {bad : Json} (hsame : ∀ uri, uri ≠ bad → fetch w' uri = fetch w uri)
    (hbad : Missing w' bad) (unique : List Json) (entry : Json × Symbol) :
    entry ∈ unique.filterMap (entryFor? w') ↔ entry ∈ unique.filterMap (entryFor? w) ∧ entry.1 ≠ bad := by
  obtain ⟨name, reason, hfetch⟩ := hbad
  have hnone : entryFor? w' bad = none := by
    rw [entryFor?_eq, hfetch]
    rfl
  have hother {uri : Json} (hne : uri ≠ bad) : entryFor? w' uri = entryFor? w uri := by
    rw [entryFor?_eq, entryFor?_eq, hsame uri hne]
  simp only [List.mem_filterMap]
  constructor
  · rintro ⟨uri, huri, hentry⟩
    have hne : uri ≠ bad := by
      rintro rfl
      rw [hnone] at hentry
      cases hentry
    exact ⟨⟨uri, huri, hother hne ▸ hentry⟩, (madeFor_of_entry hentry).1 ▸ hne⟩
  · rintro ⟨⟨uri, huri, hentry⟩, hne⟩
    have hne' : uri ≠ bad := (madeFor_of_entry hentry).1 ▸ hne
    exact ⟨uri, huri, (hother hne').trans hentry⟩

def shelvedIcon : List Char := "<svg viewBox=\"0 0 24 24\"><path d=\"M0 0h24v24z\"/></svg>".toList

/-- One file with an icon. -/
def shelf : World where
  files := [("a.svg".toList, Text.Utf8.encode shelvedIcon)]

theorem fetch_shelf : fetch shelf (.text "a.svg") = .ok shelvedIcon := fetch_of_toOption (by decide +kernel)

/-- Addresses of an icon, of nothing and of an icon that is missing, and the first one again. -/
def repeated : List Json := [.text "a.svg", .text "", .text "b.svg", .null, .text "a.svg"]

end NodeLink.Icon
