import NodeLink.Proofs.Graph.Documents
import NodeLink.Proofs.Icon.Gathering

/-!
# What loading icons gives

Every address that counts as given is fetched once. What it gives becomes one symbol, made of the text that
was fetched for this very address; an address that cannot be fetched has none.
-/

namespace NodeLink.Icon

open Json (eq_text_of_key)

/-- Of the addresses, one is kept for every key that comes up. -/
structure Kept (uris unique : List Json) : Prop where
  subset : ∀ uri ∈ unique, uri ∈ uris
  distinct : unique.Pairwise fun a b => a.key? ≠ b.key?
  covers : ∀ uri ∈ uris, uri.isGiven = true → ∃ kept ∈ unique, kept.key? = uri.key?

theorem kept_distinct {uris unique : List Json} (h : distinct uris = .ok unique) : Kept uris unique := by
  induction uris generalizing unique with
  | nil =>
    cases h
    exact ⟨nofun, .nil, nofun⟩
  | cons uri rest ih =>
    unfold distinct at h
    split at h
    · obtain ⟨key, hkey, h⟩ := bind_eq_ok h
      obtain ⟨more, hmore, h⟩ := bind_eq_ok h
      cases h
      obtain ⟨hsubset, hdistinct, hcovers⟩ := ih hmore
      have hk : uri.key? = some key := Graph.keyOf_eq_ok.mp hkey
      refine ⟨?_, ?_, ?_⟩
      · intro kept hm
        rcases List.mem_cons.mp hm with rfl | hm
        · exact List.mem_cons_self
        · exact List.mem_cons_of_mem _ (hsubset kept (List.mem_of_mem_filter hm))
      · refine List.pairwise_cons.mpr ⟨?_, hdistinct.filter _⟩
        intro kept hm he
        have hother : kept.key? ≠ some key := by simpa using List.of_mem_filter hm
        exact hother (he ▸ hk)
      · intro other hm hgiven
        by_cases hsame : other.key? = some key
        · exact ⟨uri, List.mem_cons_self, hk.trans hsame.symm⟩
        · rcases List.mem_cons.mp hm with rfl | hm
          · exact absurd hk hsame
          · obtain ⟨kept, hkept, he⟩ := hcovers other hm hgiven
            refine ⟨kept, List.mem_cons_of_mem _ (List.mem_filter.mpr ⟨hkept, ?_⟩), he⟩
            simpa [he] using hsame
    · rename_i hnot
      obtain ⟨hsubset, hdistinct, hcovers⟩ := ih h
      refine ⟨fun kept hm => List.mem_cons_of_mem _ (hsubset kept hm), hdistinct, ?_⟩
      intro other hm hgiven
      rcases List.mem_cons.mp hm with rfl | hm
      · exact absurd hgiven hnot
      · exact hcovers other hm hgiven

/-- The symbol is made of what the address gives. -/
def MadeFor (w : World) (entry : Json × Symbol) : Prop :=
  ∃ uri svg, entry.1 = .text uri ∧ fetch w (.text uri) = .ok svg ∧
    entry.2 = Symbol.ofSvg svg (Symbol.idOf uri.toList)

def Missing (w : World) (uri : Json) : Prop := ∃ name reason, fetch w uri = .error (.icon name reason)

theorem fetch_text {w : World} {uri : Json} (h : (∃ svg, fetch w uri = .ok svg) ∨ Missing w uri) :
    ∃ s, uri = .text s := by
  cases uri with
  | text s => exact ⟨s, rfl⟩
  | _ => rcases h with ⟨svg, h⟩ | ⟨name, reason, h⟩ <;> cases h

theorem load_cases {w : World} {uri : Json} {found : Except Notice (Json × Symbol)}
    (h : load w uri = .ok found) :
    (∃ s, symbolOf? found = some (uri, s) ∧ MadeFor w (uri, s)) ∨ symbolOf? found = none ∧ Missing w uri := by
  unfold load at h
  split at h
  · rename_i svg hfetch
    cases h
    obtain ⟨s, rfl⟩ := fetch_text (Or.inl ⟨svg, hfetch⟩)
    exact Or.inl ⟨_, rfl, s, svg, rfl, hfetch, rfl⟩
  · rename_i name reason hfetch
    cases h
    exact Or.inr ⟨rfl, name, reason, hfetch⟩
  · cases h

/-- An address that is fetched or missing is a text, so nothing else has its key. -/
theorem Kept.mem_of_loads {w : World} {uris unique : List Json} (hk : Kept uris unique)
    (hloads : ∀ uri ∈ unique, ∃ found, load w uri = .ok found) {uri : Json} (hm : uri ∈ uris)
    (hgiven : uri.isGiven = true) : uri ∈ unique := by
  obtain ⟨kept, hkept, hkey⟩ := hk.covers uri hm hgiven
  obtain ⟨found, hload⟩ := hloads kept hkept
  have htext : ∃ s, kept = .text s := by
    rcases load_cases hload with ⟨s, -, t, svg, htext, -⟩ | ⟨-, hmissing⟩
    · exact ⟨t, htext⟩
    · exact fetch_text (Or.inr hmissing)
  obtain ⟨s, rfl⟩ := htext
  rw [eq_text_of_key hkey.symm]
  exact hkept

/-- What has been loaded for addresses. -/
structure Gathers (w : World) (uris : List Json) (symbols : List (Json × Symbol)) : Prop where
  subset : ∀ entry ∈ symbols, entry.1 ∈ uris
  made : ∀ entry ∈ symbols, MadeFor w entry
  distinct : (symbols.map (·.1)).Nodup
  complete : ∀ uri ∈ uris, uri.isGiven = true → (∃ s, (uri, s) ∈ symbols) ∨ Missing w uri

theorem entryFor?_eq (w : World) (uri : Json) :
    entryFor? w uri = (fetch w uri).toOption.map fun svg => (uri, Symbol.ofSvg svg (Symbol.idOf uri.spelled)) := by
  unfold entryFor? load
  split <;> simp_all [Except.toOption, symbolOf?]

theorem map_fst_entries (w : World) (unique : List Json) :
    (unique.filterMap (entryFor? w)).map (·.1) = unique.filter fun uri => (fetch w uri).isOk := by
  induction unique with
  | nil => rfl
  | cons uri rest ih =>
    cases hfetch : fetch w uri with
    | error fault =>
      have hnone : entryFor? w uri = none := by rw [entryFor?_eq, hfetch]; rfl
      rw [List.filterMap_cons_none hnone, ih, List.filter_cons_of_neg (by simp [hfetch, Except.isOk, Except.toBool])]
    | ok svg =>
      have hsome : entryFor? w uri = some (uri, Symbol.ofSvg svg (Symbol.idOf uri.spelled)) := by
        rw [entryFor?_eq, hfetch]
        rfl
      rw [List.filterMap_cons_some hsome, List.map_cons, ih,
        List.filter_cons_of_pos (by simp [hfetch, Except.isOk, Except.toBool])]

theorem fetch_of_toOption {w : World} {uri : Json} {svg : List Char} (h : (fetch w uri).toOption = some svg) :
    fetch w uri = .ok svg := by
  cases hresult : fetch w uri with
  | error fault => simp [hresult, Except.toOption] at h
  | ok found => simpa [hresult, Except.toOption] using h

theorem madeFor_of_entry {w : World} {uri : Json} {entry : Json × Symbol} (h : entryFor? w uri = some entry) :
    entry.1 = uri ∧ MadeFor w entry := by
  rw [entryFor?_eq] at h
  obtain ⟨svg, hfetch, rfl⟩ := Option.map_eq_some_iff.mp h
  have hok := fetch_of_toOption hfetch
  obtain ⟨s, rfl⟩ := fetch_text (Or.inl ⟨svg, hok⟩)
  exact ⟨rfl, s, svg, rfl, hok, rfl⟩

theorem loadInOrder_eq_ok {w : World} {uris unique : List Json} {order : Nat → List Nat} {loaded : Loaded}
    (hunique : distinct uris = .ok unique) (horder : ∀ i < unique.length, i ∈ order unique.length)
    (h : loadInOrder order w uris = .ok loaded) :
    (∀ uri ∈ unique, ∃ outcome, load w uri = .ok outcome) ∧ loaded.symbols = unique.filterMap (entryFor? w) ∧
      loaded.fetched.Perm unique ∧ loaded.notices = loaded.fetched.filterMap (noticeFor? w) := by
  rcases loadInOrder_cases hunique horder with ⟨fetched, hfetched, hloads, hrun⟩ | ⟨uri, -, fault, hrun, -⟩
  · rw [hrun] at h
    cases h
    exact ⟨hloads, rfl, hfetched, rfl⟩
  · rw [hrun] at h
    cases h

theorem gathers_loadAll {w : World} {uris : List Json} {loaded : Loaded} (h : loadAll w uris = .ok loaded) :
    Gathers w uris loaded.symbols := by
  obtain ⟨unique, hunique, -⟩ := bind_eq_ok h
  obtain ⟨hloads, hsymbols, -⟩ := loadInOrder_eq_ok hunique (fun i hi => List.mem_range.mpr hi) h
  have hkept := kept_distinct hunique
  rw [hsymbols]
  have hkeys := map_fst_entries w unique
  refine ⟨?_, ?_, ?_, ?_⟩
  · intro entry hm
    have hkey : entry.1 ∈ unique.filter fun uri => (fetch w uri).isOk := hkeys ▸ List.mem_map_of_mem hm
    exact hkept.subset _ (List.mem_of_mem_filter hkey)
  · intro entry hm
    obtain ⟨uri, -, hentry⟩ := List.mem_filterMap.mp hm
    exact (madeFor_of_entry hentry).2
  · rw [hkeys]
    refine (hkept.distinct.filter _).imp ?_
    rintro a b hne rfl
    exact hne rfl
  · intro uri hm hgiven
    have hunique := hkept.mem_of_loads hloads hm hgiven
    obtain ⟨found, hload⟩ := hloads uri hunique
    rcases load_cases hload with ⟨s, hs, -⟩ | ⟨-, hmissing⟩
    · have hentry : entryFor? w uri = some (uri, s) := by simp [entryFor?, hload, Except.toOption, hs]
      exact Or.inl ⟨s, List.mem_filterMap.mpr ⟨uri, hunique, hentry⟩⟩
    · exact Or.inr hmissing

theorem symbol?_eq_some {w : World} {uris : List Json} {loaded : Loaded}
    (hl : Gathers w uris loaded.symbols) {uri : Json} {s : Symbol} (h : loaded.symbol? uri = .ok (some s)) :
    (uri, s) ∈ loaded.symbols := by
  obtain ⟨key, hkey, h⟩ := bind_eq_ok h
  obtain ⟨⟨uri', s'⟩, hfind, rfl⟩ := Option.map_eq_some_iff.mp (Except.ok.inj h)
  have hm := List.mem_of_find?_eq_some hfind
  have hsame : uri'.key? = some key := by simpa using List.find?_some hfind
  obtain ⟨t, svg, rfl, -⟩ := hl.made _ hm
  have huri : uri = .text t := eq_text_of_key ((Graph.keyOf_eq_ok.mp hkey).trans hsame.symm)
  rw [huri]
  exact hm

theorem symbol?_eq_none {loaded : Loaded} {uri : Json} (h : loaded.symbol? uri = .ok none) (s : Symbol) :
    (uri, s) ∉ loaded.symbols := by
  obtain ⟨key, hkey, h⟩ := bind_eq_ok h
  have hfind := Option.map_eq_none_iff.mp (Except.ok.inj h)
  intro hm
  have hnone := List.find?_eq_none.mp hfind _ hm
  simp [Graph.keyOf_eq_ok.mp hkey] at hnone

end NodeLink.Icon
