import NodeLink.Proofs.Json.Numbers
import NodeLink.Proofs.Json.Texts

/-!
# Values read back

A written value is read back whole, in every layout that indents with blanks. The induction is over the
value, with any text behind it; the fuel of the reader is bounded by the length of what is left to read.
-/

namespace NodeLink.Json

open NodeLink.Text

/-- A value that is read back from its text, with `d` lists and records open at one place at most. Where a
name stood twice in a record, only one of its values would be. -/
inductive Faithful : Nat → Json → Prop where
  | null {d : Nat} : Faithful d .null
  | bool {d : Nat} (b : Bool) : Faithful d (.bool b)
  | number {d : Nat} {n : Number} (readable : Readable n) : Faithful d (.number n)
  | text {d : Nat} (s : String) : Faithful d (.text s)
  | list {d : Nat} {items : List Json} (inner : ∀ x ∈ items, Faithful d x) :
      Faithful (d + 1) (.list items)
  | record {d : Nat} {fields : List (String × Json)} (distinct : (fields.map (·.1)).Nodup)
      (inner : ∀ field ∈ fields, Faithful d field.2) : Faithful (d + 1) (.record fields)

def Layout.Blank : Layout → Prop
  | .oneLine => True
  | .indented unit => ∀ c ∈ unit, isJsonBlank c = true

theorem Layout.ofIndent_blank (indent : Option Nat) : (Layout.ofIndent indent).Blank := by
  cases indent with
  | none => trivial
  | some width =>
    intro c hc
    rw [(List.mem_replicate.mp hc).2]
    rfl

variable {layout : Layout} {depth d fuel : Nat} {v x : Json} {xs : List Json}
  {fields found : List (String × Json)} {name : String} {rest tail gap : List Char} {c : Char}

theorem Layout.Blank.units (h : layout.Blank) (depth : Nat) :
    ∃ gap, (∀ c ∈ gap, isJsonBlank c = true) ∧ layout.edge depth = gap ∧
      ∃ gap', (∀ c ∈ gap', isJsonBlank c = true) ∧ layout.between depth = ',' :: gap' := by
  cases layout with
  | oneLine => exact ⟨[], nofun, rfl, [' '], by simp [isJsonBlank], rfl⟩
  | indented unit =>
    have hgap : ∀ c ∈ '\n' :: (List.replicate depth unit).flatten, isJsonBlank c = true := by
      intro c hc
      rcases List.mem_cons.mp hc with rfl | hc
      · rfl
      · obtain ⟨u, hu, hc⟩ := List.mem_flatten.mp hc
        rw [(List.mem_replicate.mp hu).2] at hc
        exact h c hc
    exact ⟨_, hgap, rfl, _, hgap, rfl⟩

theorem skipBlanks_append (hg : ∀ c ∈ gap, isJsonBlank c = true) (hc : isJsonBlank c = false) :
    skipBlanks (gap ++ c :: tail) = c :: tail := by
  rw [skipBlanks, List.dropWhile_append_of_pos hg]
  simp [hc]

theorem skipBlanks_cons (hc : isJsonBlank c = false) : skipBlanks (c :: tail) = c :: tail := by
  simp [skipBlanks, hc]

/-- What the first character of a value is not: a blank, a closing bracket or a byte order mark. -/
def Opens (c : Char) : Prop := isJsonBlank c = false ∧ c ≠ ']' ∧ c ≠ '\x7d' ∧ c ≠ '\uFEFF'

instance (c : Char) : Decidable (Opens c) := inferInstanceAs (Decidable (_ ∧ _))

theorem number_char {c : Char} (h : isAsciiDigit c = true ∨ c = '-' ∨ c = 'I') :
    Opens c ∧ c ≠ '"' ∧ c ≠ '[' ∧ c ≠ '\x7b' := by
  rcases h with h | rfl | rfl
  · have hne {e : Char} (he : isAsciiDigit e = false) : c ≠ e := ne_of_test h he
    refine ⟨⟨?_, hne rfl, hne rfl, hne rfl⟩, hne rfl, hne rfl, hne rfl⟩
    simp [isJsonBlank, hne (e := ' ') rfl, hne (e := '\t') rfl, hne (e := '\n') rfl, hne (e := '\r') rfl]
  · exact ⟨by decide, by decide, by decide, by decide⟩
  · exact ⟨by decide, by decide, by decide, by decide⟩

theorem writeOnto_head (hv : Faithful d v) (layout : Layout) (depth : Nat) (rest : List Char) :
    ∃ c tail, writeOnto layout depth v rest = c :: tail ∧ Opens c := by
  cases hv with
  | null => exact ⟨'n', _, rfl, by decide⟩
  | bool b =>
    cases b with
    | false => exact ⟨'f', _, rfl, by decide⟩
    | true => exact ⟨'t', _, rfl, by decide⟩
  | number readable =>
    obtain ⟨c, t, heq, hc⟩ := writeNumber_head readable
    exact ⟨c, t ++ rest, by rw [writeOnto, heq, List.cons_append], (number_char hc).1⟩
  | text s => exact ⟨'"', _, rfl, by decide⟩
  | @list d items inner =>
    cases items with
    | nil => exact ⟨'[', _, rfl, by decide⟩
    | cons x xs => exact ⟨'[', _, by rw [writeOnto]; rfl, by decide⟩
  | @record d fields distinct inner =>
    cases fields with
    | nil => exact ⟨'\x7b', _, rfl, by decide⟩
    | cons field fields => exact ⟨'\x7b', _, by rw [writeOnto]; rfl, by decide⟩

theorem skipBlanks_writeOnto (hv : Faithful d v) (hg : ∀ c ∈ gap, isJsonBlank c = true) :
    skipBlanks (gap ++ writeOnto layout depth v rest) = writeOnto layout depth v rest := by
  obtain ⟨c, tail, heq, hc⟩ := writeOnto_head hv layout depth rest
  rw [heq, skipBlanks_append hg hc.1]

theorem skipBlanks_space (hv : Faithful d v) :
    skipBlanks (' ' :: writeOnto layout depth v rest) = writeOnto layout depth v rest :=
  skipBlanks_writeOnto hv (show ∀ c ∈ [' '], isJsonBlank c = true by simp [isJsonBlank])

theorem length_writeItems (rest : List Char)
    (hx : ∀ x ∈ xs, ∀ rest, rest.length < (writeOnto layout (depth + 1) x rest).length) :
    rest.length ≤ (writeItems layout depth xs rest).length := by
  induction xs with
  | nil => exact Nat.le_refl _
  | cons x xs ih =>
    have hhead := hx x (by simp) (writeItems layout depth xs rest)
    have htail := ih fun y hy => hx y (List.mem_cons_of_mem x hy)
    rw [writeItems, List.length_append]
    omega

theorem length_writeFields (rest : List Char)
    (hx : ∀ field ∈ fields, ∀ rest, rest.length < (writeOnto layout (depth + 1) field.2 rest).length) :
    rest.length ≤ (writeFields layout depth fields rest).length := by
  induction fields with
  | nil => exact Nat.le_refl _
  | cons field fields ih =>
    have hhead := hx field (by simp) (writeFields layout depth fields rest)
    have htail := ih fun y hy => hx y (List.mem_cons_of_mem field hy)
    simp only [writeFields, writeText, List.length_append, List.length_cons]
    omega

theorem length_writeOnto (layout : Layout) (hv : Faithful d v) :
    ∀ depth rest, rest.length < (writeOnto layout depth v rest).length := by
  -- the fuel of the reader is the length of the text, so every value has to take some of it
  induction hv with
  | null =>
    intro depth rest
    simp only [writeOnto, List.length_append]
    exact Nat.lt_add_of_pos_left (by decide)
  | bool b =>
    intro depth rest
    simp only [writeOnto, List.length_append]
    cases b with
    | false => exact Nat.lt_add_of_pos_left (by decide)
    | true => exact Nat.lt_add_of_pos_left (by decide)
  | number readable =>
    intro depth rest
    obtain ⟨c, t, heq, -⟩ := writeNumber_head readable
    simp only [writeOnto, heq, List.length_append, List.length_cons]
    omega
  | text s =>
    intro depth rest
    simp only [writeOnto, writeText, List.length_append, List.length_cons]
    omega
  | @list d items inner ih =>
    intro depth rest
    cases items with
    | nil =>
      simp only [writeOnto, List.length_cons]
      omega
    | cons x xs =>
      have hitems := length_writeItems (layout.edge depth ++ ']' :: rest)
        fun y hy => ih y (List.mem_cons_of_mem x hy) (depth + 1)
      have hhead := ih x (by simp) (depth + 1) (writeItems layout depth xs (layout.edge depth ++ ']' :: rest))
      simp only [writeOnto, List.length_append, List.length_cons] at hitems ⊢
      omega
  | @record d fields distinct inner ih =>
    intro depth rest
    cases fields with
    | nil =>
      simp only [writeOnto, List.length_cons]
      omega
    | cons field fields =>
      have hitems := length_writeFields (layout.edge depth ++ '\x7d' :: rest)
        fun y hy => ih y (List.mem_cons_of_mem field hy) (depth + 1)
      have hhead := ih field (by simp) (depth + 1)
        (writeFields layout depth fields (layout.edge depth ++ '\x7d' :: rest))
      simp only [writeOnto, writeText, List.length_append, List.length_cons] at hitems ⊢
      omega

theorem ends_cons (hd : isAsciiDigit c = false) (hc : c ∉ ['.', 'e', 'E']) : Ends (c :: tail) := by
  rintro a ha
  cases ha
  simp only [List.mem_cons, List.not_mem_nil, or_false, not_or] at hc
  exact ⟨hd, hc⟩

theorem ends_edge (hd : isAsciiDigit c = false) (hc : c ∉ ['.', 'e', 'E']) :
    Ends (layout.edge depth ++ c :: tail) := by
  cases layout with
  | oneLine => exact ends_cons hd hc
  | indented unit => exact ends_cons (c := '\n') rfl (by decide)

theorem ends_between : Ends (layout.between depth ++ tail) := by
  cases layout with
  | oneLine => exact ends_cons (c := ',') rfl (by decide)
  | indented unit => exact ends_cons (c := ',') rfl (by decide)

theorem ends_writeItems : Ends (writeItems layout depth xs (layout.edge depth ++ ']' :: rest)) := by
  cases xs with
  | nil => exact ends_edge rfl (by decide)
  | cons x xs =>
    rw [writeItems]
    exact ends_between

theorem ends_writeFields :
    Ends (writeFields layout depth fields (layout.edge depth ++ '\x7d' :: rest)) := by
  cases fields with
  | nil => exact ends_edge rfl (by decide)
  | cons field fields =>
    rw [writeFields]
    exact ends_between

/-- What reading a value gives, wherever it was written and whatever stands behind it. -/
def ReadBack (layout : Layout) (d : Nat) (v : Json) : Prop :=
  ∀ depth fuel rest, Ends rest → 3 * (writeOnto layout depth v rest).length + 1 ≤ fuel →
    readValue fuel d (writeOnto layout depth v rest) = .ok (v, rest)

/-- Values one behind the other: each is read back, and the separator behind it leads to the next. -/
theorem readItems_write (hl : layout.Blank) (hv : ∀ y ∈ x :: xs, Faithful d y)
    (hx : ∀ y ∈ x :: xs, ReadBack layout d y)
    (hfuel : 3 * (writeOnto layout (depth + 1) x
      (writeItems layout depth xs (layout.edge depth ++ ']' :: rest))).length + 2 ≤ fuel) :
    readItems fuel d (writeOnto layout (depth + 1) x
      (writeItems layout depth xs (layout.edge depth ++ ']' :: rest))) = .ok (x :: xs, rest) := by
  induction xs generalizing x fuel with
  | nil =>
    obtain ⟨fuel, rfl⟩ : ∃ f, fuel = f + 1 := ⟨fuel - 1, by omega⟩
    obtain ⟨gap, hgap, hedge, -⟩ := hl.units depth
    have hends : Ends (writeItems layout depth [] (layout.edge depth ++ ']' :: rest)) := ends_writeItems
    have hread := hx x (by simp) (depth + 1) fuel _ hends (by omega)
    rw [readItems, hread]
    simp only [writeItems, hedge, skipBlanks_append hgap (c := ']') rfl, bind, Except.bind]
    rfl
  | cons y ys ih =>
    obtain ⟨fuel, rfl⟩ : ∃ f, fuel = f + 1 := ⟨fuel - 1, by omega⟩
    obtain ⟨-, -, -, gap, hgap, hbetween⟩ := hl.units (depth + 1)
    have hends : Ends (writeItems layout depth (y :: ys) (layout.edge depth ++ ']' :: rest)) :=
      ends_writeItems
    have hread := hx x (by simp) (depth + 1) fuel _ hends (by omega)
    have hshort := length_writeOnto layout (hv x (by simp)) (depth + 1)
      (writeItems layout depth (y :: ys) (layout.edge depth ++ ']' :: rest))
    have hfuel' : 3 * (writeOnto layout (depth + 1) y
        (writeItems layout depth ys (layout.edge depth ++ ']' :: rest))).length + 2 ≤ fuel := by
      simp only [writeItems, hbetween, List.length_append, List.length_cons] at hfuel hshort ⊢
      omega
    have htail := ih (fun z hz => hv z (List.mem_cons_of_mem x hz))
      (fun z hz => hx z (List.mem_cons_of_mem x hz)) hfuel'
    rw [readItems, hread]
    simp only [writeItems, hbetween, List.cons_append, skipBlanks_cons (c := ',') rfl, bind, Except.bind,
      skipBlanks_writeOnto (hv y (by simp)) hgap, htail]
    rfl

theorem setField_new (h : name ∉ found.map (·.1)) : setField name v found = found ++ [(name, v)] := by
  induction found with
  | nil => rfl
  | cons field found ih =>
    simp only [List.map_cons, List.mem_cons, not_or] at h
    rw [setField, if_neg (Ne.symm h.1), ih h.2]
    rfl

theorem writeText_head (name : String) (tail : List Char) : ∃ t, writeText name tail = '"' :: t ∧
    readText ('"' :: t) = .ok (name, tail) :=
  ⟨_, rfl, readText_writeText name tail⟩

/-- One field is read, and the separator behind it decides. -/
theorem readFields_step {value : List Char} (hblank : skipBlanks (' ' :: value) = value)
    (hread : readValue fuel d value = .ok (x, tail)) :
    readFields (fuel + 1) d found (writeText name (':' :: ' ' :: value)) =
      match skipBlanks tail with
      | '\x7d' :: after => .ok (setField name x found, after)
      | ',' :: after => readFields fuel d (setField name x found) (skipBlanks after)
      | other => failAt .comma other := by
  obtain ⟨t, ht, htext⟩ := writeText_head name (':' :: ' ' :: value)
  rw [ht, readFields]
  simp only [htext, bind, Except.bind, skipBlanks_cons (c := ':') rfl, hblank, hread]
  rfl

theorem name_new (hnames : ((found ++ (name, x) :: fields).map (·.1)).Nodup) : name ∉ found.map (·.1) := by
  rw [List.map_append, List.nodup_append] at hnames
  exact fun hm => hnames.2.2 name hm name (by simp) rfl

/-- A field under a new name is added to those found, if its value is read back. -/
theorem readFields_first (hfaithful : Faithful d x) (hback : ReadBack layout d x) (hends : Ends tail)
    (hnew : name ∉ found.map (·.1))
    (hfuel : 3 * (writeText name (':' :: ' ' :: writeOnto layout depth x tail)).length + 2 ≤ fuel + 1) :
    readFields (fuel + 1) d found (writeText name (':' :: ' ' :: writeOnto layout depth x tail)) =
      match skipBlanks tail with
      | '\x7d' :: after => .ok (found ++ [(name, x)], after)
      | ',' :: after => readFields fuel d (found ++ [(name, x)]) (skipBlanks after)
      | other => failAt .comma other := by
  have hread := hback depth fuel tail hends (by
    simp only [writeText, List.length_append, List.length_cons] at hfuel
    omega)
  rw [readFields_step (skipBlanks_space hfaithful) hread, setField_new hnew]

/-- Fields one behind the other, added to those already found. -/
theorem readFields_write (hl : layout.Blank) (hv : ∀ field ∈ (name, x) :: fields, Faithful d field.2)
    (hx : ∀ field ∈ (name, x) :: fields, ReadBack layout d field.2)
    (hnames : ((found ++ (name, x) :: fields).map (·.1)).Nodup)
    (hfuel : 3 * (writeText name (':' :: ' ' :: writeOnto layout (depth + 1) x
      (writeFields layout depth fields (layout.edge depth ++ '\x7d' :: rest)))).length + 2 ≤ fuel) :
    readFields fuel d found (writeText name (':' :: ' ' :: writeOnto layout (depth + 1) x
      (writeFields layout depth fields (layout.edge depth ++ '\x7d' :: rest)))) =
      .ok (found ++ (name, x) :: fields, rest) := by
  induction fields generalizing name x found fuel with
  | nil =>
    obtain ⟨fuel, rfl⟩ : ∃ f, fuel = f + 1 := ⟨fuel - 1, by omega⟩
    obtain ⟨gap, hgap, hedge, -⟩ := hl.units depth
    rw [readFields_first (hv (name, x) (by simp)) (hx (name, x) (by simp)) ends_writeFields (name_new hnames) hfuel]
    simp only [writeFields, hedge, skipBlanks_append hgap (c := '\x7d') rfl]
  | cons field fields ih =>
    obtain ⟨fuel, rfl⟩ : ∃ f, fuel = f + 1 := ⟨fuel - 1, by omega⟩
    obtain ⟨-, -, -, gap, hgap, hbetween⟩ := hl.units (depth + 1)
    have hfaithful : Faithful d x := hv (name, x) (by simp)
    have hfirst := readFields_first hfaithful (hx (name, x) (by simp)) ends_writeFields (name_new hnames) hfuel
    have hshort := length_writeOnto layout hfaithful (depth + 1)
      (writeFields layout depth (field :: fields) (layout.edge depth ++ '\x7d' :: rest))
    obtain ⟨name', y⟩ := field
    have hnames' : ((found ++ [(name, x)] ++ (name', y) :: fields).map (·.1)).Nodup := by
      simpa using hnames
    have hfuel' : 3 * (writeText name' (':' :: ' ' :: writeOnto layout (depth + 1) y
        (writeFields layout depth fields (layout.edge depth ++ '\x7d' :: rest)))).length + 2 ≤ fuel := by
      simp only [writeFields, writeText, hbetween, List.length_append, List.length_cons] at hfuel hshort ⊢
      omega
    have htail := ih (fun z hz => hv z (List.mem_cons_of_mem _ hz))
      (fun z hz => hx z (List.mem_cons_of_mem _ hz)) hnames' hfuel'
    obtain ⟨t, ht, -⟩ := writeText_head name' (':' :: ' ' :: writeOnto layout (depth + 1) y
      (writeFields layout depth fields (layout.edge depth ++ '\x7d' :: rest)))
    have hskip : skipBlanks (gap ++ '"' :: t) = '"' :: t := skipBlanks_append hgap rfl
    rw [hfirst]
    simp only [writeFields, hbetween, List.cons_append, skipBlanks_cons (c := ',') rfl]
    rw [ht] at htail ⊢
    rw [hskip, htail, List.append_assoc]
    rfl

theorem readValue_plain {head : Char} (h : head ≠ '"' ∧ head ≠ '[' ∧ head ≠ '\x7b') :
    readValue (fuel + 1) d (head :: tail) = readPlain (head :: tail) := by
  rw [readValue.eq_def]
  dsimp only
  split
  · rename_i he
    cases he
    exact absurd rfl h.1
  · rename_i he
    cases he
    exact absurd rfl h.2.1
  · rename_i he
    cases he
    exact absurd rfl h.2.2
  · rfl

theorem readList_items {items : List Json} (h : c ≠ ']')
    (hread : readItems fuel d (c :: tail) = .ok (items, rest)) :
    readList (fuel + 1) d (c :: tail) = .ok (.list items, rest) := by
  rw [readList.eq_def]
  dsimp only
  split
  · rename_i he
    cases he
    exact absurd rfl h
  · simp only [hread, bind, Except.bind]
    rfl

theorem readRecord_fields (h : c ≠ '\x7d')
    (hread : readFields fuel d [] (c :: tail) = .ok (fields, rest)) :
    readRecord (fuel + 1) d (c :: tail) = .ok (.record fields, rest) := by
  rw [readRecord.eq_def]
  dsimp only
  split
  · rename_i he
    cases he
    exact absurd rfl h
  · simp only [hread, bind, Except.bind]
    rfl

theorem readBack_number {n : Number} (readable : Readable n) : ReadBack layout d (.number n) := by
  intro depth fuel rest hr hfuel
  obtain ⟨fuel, rfl⟩ : ∃ f, fuel = f + 1 := ⟨fuel - 1, by omega⟩
  obtain ⟨c, t, heq, hc⟩ := writeNumber_head readable
  have hplain := readPlain_writeNumber readable hr
  rw [heq, List.cons_append] at hplain
  rw [writeOnto, heq, List.cons_append, readValue_plain (number_char hc).2, hplain]

theorem readBack_text (s : String) : ReadBack layout d (.text s) := by
  intro depth fuel rest hr hfuel
  obtain ⟨fuel, rfl⟩ : ∃ f, fuel = f + 1 := ⟨fuel - 1, by omega⟩
  obtain ⟨t, ht, htext⟩ := writeText_head s rest
  rw [writeOnto, ht, readValue]
  simp only [htext, bind, Except.bind]
  rfl

theorem readBack_list (hl : layout.Blank) {items : List Json} (inner : ∀ x ∈ items, Faithful d x)
    (hback : ∀ x ∈ items, ReadBack layout d x) : ReadBack layout (d + 1) (.list items) := by
  intro depth fuel rest hr hfuel
  cases items with
  | nil =>
    obtain ⟨fuel, rfl⟩ : ∃ f, fuel = f + 2 :=
      ⟨fuel - 2, by simp only [writeOnto, List.length_cons] at hfuel; omega⟩
    rw [writeOnto, readValue, if_neg (Nat.succ_ne_zero d), skipBlanks_cons rfl, readList]
  | cons x xs =>
    obtain ⟨fuel, rfl⟩ : ∃ f, fuel = f + 2 :=
      ⟨fuel - 2, by simp only [writeOnto, List.length_cons, List.length_append] at hfuel; omega⟩
    obtain ⟨gap, hgap, hedge, -⟩ := hl.units (depth + 1)
    have hfuel' : 3 * (writeOnto layout (depth + 1) x
        (writeItems layout depth xs (layout.edge depth ++ ']' :: rest))).length + 2 ≤ fuel := by
      simp only [writeOnto, List.length_cons, List.length_append] at hfuel
      omega
    have hitems := readItems_write hl inner hback hfuel'
    obtain ⟨c, tail, heq, hc⟩ := writeOnto_head (inner x (by simp)) layout (depth + 1)
      (writeItems layout depth xs (layout.edge depth ++ ']' :: rest))
    rw [heq] at hitems
    rw [writeOnto, hedge, heq, List.cons_append, readValue, if_neg (Nat.succ_ne_zero d),
      skipBlanks_append hgap hc.1]
    exact readList_items hc.2.1 hitems

theorem readBack_record (hl : layout.Blank) (distinct : (fields.map (·.1)).Nodup)
    (inner : ∀ field ∈ fields, Faithful d field.2) (hback : ∀ field ∈ fields, ReadBack layout d field.2) :
    ReadBack layout (d + 1) (.record fields) := by
  intro depth fuel rest hr hfuel
  cases fields with
  | nil =>
    obtain ⟨fuel, rfl⟩ : ∃ f, fuel = f + 2 :=
      ⟨fuel - 2, by simp only [writeOnto, List.length_cons] at hfuel; omega⟩
    rw [writeOnto, readValue, if_neg (Nat.succ_ne_zero d), skipBlanks_cons rfl, readRecord]
  | cons field fields =>
    obtain ⟨name, x⟩ := field
    obtain ⟨fuel, rfl⟩ : ∃ f, fuel = f + 2 :=
      ⟨fuel - 2, by simp only [writeOnto, List.length_cons, List.length_append] at hfuel; omega⟩
    obtain ⟨gap, hgap, hedge, -⟩ := hl.units (depth + 1)
    have hfuel' : 3 * (writeText name (':' :: ' ' :: writeOnto layout (depth + 1) x
        (writeFields layout depth fields (layout.edge depth ++ '\x7d' :: rest)))).length + 2 ≤ fuel := by
      simp only [writeOnto, List.length_cons, List.length_append] at hfuel
      omega
    have hnames : (([] ++ (name, x) :: fields : List (String × Json)).map (·.1)).Nodup := distinct
    have hfields := readFields_write hl inner hback hnames hfuel'
    obtain ⟨t, ht, -⟩ := writeText_head name (':' :: ' ' :: writeOnto layout (depth + 1) x
      (writeFields layout depth fields (layout.edge depth ++ '\x7d' :: rest)))
    rw [ht] at hfields
    rw [writeOnto, hedge, ht, List.cons_append, readValue, if_neg (Nat.succ_ne_zero d),
      skipBlanks_append hgap rfl]
    exact readRecord_fields (by decide) hfields

theorem readBack_of_faithful (hl : layout.Blank) (hv : Faithful d v) : ReadBack layout d v := by
  induction hv with
  | null =>
    intro depth fuel rest hr hfuel
    obtain ⟨fuel, rfl⟩ : ∃ f, fuel = f + 1 := ⟨fuel - 1, by omega⟩
    rw [writeOnto]
    exact (readValue_plain (by decide)).trans rfl
  | bool b =>
    intro depth fuel rest hr hfuel
    obtain ⟨fuel, rfl⟩ : ∃ f, fuel = f + 1 := ⟨fuel - 1, by omega⟩
    rw [writeOnto]
    cases b with
    | false => exact (readValue_plain (by decide)).trans rfl
    | true => exact (readValue_plain (by decide)).trans rfl
  | number readable => exact readBack_number readable
  | text s => exact readBack_text s
  | list inner ih => exact readBack_list hl inner ih
  | record distinct inner ih => exact readBack_record hl distinct inner ih

/-- A value that was written in a layout of blanks is what its text is read as. -/
theorem readAll_write (hl : layout.Blank) (hv : Faithful depthLimit v) :
    readAll (write layout v) = .ok v := by
  have hread := readBack_of_faithful hl hv 0 (3 * (write layout v).length + 3) [] nofun (by
    rw [write]
    omega)
  obtain ⟨c, tail, heq, hc⟩ := writeOnto_head hv layout 0 []
  rw [write, heq] at hread ⊢
  unfold readAll
  split
  · rename_i he
    cases he
    exact absurd rfl hc.2.2.2
  · rw [skipBlanks_cons hc.1, hread]
    rfl

end NodeLink.Json
