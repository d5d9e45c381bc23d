import NodeLink.Proofs.Source.Connectors
import NodeLink.Source.Declaration

/-!
# Lines that declare edges

Two plain names with a connector between them declare one edge. The rules for titles and nodes pass such
a line over, and neither name gives a digit to the weight.
-/

namespace NodeLink.Source

open NodeLink.Text

/-- A name that no rule cuts through. -/
structure Plain (name : List Char) : Prop where
  ne_nil : name ≠ []
  no_blank : ∀ c ∈ name, isBlank c = false
  no_mark : ∀ c ∈ ['-', '<', '>', ':'], c ∉ name

structure EdgeLine where
  left : List Char
  before : List Char := []
  connector : Connector
  after : List Char := []
  right : List Char
  label : Option (List Char) := none

namespace EdgeLine

/-- The part before the label. -/
def ends (l : EdgeLine) : List Char :=
  (l.left ++ l.before) ++ l.connector.text ++ (l.after ++ l.right)

def labelText (l : EdgeLine) : List Char :=
  match l.label with
  | none => []
  | some label => ':' :: label

def text (l : EdgeLine) : List Char := l.ends ++ l.labelText

def label? (l : EdgeLine) : Option String := nonEmpty? (trim (l.label.getD []))

def decl (l : EdgeLine) : EdgeDecl :=
  let left := String.ofList l.left
  let right := String.ofList l.right
  match l.connector with
  | .both _ => ⟨left, right, l.label?, l.connector.weight, .doubleArrow⟩
  | .forward _ _ => ⟨left, right, l.label?, l.connector.weight, .arrow⟩
  | .backward _ => ⟨right, left, l.label?, l.connector.weight, .arrow⟩
  | .dashes _ => ⟨left, right, l.label?, l.connector.weight, .line⟩
  | .single _ => ⟨left, right, l.label?, l.connector.weight, .line⟩

/-- Behind a keyword there is no blank, as the line would declare a node. -/
structure Proper (l : EdgeLine) : Prop where
  left : Plain l.left
  right : Plain l.right
  untitled : startsWith titleKeyword l.left = false
  before : ∀ c ∈ l.before, isBlank c = true ∧ c ≠ '\n'
  after : ∀ c ∈ l.after, isBlank c = true ∧ c ≠ '\n'
  keyword : toSmall l.left ∈ nodeKeywords → l.before = []
  limit : l.connector.digits.length ≤ digitLimit

/-- The same edge written from its other end. -/
structure Mirrors (l m : EdgeLine) : Prop where
  left : m.left = l.right
  right : m.right = l.left
  label : m.label? = l.label?
  arrows : ∃ long w, l.connector = .backward w ∧ m.connector = .forward long w

variable {l m : EdgeLine}

/-- What stands right behind the left name is a blank or begins the connector. -/
theorem text_eq (l : EdgeLine) : ∃ c rest, l.text = l.left ++ c :: rest ∧
    (l.before = [] ∧ (c = '-' ∨ c = '<') ∨ c ∈ l.before) := by
  obtain ⟨a, cs, ht, ha⟩ := l.connector.text_cons
  obtain ⟨tail, htext⟩ : ∃ tail, l.text = l.left ++ (l.before ++ a :: (cs ++ tail)) := by
    refine ⟨l.after ++ (l.right ++ l.labelText), ?_⟩
    simp only [text, ends, ht, List.append_assoc, List.cons_append]
  cases hb : l.before with
  | nil => exact ⟨a, cs ++ tail, by rw [htext, hb]; rfl, Or.inl ⟨rfl, ha⟩⟩
  | cons b bs => exact ⟨b, bs ++ a :: (cs ++ tail), by rw [htext, hb]; rfl, Or.inr (by simp)⟩

theorem matchTitle_text (h : l.Proper) : matchTitle l.text = none := by
  obtain ⟨c, rest, ht, hc⟩ := l.text_eq
  have hmem : c ∉ titleKeyword := by
    rcases hc with ⟨-, rfl | rfl⟩ | hb
    · decide
    · decide
    · have hkeyword : titleKeyword.all (fun d => !isBlank d) = true := by decide
      exact fun hm => ne_of_test (h.before c hb).1 (by simpa using List.all_eq_true.mp hkeyword c hm) rfl
  rw [matchTitle, ht, afterLead?_append_cons h.untitled hmem]
  rfl

theorem matchNode_none {first : List Char} {rest : List (List Char)} (h : toSmall first ∉ nodeKeywords) :
    matchNode (first :: rest) = .ok none := by
  unfold matchNode
  cases rest with
  | nil => rfl
  | cons id rest =>
    have hc : nodeKeywords.contains (toSmall first) = false := by simpa using h
    simp only [hc]
    rfl

/-- The letters of a keyword are no marks, so no word that runs into a connector is a keyword. -/
theorem mark_not_keyword {c : Char} {front back : List Char} (hc : c = '-' ∨ c = '<') :
    toSmall (front ++ c :: back) ∉ nodeKeywords := by
  intro hm
  have hsmall : small c = [c] := by
    rcases hc with rfl | rfl <;> decide
  have hmem : c ∈ toSmall (front ++ c :: back) := by
    simp [toSmall, hsmall]
  have hplain : ∀ keyword ∈ nodeKeywords, '-' ∉ keyword ∧ '<' ∉ keyword := by decide
  rcases hc with rfl | rfl
  · exact (hplain _ hm).1 hmem
  · exact (hplain _ hm).2 hmem

theorem matchNode_text (h : l.Proper) : matchNode (words l.text) = .ok none := by
  obtain ⟨c, rest, ht, hc⟩ := l.text_eq
  rw [ht]
  rcases hc with ⟨-, hc⟩ | hb
  · have hn : ∀ d ∈ l.left ++ [c], isBlank d = false := by
      intro d hd
      rcases List.mem_append.mp hd with hd | hd
      · exact h.left.no_blank d hd
      · rw [List.mem_singleton.mp hd]
        rcases hc with rfl | rfl <;> decide
    have hw := words_append rest hn (by simp)
    rw [List.append_assoc, List.singleton_append] at hw
    rw [hw, List.append_assoc, List.singleton_append]
    exact matchNode_none (mark_not_keyword hc)
  · have hblank : (splitBlanks (c :: rest)).1 = [] := by
      simp [splitBlanks, (h.before c hb).1]
    rw [words_append _ h.left.no_blank h.left.ne_nil, hblank, List.append_nil]
    refine matchNode_none fun hm => ?_
    rw [h.keyword hm] at hb
    cases hb

theorem no_colon (h : l.Proper) : ':' ∉ l.ends := by
  have hblank {cs : List Char} (hcs : ∀ c ∈ cs, isBlank c = true ∧ c ≠ '\n') : ':' ∉ cs :=
    fun hm => ne_of_test (hcs _ hm).1 (by decide) rfl
  simp [ends, h.left.no_mark, h.right.no_mark, hblank h.before, hblank h.after,
    Connector.not_mem_text (a := ':') (by decide) (by decide)]

theorem cutLabel_text (h : l.Proper) : cutLabel l.text = (l.ends, l.label.getD []) := by
  have hall : ∀ c ∈ l.ends, decide (c ≠ ':') = true := by
    intro c hc
    exact decide_eq_true fun he => no_colon h (he ▸ hc)
  rw [cutLabel, text, labelText, List.takeWhile_append_of_pos hall, List.dropWhile_append_of_pos hall]
  cases l.label with
  | none => simp
  | some label => simp

/-- A name with blanks on one side of it is no other name. -/
theorem readLink_ends (h : l.Proper) : readLink l.ends = .ok (some
    (if l.connector.form.isReversed then ⟨l.right, l.left, l.connector.weight, l.connector.form.kind⟩
      else ⟨l.left, l.right, l.connector.weight, l.connector.form.kind⟩)) := by
  have hname {name : List Char} (hn : Plain name) : ∀ c ∈ ['-', '<', '>', '\n'], c ∉ name := by
    intro c hc hm
    by_cases he : c = '\n'
    · exact ne_of_test (d := c) (by rw [he]; decide) (hn.no_blank c hm) rfl
    · have hc' : c ∈ ['-', '<', '>', ':'] := by
        simp only [List.mem_cons, List.not_mem_nil, or_false, he] at hc ⊢
        tauto
      exact hn.no_mark c hc' hm
  have hblank {cs : List Char} (hcs : ∀ c ∈ cs, isBlank c = true ∧ c ≠ '\n') :
      ∀ c ∈ ['-', '<', '>', '\n'], c ∉ cs := by
    intro c hc hm
    obtain ⟨hb, hn⟩ := hcs c hm
    have hmark : ∀ d ∈ ['-', '<', '>'], isBlank d = false := by simp [isBlank]
    exact ne_of_test hb (hmark c (by simp_all)) rfl
  have hleft : trim (l.left ++ l.before) = l.left :=
    trim_blanks [] l.before (List.forall_mem_nil _) (fun c hc => (h.before c hc).1) h.left.no_blank h.left.ne_nil
  have hright : trim (l.after ++ l.right) = l.right := by
    simpa using
      trim_blanks l.after [] (fun c hc => (h.after c hc).1) (List.forall_mem_nil _) h.right.no_blank h.right.ne_nil
  rw [ends, readLink_text l.connector ?_ ?_ ?_ ?_ h.limit, hleft, hright]
  · intro c hc
    simp [hname h.left c hc, hblank h.before c hc]
  · intro c hc
    simp [hname h.right c hc, hblank h.after c hc]
  · simp [h.left.ne_nil]
  · simp [h.right.ne_nil]

theorem matchEdge_text (h : l.Proper) : matchEdge l.text = .ok (some (.edge l.decl), []) := by
  have hleft : l.left.isEmpty = false := by simpa using h.left.ne_nil
  have hright : l.right.isEmpty = false := by simpa using h.right.ne_nil
  unfold matchEdge
  simp only [cutLabel_text h, readLink_ends h, bind, Except.bind]
  cases hc : l.connector with
  | both w =>
    simp only [Connector.form, Form.isReversed, Bool.false_eq_true, if_false, hleft, hright, decl, hc]
    rfl
  | forward long w =>
    simp only [Connector.form, Form.isReversed, Bool.false_eq_true, if_false, hleft, hright, decl, hc]
    rfl
  | backward w =>
    simp only [Connector.form, Form.isReversed, if_true, hleft, hright, decl, hc]
    rfl
  | dashes w =>
    simp only [Connector.form, Form.isReversed, Bool.false_eq_true, if_false, hleft, hright, decl, hc]
    rfl
  | single w =>
    simp only [Connector.form, Form.isReversed, Bool.false_eq_true, if_false, hleft, hright, decl, hc]
    rfl

theorem readLine_text (h : l.Proper) : readLine l.text = .ok (some (.edge l.decl), []) := by
  simp only [readLine, matchTitle_text h, matchNode_text h, bind, Except.bind]
  exact matchEdge_text h

theorem decl_of_mirrors (h : l.Mirrors m) : m.decl = l.decl := by
  obtain ⟨long, w, hl, hm⟩ := h.arrows
  simp only [decl, hl, hm, h.left, h.right, h.label]
  rfl

/-- Whatever the names, the blanks, the weight and the label, a proper line declares the edge that is
written in it, and two proper lines that mirror each other declare the same edge. -/
theorem edge_lines_declare_edges (h : l.Proper) :
    readLine l.text = .ok (some (.edge l.decl), []) ∧
      ∀ m : EdgeLine, m.Proper → l.Mirrors m → readLine m.text = readLine l.text := by
  constructor
  · exact readLine_text h
  · intro m hm hmirror
    rw [readLine_text hm, readLine_text h, decl_of_mirrors hmirror]

/-- A weight of twelve, in two scripts. -/
def dozen : Weight := ⟨['1', '٢'], by decide, List.all_eq_true.mp (by decide)⟩

def incoming : EdgeLine :=
  { left := "hub2".toList, before := [' '], connector := .backward (some dozen), after := ['\t', ' '],
    right := "3rd".toList, label := some " ten: two ".toList }

def outgoing : EdgeLine :=
  { left := "3rd".toList, connector := .forward false (some dozen), right := "hub2".toList,
    label := some "ten: two".toList }

theorem incoming_proper : incoming.Proper where
  left := ⟨by decide, by simp [incoming, isBlank], by simp [incoming]⟩
  right := ⟨by decide, by simp [incoming, isBlank], by simp [incoming]⟩
  untitled := by decide
  before := by simp [incoming, isBlank]
  after := by simp [incoming, isBlank]
  keyword := by decide
  limit := by decide

theorem outgoing_proper : outgoing.Proper where
  left := ⟨by decide, by simp [outgoing, isBlank], by simp [outgoing]⟩
  right := ⟨by decide, by simp [outgoing, isBlank], by simp [outgoing]⟩
  untitled := by decide
  before := by simp [outgoing]
  after := by simp [outgoing]
  keyword := by decide
  limit := by decide

theorem incoming_mirrors_outgoing : incoming.Mirrors outgoing :=
  ⟨rfl, rfl, by decide, false, some dozen, rfl, rfl⟩

theorem incoming_and_outgoing_agree :
    readLine "hub2 <-1٢-\t 3rd: ten: two ".toList =
        .ok (some (.edge ⟨"3rd", "hub2", some "ten: two", 12, .arrow⟩), []) ∧
      readLine "3rd-1٢->hub2:ten: two".toList = readLine "hub2 <-1٢-\t 3rd: ten: two ".toList := by
  obtain ⟨hline, hmirror⟩ := edge_lines_declare_edges incoming_proper
  exact ⟨hline, hmirror outgoing outgoing_proper incoming_mirrors_outgoing⟩

end EdgeLine

end NodeLink.Source
