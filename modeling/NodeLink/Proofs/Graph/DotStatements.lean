import NodeLink.Proofs.Graph.DotNames
import NodeLink.Proofs.Graph.Writing
import NodeLink.Proofs.Source.Characters
import NodeLink.Proofs.Svg.PlainTexts

/-!
# The statements of a DOT text

Every line of a node or of an edge is read as one statement, with the names of its ends and without ports. The text of
a graph whose names are literal is read as its nodes and edges, in order.
-/

namespace NodeLink.Dot

/-! ### Statements -/

/-- A statement with attributes, its ends without ports. -/
structure Sentence where
  head : Name
  more : List Name := []
  attrs : List (Name × Name)

namespace Sentence

def names (s : Sentence) : List Name := s.head :: s.more

def attrTokens (attrs : List (Name × Name)) : List Token :=
  attrs.flatMap fun attr => [.name attr.1, .equals, .name attr.2]

def tokens (directed : Bool) (s : Sentence) : List Token :=
  .name s.head :: (s.more.flatMap (fun n => [.line directed, .name n]) ++ .leftBracket ::
    (attrTokens s.attrs ++ [.rightBracket]))

def statement (s : Sentence) : Statement := .ends (s.names.map fun n => ⟨n, []⟩) s.attrs

end Sentence

/-- The parser has read the statements, and with the next name or the last brace it says so. -/
def Settled (directed : Bool) (ss : List Statement) (p : Parser) : Prop :=
  ∀ t, (∃ n, t = .name n) ∨ t = .rightBrace → p.step directed t = Parser.start ⟨.body, ss⟩ t

variable {directed : Bool} {ss : List Statement} {es : List End}

theorem settled_body (ss : List Statement) : Settled directed ss ⟨.body, ss⟩ := fun _ _ => rfl

theorem settled_listed (attrs : List (Name × Name)) :
    Settled directed (ss ++ [.ends es attrs]) ⟨.listed es attrs, ss⟩ := by
  rintro t (⟨n, rfl⟩ | rfl)
  · rfl
  · rfl

theorem foldlM_ends (n : Name) (ns : List Name) :
    (ns.flatMap (fun n => [Token.line directed, .name n]) ++ [Token.leftBracket]).foldlM (Parser.step directed)
      ⟨.named es ⟨n, []⟩, ss⟩ = some ⟨.key (es ++ (n :: ns).map fun n => ⟨n, []⟩) [], ss⟩ := by
  induction ns generalizing n es with
  | nil => rfl
  | cons m ns ih =>
    have hline : Parser.step directed ⟨.named es ⟨n, []⟩, ss⟩ (.line directed) =
        some ⟨.joined (es ++ [⟨n, []⟩]), ss⟩ := by simp [Parser.step, Parser.goTo]
    rw [List.flatMap_cons, List.append_assoc, List.foldlM_append, List.foldlM_cons, hline, List.map_cons,
      List.append_cons es _ ((m :: ns).map _)]
    exact ih m

theorem foldlM_attrs (stage : Stage) (attrs more : List (Name × Name))
    (h : stage = .key es attrs ∨ stage = .valueEnd es attrs) :
    (Sentence.attrTokens more ++ [Token.rightBracket]).foldlM (Parser.step directed) ⟨stage, ss⟩ =
      some ⟨.listed es (attrs ++ more), ss⟩ := by
  induction more generalizing stage attrs with
  | nil =>
    rw [List.append_nil]
    rcases h with rfl | rfl <;> rfl
  | cons attr more ih =>
    have hattr : [Token.name attr.1, .equals, .name attr.2].foldlM (Parser.step directed) ⟨stage, ss⟩ =
        some ⟨.valueEnd es (attrs ++ [attr]), ss⟩ := by rcases h with rfl | rfl <;> rfl
    rw [Sentence.attrTokens, List.flatMap_cons, List.append_assoc, List.foldlM_append, hattr,
      List.append_cons attrs attr more]
    exact ih _ _ (Or.inr rfl)

theorem foldlM_sentence {p : Parser} (h : Settled directed ss p) (s : Sentence) :
    ∃ p', (s.tokens directed).foldlM (Parser.step directed) p = some p' ∧
      Settled directed (ss ++ [s.statement]) p' := by
  refine ⟨_, ?_, settled_listed s.attrs⟩
  have hname : p.step directed (.name s.head) = some ⟨.named [] ⟨s.head, []⟩, ss⟩ := h _ (Or.inl ⟨_, rfl⟩)
  rw [Sentence.tokens, List.foldlM_cons, hname, List.append_cons _ Token.leftBracket]
  refine (List.foldlM_append (l := _ ++ [Token.leftBracket])).trans ?_
  rw [foldlM_ends]
  exact foldlM_attrs _ [] s.attrs (Or.inl rfl)

theorem foldlM_sentences {p : Parser} (h : Settled directed ss p) (sentences : List Sentence) :
    ∃ p', (sentences.flatMap (Sentence.tokens directed)).foldlM (Parser.step directed) p = some p' ∧
      Settled directed (ss ++ sentences.map Sentence.statement) p' := by
  induction sentences generalizing p ss with
  | nil => exact ⟨p, rfl, by simpa using h⟩
  | cons s sentences ih =>
    obtain ⟨next, hnext, hsettled⟩ := foldlM_sentence h s
    obtain ⟨p', hp', hsettled'⟩ := ih hsettled
    refine ⟨p', ?_, by rwa [List.map_cons, List.append_cons]⟩
    rw [List.flatMap_cons, List.foldlM_append, hnext]
    exact hp'

/-- Statements one behind the other, up to the last brace, are read as what they are. -/
theorem Document.ofBody_sentences (directed : Bool) (name : Option Name) (sentences : List Sentence) :
    ofBody directed name (sentences.flatMap (Sentence.tokens directed) ++ [.rightBrace]) =
      some ⟨directed, name, sentences.map Sentence.statement⟩ := by
  obtain ⟨p, hp, hsettled⟩ := foldlM_sentences (settled_body []) sentences
  have hclose : p.step directed .rightBrace = some ⟨.closed, sentences.map Sentence.statement⟩ :=
    hsettled _ (Or.inr rfl)
  rw [ofBody, List.foldlM_append, hp]
  change (do return (⟨directed, name, ← (← [Token.rightBrace].foldlM (Parser.step directed) p).finished?⟩ : Document)) =
    _
  rw [List.foldlM_cons, hclose]
  rfl

/-! ### Lines -/

/-- A text that is one name in DOT. -/
structure Nameable (cs : List Char) : Prop where
  line : '\n' ∉ cs
  whole : Whole cs

theorem Nameable.reads {cs : List Char} (h : Nameable cs) : Reads (quote cs) [.name (nameOf cs)] :=
  reads_quote h.line h.whole

theorem nameable_of_plain {cs : List Char} (h : Plain cs) : Nameable cs := by
  have hno (c : Char) (hc : isPlain c = false) : c ∉ cs := by
    intro hmem
    rw [h c hmem] at hc
    cases hc
  have hopen : isBracketed cs = false := by
    cases hb : isBracketed cs with
    | false => rfl
    | true =>
      obtain ⟨rest, rfl⟩ := isBracketed_cases hb
      exact absurd List.mem_cons_self (hno '<' rfl)
  refine ⟨hno _ rfl, ?_⟩
  rw [Whole, hopen, if_neg Bool.false_ne_true]
  exact endsPaired_of_clean (hno _ rfl)

/-- The text of a value is one name, if the value is a text. -/
def NameableJson (value : Json) : Prop := ∀ s, value = .text s → Nameable s.toList

theorem nameableJson_text {s : String} (h : Nameable s.toList) : NameableJson (.text s) := by
  intro s' hs
  cases hs
  exact h

theorem nameableJson_plain {s : String} (h : Plain s.toList) : NameableJson (.text s) :=
  nameableJson_text (nameable_of_plain h)

/-- A name with a value. -/
def IsAssignment (cs : List Char) : Prop := ∃ attr : Name × Name, Reads cs (Sentence.attrTokens [attr])

theorem isAssignment {key value : List Char} (hk : Nameable key) (hv : Nameable value) :
    IsAssignment (quote key ++ '=' :: quote value) := by
  exact ⟨(nameOf key, nameOf value), hk.reads.append (by decide) (by decide) (hv.reads.sign (by decide) rfl)⟩

theorem assignments_read {attrs : List Attribute} {parts : List (List Char)} (h : assignments attrs = .ok parts)
    (hattrs : ∀ a ∈ attrs, Plain a.1.toList ∧ NameableJson a.2) : ∀ part ∈ parts, IsAssignment part := by
  intro part hpart
  obtain ⟨a, ha, hassigned⟩ := exists_of_forall₂ (mapM_eq_ok h) hpart
  rw [sorted, List.mem_mergeSort] at ha
  obtain ⟨hkey, hvalue⟩ := hattrs a (List.mem_of_mem_filter ha)
  obtain ⟨value, hquoted, he⟩ := bind_eq_ok hassigned
  cases he
  cases hjson : a.2 with
  | text s =>
    rw [hjson] at hquoted
    cases hquoted
    exact isAssignment (nameable_of_plain hkey) (hvalue s hjson)
  | _ =>
    rw [hjson] at hquoted
    cases hquoted

theorem labelled_read {s : String} {attrs : List Attribute} {parts : List (List Char)}
    (h : labelled (.text s) attrs = .ok parts) (hs : Nameable s.toList)
    (hattrs : ∀ a ∈ attrs, Plain a.1.toList ∧ NameableJson a.2) :
    parts ≠ [] ∧ ∀ part ∈ parts, IsAssignment part := by
  obtain ⟨rest, hrest, he⟩ := bind_eq_ok (x := assignments attrs) (f := fun rest =>
    .ok (["label=".toList ++ quote s.toList] ++ rest)) h
  cases he
  refine ⟨List.cons_ne_nil _ _, List.forall_mem_cons.mpr ⟨?_, assignments_read hrest hattrs⟩⟩
  have hkey : Nameable "label".toList := nameable_of_plain (.ofList (by decide))
  exact isAssignment hkey hs

theorem spaced_read {parts : List (List Char)} (h : ∀ part ∈ parts, IsAssignment part) :
    ∃ attrs, Reads (spaced parts) (Sentence.attrTokens attrs) := by
  induction parts with
  | nil => exact ⟨[], reads_nil⟩
  | cons part parts ih =>
    obtain ⟨⟨attr, hattr⟩, hparts⟩ := List.forall_mem_cons.mp h
    obtain ⟨attrs, hattrs⟩ := ih hparts
    cases parts with
    | nil => exact ⟨[attr], hattr⟩
    | cons next parts =>
      refine ⟨attr :: attrs, ?_⟩
      have hboth := hattr.append (c := ' ') (by decide) (by decide) (hattrs.space (by decide))
      simpa [Sentence.attrTokens, spaced] using hboth

theorem bracketed_read {parts : List (List Char)} (hne : parts ≠ []) (h : ∀ part ∈ parts, IsAssignment part) :
    ∃ attrs rest, bracketed parts = ' ' :: rest ∧
      Reads rest (.leftBracket :: (Sentence.attrTokens attrs ++ [.rightBracket])) := by
  obtain ⟨attrs, hattrs⟩ := spaced_read h
  have hclose : Reads [']'] [.rightBracket] := reads_nil.sign (by decide) rfl
  have hinside := hattrs.append (c := ']') (by decide) (by decide) hclose
  refine ⟨attrs, '[' :: (spaced parts ++ [']']), ?_, hinside.sign (by decide) rfl⟩
  rw [bracketed, List.isEmpty_eq_false_iff.mpr hne, if_neg Bool.false_ne_true]
  rfl

/-- A line is read as a statement. -/
def Tells (directed : Bool) (line : List Char) (s : Sentence) : Prop :=
  ∃ content, line = content ++ ['\n'] ∧ Reads content (s.tokens directed)

theorem Tells.reads {line bs : List Char} {us : List Token} {s : Sentence} (h : Tells directed line s)
    (hb : Reads bs us) : Reads (line ++ bs) (s.tokens directed ++ us) := by
  obtain ⟨content, rfl, hread⟩ := h
  rw [← List.append_cons]
  exact hread.append (by decide) (by decide) (hb.space (by decide))

theorem lines_read {lines : List (List Char)} {sentences : List Sentence} {bs : List Char} {us : List Token}
    (h : List.Forall₂ (Tells directed) lines sentences) (hb : Reads bs us) :
    Reads (lines.flatten ++ bs) (sentences.flatMap (Sentence.tokens directed) ++ us) := by
  induction h with
  | nil => exact hb
  | cons hline _ ih =>
    rw [List.flatten_cons, List.flatMap_cons, List.append_assoc, List.append_assoc]
    exact hline.reads ih

/-! ### The lines of nodes and edges -/

theorem hexValue?_cases {c : Char} (h : (Text.hexValue? c).isSome = true) : isPlain c = true := by
  have hlow : c.toNat < 128 := by
    unfold Text.hexValue? at h
    split_ifs at h with hdigit hsmall hbig
    · exact Nat.lt_of_le_of_lt (show c.toNat ≤ 57 from hdigit.2) (by decide)
    · exact Nat.lt_of_le_of_lt (show c.toNat ≤ 102 from hsmall.2) (by decide)
    · exact Nat.lt_of_le_of_lt (show c.toNat ≤ 70 from hbig.2) (by decide)
    · cases h
  revert h
  refine forall_ascii c hlow ?_
  decide +kernel

theorem shortHex?_digits {cs ds : List Char} (h : shortHex? cs = some ds) : Plain ds := by
  unfold shortHex? at h
  split at h
  · split_ifs at h with hall
    cases h
    exact fun c hc => hexValue?_cases (List.all_eq_true.mp hall c hc)
  · cases h

theorem longColor_nameable {color long : Json} (h : longColor color = .ok long) (hc : NameableJson color) :
    NameableJson long := by
  unfold longColor at h
  split_ifs at h
  · cases h
    exact hc
  · split at h
    · cases h
      split
      · rename_i ds hds
        have hdigits := shortHex?_digits hds
        refine nameableJson_plain ?_
        rw [String.toList_ofList]
        refine plain_cons.mpr ⟨by decide, fun c hmem => ?_⟩
        obtain ⟨d, hd, hcd⟩ := List.mem_flatMap.mp hmem
        simp only [List.mem_cons, List.not_mem_nil, or_false, or_self] at hcd
        exact hcd ▸ hdigits d hd
      · exact hc
    · cases h

theorem position_nameable {n : Node} {attrs : List Attribute} (h : position n = .ok attrs) :
    ∀ a ∈ attrs, Plain a.1.toList ∧ NameableJson a.2 := by
  unfold position at h
  split_ifs at h
  · obtain ⟨x, hx, h⟩ := bind_eq_ok h
    obtain ⟨y, hy, h⟩ := bind_eq_ok h
    cases h
    refine List.forall_mem_singleton.mpr ⟨.ofList (by decide), nameableJson_plain ?_⟩
    rw [String.toList_ofList]
    exact plain_append.mpr ⟨Value.plain_places4 hx, plain_cons.mpr ⟨by decide, Value.plain_places4 hy⟩⟩
  · cases h
    exact nofun

theorem nodeLine_tells {n : Node} {line : List Char} {id label : String} (h : nodeLine n = .ok line)
    (hid : n.id = .text id) (hname : Nameable id.toList) (hlabel : n.label = .text label)
    (hcaption : Nameable label.toList) (hcolor : NameableJson n.color) (directed : Bool) :
    ∃ attrs, Tells directed line ⟨nameOf id.toList, [], attrs⟩ := by
  obtain ⟨diameter, -, h⟩ := bind_eq_ok h
  obtain ⟨color, hlong, h⟩ := bind_eq_ok h
  obtain ⟨size, hsize, h⟩ := bind_eq_ok h
  obtain ⟨pos, hpos, h⟩ := bind_eq_ok h
  obtain ⟨name, hquoted, h⟩ := bind_eq_ok h
  obtain ⟨parts, hparts, h⟩ := bind_eq_ok h
  cases h
  rw [hid] at hquoted
  cases hquoted
  rw [hlabel] at hparts
  have hattrs : ∀ a ∈ [("shape", Json.text "circle"), ("style", .text "filled"), ("fillcolor", color),
      ("width", .text (String.ofList size)), ("height", .text (String.ofList size)), ("fixedsize", .text "true")] ++ pos,
      Plain a.1.toList ∧ NameableJson a.2 := by
    have hsize' : NameableJson (.text (String.ofList size)) := by
      refine nameableJson_plain ?_
      rw [String.toList_ofList]
      exact Value.plain_places4 hsize
    refine List.forall_mem_append.mpr ⟨?_, position_nameable hpos⟩
    simp only [List.forall_mem_cons, List.not_mem_nil, false_imp_iff, implies_true, and_true]
    exact ⟨⟨.ofList (by decide), nameableJson_plain (.ofList (by decide))⟩,
      ⟨.ofList (by decide), nameableJson_plain (.ofList (by decide))⟩,
      ⟨.ofList (by decide), longColor_nameable hlong hcolor⟩, ⟨.ofList (by decide), hsize'⟩,
      ⟨.ofList (by decide), hsize'⟩, ⟨.ofList (by decide), nameableJson_plain (.ofList (by decide))⟩⟩
  obtain ⟨hne, hall⟩ := labelled_read hparts hcaption hattrs
  obtain ⟨attrs, rest, hrest, hread⟩ := bracketed_read hne hall
  refine ⟨attrs, '\t' :: (quote id.toList ++ ' ' :: rest), ?_, ?_⟩
  · rw [hrest]
    simp
  · exact (hname.reads.append (by decide) (by decide) (hread.space (by decide))).space (by decide)

theorem quoteEnd_of_no_colon {cs : List Char} (h : ':' ∉ cs) : quoteEnd cs = quote cs := by
  have hall : ∀ c ∈ cs, decide (c ≠ ':') = true := by
    intro c hc
    rw [decide_eq_true_eq]
    rintro rfl
    exact h hc
  have hnode : cs.takeWhile (· ≠ ':') = cs := List.takeWhile_eq_self_iff.mpr hall
  have hrest : cs.dropWhile (· ≠ ':') = [] := List.dropWhile_eq_nil_iff.mpr hall
  rw [quoteEnd, hnode, hrest]
  rfl

theorem direction_nameable (kind : EdgeKind) : ∀ a ∈ direction kind, Plain a.1.toList ∧ NameableJson a.2 := by
  unfold direction
  split_ifs
  · exact List.forall_mem_singleton.mpr ⟨.ofList (by decide), nameableJson_plain (.ofList (by decide))⟩
  · exact nofun
  · exact List.forall_mem_singleton.mpr ⟨.ofList (by decide), nameableJson_plain (.ofList (by decide))⟩

theorem orElse_nameable {label : Json} (h : NameableJson label) (hcaption : label.IsCaption) :
    ∃ s, label.orElse (.text "") = .text s ∧ Nameable s.toList := by
  rcases hcaption with rfl | ⟨s, rfl⟩
  · exact ⟨"", rfl, nameable_of_plain (.ofList nofun)⟩
  · unfold Json.orElse
    split_ifs
    · exact ⟨s, rfl, h s rfl⟩
    · exact ⟨"", rfl, nameable_of_plain (.ofList nofun)⟩

/-- A name at the end of an edge, where a colon would begin a port. -/
structure EndName (cs : List Char) : Prop extends Nameable cs where
  colon : ':' ∉ cs

theorem EndName.reads {cs : List Char} (h : EndName cs) : Reads (quoteEnd cs) [.name (nameOf cs)] := by
  rw [quoteEnd_of_no_colon h.colon]
  exact h.toNameable.reads

theorem edgeLine_tells {e : Edge} {line : List Char} {source target : String} {weight : Nat}
    (h : edgeLine directed e = .ok line) (hs : e.source = .text source) (hsource : EndName source.toList)
    (ht : e.target = .text target) (htarget : EndName target.toList) (hsize : e.size = .whole weight)
    (hlabel : NameableJson e.label) (hcaption : e.label.IsCaption) :
    ∃ attrs, Tells directed line ⟨nameOf source.toList, [nameOf target.toList], attrs⟩ := by
  obtain ⟨first, hfirst, h⟩ := bind_eq_ok h
  obtain ⟨second, hsecond, h⟩ := bind_eq_ok h
  obtain ⟨parts, hparts, h⟩ := bind_eq_ok h
  cases h
  rw [hs] at hfirst
  cases hfirst
  rw [ht] at hsecond
  cases hsecond
  obtain ⟨label, hgiven, hname⟩ := orElse_nameable hlabel hcaption
  rw [hgiven, hsize] at hparts
  have hwidth : NameableJson (.text (Fault.textOf (.whole weight))) := by
    refine nameableJson_plain ?_
    rw [Fault.textOf, String.toList_ofList]
    change Plain (Json.shown (.number (.whole weight)))
    rw [Json.shown, Number.text]
    exact FixedText.plain_signed (plain_digitsOf _) _
  have hattrs : ∀ a ∈ [("penwidth", Json.text (Fault.textOf (.whole weight)))] ++
      (if directed then direction e.kind else []), Plain a.1.toList ∧ NameableJson a.2 := by
    refine List.forall_mem_append.mpr ⟨List.forall_mem_singleton.mpr ⟨.ofList (by decide), hwidth⟩, ?_⟩
    split_ifs
    · exact direction_nameable e.kind
    · exact nofun
  obtain ⟨hne, hall⟩ := labelled_read hparts hname hattrs
  obtain ⟨attrs, rest, hrest, hread⟩ := bracketed_read hne hall
  have hright := (htarget.reads.append (by decide) (by decide) (hread.space (c := ' ') (by decide))).space (c := ' ')
    (by decide)
  have hline := hsource.reads.append (by decide) (by decide) ((hright.line directed).space (c := ' ') (by decide))
  refine ⟨attrs, '\t' :: _, ?_, hline.space (by decide)⟩
  rw [hrest]
  cases directed <;> simp

end NodeLink.Dot
