import NodeLink.Proofs.Outcome
import NodeLink.Proofs.Svg.Escaping

/-!
# Markup read back

A reader of markup: elements nest, every tag that is opened is closed by its name, attributes are names with
values in double quotes, and no angle bracket opens inside of a value. It takes the characters one by one.
Written markup is read back as the tree it was written from.
-/

namespace NodeLink

/-- Markup as it is read: runs of text and elements, with texts and values as they stand there. -/
inductive Piece where
  | run (cs : List Char)
  | element (name : List Char) (attrs : List (List Char × List Char)) (children : List Piece)
  deriving Repr

/-- Every value and every run of text is escaped. -/
inductive Piece.Clean : Piece → Prop where
  | run {cs : List Char} (h : Escaped cs) : Clean (.run cs)
  | element {name : List Char} {attrs : List (List Char × List Char)} {children : List Piece}
      (values : ∀ a ∈ attrs, Escaped a.2) (inside : ∀ p ∈ children, Clean p) :
      Clean (.element name attrs children)

/-- A start tag as far as it has been read. -/
structure Tag where
  name : List Char
  attrs : List (List Char × List Char) := []

def Tag.with (tag : Tag) (name value : List Char) : Tag := { tag with attrs := tag.attrs ++ [(name, value)] }

def Tag.element (tag : Tag) (children : List Piece) : Piece := .element tag.name tag.attrs children

/-- A run of text among pieces, nothing if it is empty. -/
def Piece.ofRun (cs : List Char) : List Piece := if cs = [] then [] else [.run cs]

/-- What has been read inside of an element: pieces, and a run of text that may go on. -/
structure Content where
  pieces : List Piece := []
  pending : List Char := []

namespace Content

def all (c : Content) : List Piece := c.pieces ++ Piece.ofRun c.pending
def write (c : Content) (cs : List Char) : Content := { c with pending := c.pending ++ cs }
def put (c : Content) (p : Piece) : Content := ⟨c.all ++ [p], []⟩

structure Clean (c : Content) : Prop where
  pieces : ∀ p ∈ c.pieces, p.Clean
  pending : Escaped c.pending

end Content

/-- Where a reader stands. -/
inductive Mode where
  | content
  /-- Behind an angle bracket. -/
  | opened
  | tagName (name : List Char)
  /-- Behind a blank in a tag. -/
  | blank (tag : Tag)
  | attrName (tag : Tag) (name : List Char)
  /-- Behind an equals sign. -/
  | equals (tag : Tag) (name : List Char)
  | value (tag : Tag) (name value : List Char)
  /-- Behind the quote that ends a value. -/
  | valueEnd (tag : Tag)
  /-- Behind the slash of an empty element. -/
  | slash (tag : Tag)
  | endName (name : List Char)

/-- A reader in some place: what it has read of the innermost open element, and the open elements, innermost
first, each with what stands in front of it. -/
structure Reader where
  mode : Mode := .content
  content : Content := {}
  opened : List (Tag × Content) := []

def isNameChar (c : Char) : Bool := c.isAlphanum || c == '-' || c == ':'

namespace Reader

def goTo (r : Reader) (mode : Mode) : Option Reader := some { r with mode }

/-- Goes on behind the name or a value of a start tag. -/
def inTag (r : Reader) (tag : Tag) (c : Char) : Option Reader :=
  if c = ' ' then r.goTo (.blank tag)
  else if c = '/' then r.goTo (.slash tag)
  else if c = '>' then some ⟨.content, {}, (tag, r.content) :: r.opened⟩
  else none

/-- Ends an element without content. -/
def endEmpty (r : Reader) (tag : Tag) : Reader := ⟨.content, r.content.put (tag.element []), r.opened⟩

/-- Closes the innermost open element, which has to be of the given name. -/
def close (r : Reader) (name : List Char) : Option Reader :=
  match r.opened with
  | [] => none
  | (tag, before) :: more =>
    if tag.name = name then some ⟨.content, before.put (tag.element r.content.all), more⟩ else none

def step (r : Reader) (c : Char) : Option Reader :=
  match r.mode with
  | .content => if c = '<' then r.goTo .opened else some { r with content := r.content.write [c] }
  | .opened =>
    if c = '/' then r.goTo (.endName []) else if isNameChar c then r.goTo (.tagName [c]) else none
  | .tagName name => if isNameChar c then r.goTo (.tagName (name ++ [c])) else r.inTag ⟨name, []⟩ c
  | .blank tag =>
    if c = '/' then r.goTo (.slash tag) else if isNameChar c then r.goTo (.attrName tag [c]) else none
  | .attrName tag name =>
    if isNameChar c then r.goTo (.attrName tag (name ++ [c]))
    else if c = '=' then r.goTo (.equals tag name) else none
  | .equals tag name => if c = '"' then r.goTo (.value tag name []) else none
  | .value tag name value =>
    if c = '"' then r.goTo (.valueEnd (tag.with name value))
    else if c = '<' then none else r.goTo (.value tag name (value ++ [c]))
  | .valueEnd tag => r.inTag tag c
  | .slash tag => if c = '>' then some (r.endEmpty tag) else none
  | .endName name =>
    if isNameChar c then r.goTo (.endName (name ++ [c])) else if c = '>' then r.close name else none

/-- What has been read if nothing is left open. -/
def finished? : Reader → Option (List Piece)
  | ⟨.content, content, []⟩ => some content.all
  | _ => none

end Reader

/-- The tree of a text of markup. -/
def Piece.read (cs : List Char) : Option (List Piece) := (cs.foldlM Reader.step {}).bind Reader.finished?

/-- The name of an element or an attribute. -/
def IsName (cs : List Char) : Prop := cs ≠ [] ∧ ∀ c ∈ cs, isNameChar c = true

instance (cs : List Char) : Decidable (IsName cs) :=
  decidable_of_iff (cs ≠ [] ∧ cs.all isNameChar = true) (by rw [List.all_eq_true, IsName])

theorem IsName.ofList {cs : List Char} (h : IsName cs) : IsName (String.ofList cs).toList := by
  rwa [String.toList_ofList]

namespace Attr

/-- The value as it stands in the markup. -/
def written (a : Attr) : List Char :=
  match a.value with
  | .escaped cs => escapeXml cs
  | .plain cs => cs

def pair (a : Attr) : List Char × List Char := (a.name, a.written)

theorem write_eq (a : Attr) : a.write = ' ' :: a.name ++ '=' :: '"' :: a.written ++ ['"'] := rfl

/-- The name is one, and the value can be written the way it is. -/
structure Sound (a : Attr) : Prop where
  name : IsName a.name
  value : Escaped a.written

end Attr

namespace Markup

/-- Names are names, values can be written the way they are, and nothing is written unread. -/
inductive Sound : Markup → Prop where
  | text (cs : List Char) : Sound (.text cs)
  | empty {name : List Char} {attrs : List Attr} {spaced : Bool} (hn : IsName name)
      (ha : ∀ a ∈ attrs, a.Sound) : Sound (.empty name attrs spaced)
  | element {name : List Char} {attrs : List Attr} {children : List Markup} (hn : IsName name)
      (ha : ∀ a ∈ attrs, a.Sound) (inside : ∀ m ∈ children, Sound m) : Sound (.element name attrs children)

mutual
/-- What is read once the markup stands behind what has been read. -/
def addTo (c : Content) : Markup → Content
  | .text cs => c.write (escapeXml cs)
  | .empty name attrs _ => c.put (.element name (attrs.map Attr.pair) [])
  | .element name attrs children => c.put (.element name (attrs.map Attr.pair) (addAll {} children).all)
  | .verbatim _ => c

def addAll (c : Content) : List Markup → Content
  | [] => c
  | m :: ms => addAll (addTo c m) ms
end

end Markup

namespace Reader

variable {r r' r'' : Reader} {c : Content} {opened : List (Tag × Content)} {tag : Tag} {name : List Char}

/-- The characters take a reader from one state to another. -/
def Runs (r : Reader) (cs : List Char) (r' : Reader) : Prop := cs.foldlM step r = some r'

theorem runs_nil (r : Reader) : Runs r [] r := rfl

theorem Runs.append {as bs : List Char} (h : Runs r as r') (h' : Runs r' bs r'') : Runs r (as ++ bs) r'' := by
  rw [Runs, List.foldlM_append, h]
  exact h'

theorem runs_cons {d : Char} {cs : List Char} (h : r.step d = some r') (h' : Runs r' cs r'') :
    Runs r (d :: cs) r'' := by
  rw [Runs, List.foldlM_cons, h]
  exact h'

theorem runs_char {d : Char} (h : r.step d = some r') : Runs r [d] r' := runs_cons h (runs_nil r')

/-- Characters of a kind that a reader only collects. -/
theorem runs_collect (state : List Char → Reader) {kind : Char → Prop}
    (h : ∀ cs d, kind d → step (state cs) d = some (state (cs ++ [d]))) (before : List Char) {cs : List Char}
    (hcs : ∀ d ∈ cs, kind d) : Runs (state before) cs (state (before ++ cs)) :=
  foldlM_collect state (fun d hd cs => h cs d (hcs d hd)) before

theorem runs_text {cs : List Char} (h : Escaped cs) :
    Runs ⟨.content, c, opened⟩ cs ⟨.content, c.write cs, opened⟩ := by
  have hcollect : ∀ as d, d ≠ '<' ∧ d ≠ '"' → step ⟨.content, c.write as, opened⟩ d =
      some ⟨.content, c.write (as ++ [d]), opened⟩ := by
    intro as d hd
    simp [step, Content.write, hd.1]
  simpa [Content.write] using runs_collect (fun as => ⟨.content, c.write as, opened⟩) hcollect [] h.ne

/-- A name is collected from its first character on, which is no slash. -/
theorem runs_name (state : List Char → Reader) (hn : IsName name)
    (first : ∀ d, d ≠ '/' → isNameChar d = true → r.step d = some (state [d]))
    (more : ∀ cs d, isNameChar d = true → step (state cs) d = some (state (cs ++ [d]))) :
    Runs r name (state name) := by
  obtain ⟨hne, hall⟩ := hn
  obtain ⟨d, ds, rfl⟩ := List.exists_cons_of_ne_nil hne
  obtain ⟨hd, hds⟩ := List.forall_mem_cons.mp hall
  have hslash : d ≠ '/' := by
    rintro rfl
    exact absurd hd (by decide)
  exact runs_cons (first d hslash hd) (runs_collect state more [d] hds)

/-- A reader that stands behind the name or behind a value of the given tag. -/
def In (tag : Tag) (r : Reader) : Prop := ∀ d, isNameChar d = false → r.step d = r.inTag tag d

theorem in_tagName (name : List Char) (c : Content) (opened : List (Tag × Content)) :
    In ⟨name, []⟩ ⟨.tagName name, c, opened⟩ :=
  fun d hd => by simp [step, hd]

theorem in_valueEnd (tag : Tag) : In tag ⟨.valueEnd tag, c, opened⟩ := fun _ _ => rfl

theorem runs_attr {a : Attr} (ha : a.Sound) (hr : In tag r) :
    Runs r a.write ⟨.valueEnd (tag.with a.name a.written), r.content, r.opened⟩ := by
  have hblank : Runs r [' '] ⟨.blank tag, r.content, r.opened⟩ := runs_char (hr ' ' (by decide))
  have hname : Runs ⟨.blank tag, r.content, r.opened⟩ a.name ⟨.attrName tag a.name, r.content, r.opened⟩ :=
    runs_name (fun cs => ⟨.attrName tag cs, r.content, r.opened⟩) ha.name
      (fun d hslash hd => by simp [step, goTo, hslash, hd]) (fun cs d hd => by simp [step, goTo, hd])
  have hequals : Runs ⟨.attrName tag a.name, r.content, r.opened⟩ ['=', '"']
      ⟨.value tag a.name [], r.content, r.opened⟩ := rfl
  have hvalue := runs_collect (fun cs => ⟨.value tag a.name cs, r.content, r.opened⟩)
    (fun cs d hd => by simp [step, goTo, hd.1, hd.2]) [] ha.value.ne
  have hquote : Runs ⟨.value tag a.name a.written, r.content, r.opened⟩ ['"']
      ⟨.valueEnd (tag.with a.name a.written), r.content, r.opened⟩ := rfl
  have hwrite : a.write = [' '] ++ a.name ++ ['=', '"'] ++ a.written ++ ['"'] := by
    simp [Attr.write_eq]
  rw [hwrite]
  exact (((hblank.append hname).append hequals).append hvalue).append hquote

theorem runs_attrs {attrs : List Attr} (h : ∀ a ∈ attrs, a.Sound) (hr : In tag r) :
    ∃ mode, Runs r (attrs.flatMap Attr.write) ⟨mode, r.content, r.opened⟩ ∧
      In ⟨tag.name, tag.attrs ++ attrs.map Attr.pair⟩ ⟨mode, r.content, r.opened⟩ := by
  induction attrs generalizing r tag with
  | nil => exact ⟨r.mode, runs_nil r, by simpa using hr⟩
  | cons a attrs ih =>
    obtain ⟨ha, hattrs⟩ := List.forall_mem_cons.mp h
    obtain ⟨mode, hrun, hin⟩ := ih hattrs (in_valueEnd (tag.with a.name a.written))
    exact ⟨mode, (runs_attr ha hr).append hrun, by simpa [Tag.with, Attr.pair] using hin⟩

theorem runs_start {attrs : List Attr} (hn : IsName name) (ha : ∀ a ∈ attrs, a.Sound) (c : Content)
    (opened : List (Tag × Content)) :
    ∃ mode, Runs ⟨.content, c, opened⟩ ('<' :: name ++ attrs.flatMap Attr.write) ⟨mode, c, opened⟩ ∧
      In ⟨name, attrs.map Attr.pair⟩ ⟨mode, c, opened⟩ := by
  have hopen : Runs ⟨.content, c, opened⟩ ['<'] ⟨.opened, c, opened⟩ := rfl
  have hname : Runs ⟨.opened, c, opened⟩ name ⟨.tagName name, c, opened⟩ :=
    runs_name (fun cs => ⟨.tagName cs, c, opened⟩) hn
      (fun d hslash hd => by simp [step, goTo, hslash, hd]) (fun cs d hd => by simp [step, goTo, hd])
  obtain ⟨mode, hrun, hin⟩ := runs_attrs ha (in_tagName name c opened)
  exact ⟨mode, (hopen.append hname).append hrun, hin⟩

theorem runs_end (hn : IsName name) (attrs : List (List Char × List Char)) (before c : Content)
    (opened : List (Tag × Content)) :
    Runs ⟨.content, c, (⟨name, attrs⟩, before) :: opened⟩ ('<' :: '/' :: name ++ ['>'])
      ⟨.content, before.put (.element name attrs c.all), opened⟩ := by
  have hopen : Runs ⟨.content, c, (⟨name, attrs⟩, before) :: opened⟩ ['<', '/']
      ⟨.endName [], c, (⟨name, attrs⟩, before) :: opened⟩ := rfl
  have hname := runs_collect (fun cs => ⟨.endName cs, c, (⟨name, attrs⟩, before) :: opened⟩)
    (fun cs d hd => by simp [step, goTo, hd]) [] hn.2
  have hclose : Runs ⟨.endName name, c, (⟨name, attrs⟩, before) :: opened⟩ ['>']
      ⟨.content, before.put (.element name attrs c.all), opened⟩ :=
    runs_char (by simp [step, close, Tag.element, isNameChar])
  exact (hopen.append hname).append hclose

end Reader

namespace Markup

open Reader

/-- In whatever place the markup stands, it is read as what it was written from. -/
def Reads (m : Markup) : Prop :=
  ∀ (c : Content) opened, Runs ⟨.content, c, opened⟩ m.write ⟨.content, m.addTo c, opened⟩

theorem reads_text (cs : List Char) : (text cs).Reads := fun _ _ => runs_text (escaped_escapeXml cs)

theorem reads_empty {name : List Char} {attrs : List Attr} (hn : IsName name) (ha : ∀ a ∈ attrs, a.Sound)
    (spaced : Bool) : (empty name attrs spaced).Reads := by
  intro c opened
  obtain ⟨mode, hstart, hin⟩ := runs_start hn ha c opened
  refine hstart.append ?_
  cases spaced with
  | false => exact runs_cons (hin '/' (by decide)) rfl
  | true => exact runs_cons (hin ' ' (by decide)) rfl

theorem reads_all {ms : List Markup} (h : ∀ m ∈ ms, m.Reads) (c : Content) (opened : List (Tag × Content)) :
    Runs ⟨.content, c, opened⟩ (writeAll ms) ⟨.content, addAll c ms, opened⟩ := by
  induction ms generalizing c with
  | nil => exact runs_nil _
  | cons m ms ih =>
    obtain ⟨hm, hms⟩ := List.forall_mem_cons.mp h
    exact (hm c opened).append (ih hms (addTo c m))

theorem reads_element {name : List Char} {attrs : List Attr} {children : List Markup} (hn : IsName name)
    (ha : ∀ a ∈ attrs, a.Sound) (inside : ∀ m ∈ children, m.Reads) : (element name attrs children).Reads := by
  intro c opened
  obtain ⟨mode, hstart, hin⟩ := runs_start hn ha c opened
  have hopen : Runs ⟨mode, c, opened⟩ ['>'] ⟨.content, {}, (⟨name, attrs.map Attr.pair⟩, c) :: opened⟩ :=
    runs_char (hin '>' (by decide))
  have hinside := reads_all inside {} ((⟨name, attrs.map Attr.pair⟩, c) :: opened)
  have hend := runs_end hn (attrs.map Attr.pair) c (addAll {} children) opened
  have hwrite : (element name attrs children).write =
      ('<' :: name ++ attrs.flatMap Attr.write) ++ ['>'] ++ writeAll children ++
        ('<' :: '/' :: name ++ ['>']) := by
    simp [write]
  rw [hwrite]
  exact ((hstart.append hopen).append hinside).append hend

theorem Sound.reads {m : Markup} (h : m.Sound) : m.Reads := by
  induction h with
  | text cs => exact reads_text cs
  | empty hn ha => exact reads_empty hn ha _
  | element hn ha _ ih => exact reads_element hn ha ih

/-- Sound markup that stands alone is read back. -/
theorem read_write {m : Markup} (h : m.Sound) : Piece.read m.write = some (m.addTo {}).all := by
  have hruns := h.reads {} []
  rw [Piece.read, hruns]
  rfl

end Markup

namespace Content

theorem Clean.all {c : Content} (h : c.Clean) : ∀ p ∈ c.all, p.Clean := by
  intro p hp
  rcases List.mem_append.mp hp with hp | hp
  · exact h.pieces p hp
  · unfold Piece.ofRun at hp
    split_ifs at hp
    · cases hp
    · rw [List.mem_singleton.mp hp]
      exact .run h.pending

theorem Clean.put {c : Content} (h : c.Clean) {p : Piece} (hp : p.Clean) : (c.put p).Clean :=
  ⟨List.forall_mem_append.mpr ⟨h.all, by simpa using hp⟩, trivial⟩

theorem Clean.write {c : Content} (h : c.Clean) {cs : List Char} (hcs : Escaped cs) : (c.write cs).Clean :=
  ⟨h.pieces, h.pending.append hcs⟩

theorem clean_empty : Clean {} := ⟨nofun, trivial⟩

end Content

namespace Markup

theorem escaped_pairs {attrs : List Attr} (h : ∀ a ∈ attrs, a.Sound) :
    ∀ a ∈ attrs.map Attr.pair, Escaped a.2 := by
  intro a ha
  obtain ⟨b, hb, rfl⟩ := List.mem_map.mp ha
  exact (h b hb).value

theorem clean_addAll {ms : List Markup} (h : ∀ m ∈ ms, ∀ c : Content, c.Clean → (m.addTo c).Clean) {c : Content}
    (hc : c.Clean) : (addAll c ms).Clean := by
  induction ms generalizing c with
  | nil => exact hc
  | cons m ms ih =>
    obtain ⟨hm, hms⟩ := List.forall_mem_cons.mp h
    exact ih hms (hm c hc)

/-- Sound markup leaves nothing unescaped. -/
theorem Sound.clean {m : Markup} (h : m.Sound) : ∀ c : Content, c.Clean → (m.addTo c).Clean := by
  induction h with
  | text cs => exact fun c hc => hc.write (escaped_escapeXml cs)
  | empty _ ha => exact fun c hc => hc.put (.element (escaped_pairs ha) nofun)
  | element _ ha _ ih =>
    exact fun c hc => hc.put (.element (escaped_pairs ha) (clean_addAll ih Content.clean_empty).all)

end Markup
end NodeLink
