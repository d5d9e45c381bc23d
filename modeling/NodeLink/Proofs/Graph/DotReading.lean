import NodeLink.Graph.Dot
import Mathlib.Data.List.Basic

/-!
# DOT read back

A reader of DOT. Names are words, numerals, characters in double quotes and characters in angle brackets; the
last kind is markup, and no text. In quotes a backslash keeps a quote from ending the name and a second backslash
from meaning anything to what follows, and only the one before a quote is left out of the name. Of the grammar
the reader knows graphs of nodes, edges with ports, attributes and settings, and nothing else is read.
-/

namespace NodeLink.Dot

inductive Name where
  | text (cs : List Char)
  | markup (cs : List Char)
  deriving DecidableEq, Repr

inductive Token where
  | name (n : Name)
  | keyword (cs : List Char)
  | line (directed : Bool)
  | leftBrace
  | rightBrace
  | leftBracket
  | rightBracket
  | equals
  | colon
  | comma
  | semicolon
  deriving DecidableEq, Repr

/-- Where a lexer stands. -/
inductive Spot where
  | between
  | word (cs : List Char)
  | dash
  | numeral (cs : List Char) (pointed : Bool)
  | quoted (cs : List Char)
  /-- Behind a backslash in quotes. -/
  | escape (cs : List Char)
  | markup (cs : List Char) (depth : Nat)
  | slash
  | comment

/-- The tokens that have been read, and where the lexer stands behind them. -/
structure Lexer where
  spot : Spot := .between
  tokens : List Token := []

def isSpace (c : Char) : Bool := c == ' ' || c == '\t' || c == '\n' || c == '\r'

def sign? (c : Char) : Option Token :=
  if c = '\x7b' then some .leftBrace
  else if c = '\x7d' then some .rightBrace
  else if c = '[' then some .leftBracket
  else if c = ']' then some .rightBracket
  else if c = '=' then some .equals
  else if c = ':' then some .colon
  else if c = ',' then some .comma
  else if c = ';' then some .semicolon
  else none

def ofWord (cs : List Char) : Token := if isKeyword cs then .keyword (Text.toSmall cs) else .name (.text cs)

namespace Lexer

def goTo (l : Lexer) (spot : Spot) : Option Lexer := some { l with spot }

def put (l : Lexer) (t : Token) : Lexer := ⟨.between, l.tokens ++ [t]⟩

/-- Begins a token, or passes over a blank. -/
def start (l : Lexer) (c : Char) : Option Lexer :=
  if isSpace c then l.goTo .between
  else if c = '"' then l.goTo (.quoted [])
  else if c = '<' then l.goTo (.markup [] 0)
  else if c = '-' then l.goTo .dash
  else if c = '/' then l.goTo .slash
  else if c = '.' then l.goTo (.numeral ['.'] true)
  else if isAsciiDigit c then l.goTo (.numeral [c] false)
  else if isNameStart c then l.goTo (.word [c])
  else (sign? c).map l.put

def step (l : Lexer) (c : Char) : Option Lexer :=
  match l.spot with
  | .between => l.start c
  | .word cs => if isNameChar c then l.goTo (.word (cs ++ [c])) else (l.put (ofWord cs)).start c
  | .dash =>
    if c = '-' then some (l.put (.line false))
    else if c = '>' then some (l.put (.line true))
    else if c = '.' then l.goTo (.numeral ['-', '.'] true)
    else if isAsciiDigit c then l.goTo (.numeral ['-', c] false)
    else none
  | .numeral cs pointed =>
    if isAsciiDigit c then l.goTo (.numeral (cs ++ [c]) pointed)
    else if c = '.' && !pointed then l.goTo (.numeral (cs ++ ['.']) true)
    else if c = '.' || isNameChar c || !cs.any isAsciiDigit then none
    else (l.put (.name (.text cs))).start c
  | .quoted cs =>
    if c = '"' then some (l.put (.name (.text cs)))
    else if c = '\\' then l.goTo (.escape cs)
    else l.goTo (.quoted (cs ++ [c]))
  | .escape cs =>
    if c = '"' then l.goTo (.quoted (cs ++ ['"']))
    else if c = '\n' then l.goTo (.quoted cs)
    else l.goTo (.quoted (cs ++ ['\\', c]))
  | .markup cs depth =>
    if c = '<' then l.goTo (.markup (cs ++ ['<']) (depth + 1))
    else if c = '>' then
      match depth with
      | 0 => some (l.put (.name (.markup cs)))
      | depth + 1 => l.goTo (.markup (cs ++ ['>']) depth)
    else l.goTo (.markup (cs ++ [c]) depth)
  | .slash => if c = '/' then l.goTo .comment else none
  | .comment => if c = '\n' then l.goTo .between else some l

/-- The tokens of a text that ends here. -/
def finished? (l : Lexer) : Option (List Token) :=
  match l.spot with
  | .between | .comment => some l.tokens
  | .word cs => some (l.tokens ++ [ofWord cs])
  | .numeral cs _ => if cs.any isAsciiDigit then some (l.tokens ++ [.name (.text cs)]) else none
  | _ => none

end Lexer

def tokens (cs : List Char) : Option (List Token) := (cs.foldlM Lexer.step {}).bind Lexer.finished?

/-- The end of an edge, or a node that is named on its own. -/
structure End where
  name : Name
  port : List Name := []
  deriving DecidableEq, Repr

inductive Statement where
  /-- A node, or edges from each end to the next. -/
  | ends (es : List End) (attrs : List (Name × Name))
  | setting (name value : Name)
  deriving DecidableEq, Repr

inductive Stage where
  | body
  | named (es : List End) (e : End)
  | port (es : List End) (e : End)
  | joined (es : List End)
  | setting (n : Name)
  | key (es : List End) (attrs : List (Name × Name))
  | equals (es : List End) (attrs : List (Name × Name)) (key : Name)
  | value (es : List End) (attrs : List (Name × Name)) (key : Name)
  | valueEnd (es : List End) (attrs : List (Name × Name))
  | listed (es : List End) (attrs : List (Name × Name))
  | closed

structure Parser where
  stage : Stage := .body
  statements : List Statement := []

namespace Parser

def goTo (p : Parser) (stage : Stage) : Option Parser := some { p with stage }

def put (p : Parser) (s : Statement) : Parser := ⟨.body, p.statements ++ [s]⟩

/-- Begins a statement or closes the graph. -/
def start (p : Parser) : Token → Option Parser
  | .name n => p.goTo (.named [] ⟨n, []⟩)
  | .semicolon => p.goTo .body
  | .rightBrace => p.goTo .closed
  | _ => none

def step (directed : Bool) (p : Parser) (t : Token) : Option Parser :=
  match p.stage, t with
  | .body, t => p.start t
  | .named es e, .colon => if e.port.length < 2 then p.goTo (.port es e) else none
  | .named es e, .equals => if es = [] ∧ e.port = [] then p.goTo (.setting e.name) else none
  | .named es e, .leftBracket => p.goTo (.key (es ++ [e]) [])
  | .named es e, .line arrow => if arrow = directed then p.goTo (.joined (es ++ [e])) else none
  | .named es e, t => (p.put (.ends (es ++ [e]) [])).start t
  | .port es e, .name n => p.goTo (.named es { e with port := e.port ++ [n] })
  | .joined es, .name n => p.goTo (.named es ⟨n, []⟩)
  | .setting n, .name value => some (p.put (.setting n value))
  | .key es attrs, .name key => p.goTo (.equals es attrs key)
  | .key es attrs, .rightBracket => p.goTo (.listed es attrs)
  | .equals es attrs key, .equals => p.goTo (.value es attrs key)
  | .value es attrs key, .name value => p.goTo (.valueEnd es (attrs ++ [(key, value)]))
  | .valueEnd es attrs, .name key => p.goTo (.equals es attrs key)
  | .valueEnd es attrs, .comma => p.goTo (.key es attrs)
  | .valueEnd es attrs, .semicolon => p.goTo (.key es attrs)
  | .valueEnd es attrs, .rightBracket => p.goTo (.listed es attrs)
  | .listed es attrs, .leftBracket => p.goTo (.key es attrs)
  | .listed es attrs, t => (p.put (.ends es attrs)).start t
  | _, _ => none

def finished? (p : Parser) : Option (List Statement) :=
  match p.stage with
  | .closed => some p.statements
  | _ => none

end Parser

structure Document where
  directed : Bool
  name : Option Name
  statements : List Statement
  deriving DecidableEq, Repr

namespace Document

def ofBody (directed : Bool) (name : Option Name) (body : List Token) : Option Document := do
  return ⟨directed, name, ← (← body.foldlM (Parser.step directed) {}).finished?⟩

def kind? (cs : List Char) : Option Bool :=
  if cs = "graph".toList then some false else if cs = "digraph".toList then some true else none

def ofTokens : List Token → Option Document
  | .keyword kind :: .name n :: .leftBrace :: body => do ofBody (← kind? kind) (some n) body
  | .keyword kind :: .leftBrace :: body => do ofBody (← kind? kind) none body
  | _ => none

/-- The graph that a DOT text tells of. -/
def read (cs : List Char) : Option Document := (tokens cs).bind ofTokens

end Document

/-! ### What is read of tokens one behind the other -/

/-- The lexer has read the tokens, and the last of them ends with the next character or with the text. -/
structure Stands (ts : List Token) (l : Lexer) : Prop where
  next : ∀ c, isNameChar c = false → c ≠ '.' → l.step c = Lexer.start ⟨.between, ts⟩ c
  finished : l.finished? = some ts

/-- Wherever the characters stand behind other tokens, they are read as the given ones. -/
def Reads (cs : List Char) (ts : List Token) : Prop :=
  ∀ before, ∃ l, cs.foldlM Lexer.step ⟨.between, before⟩ = some l ∧ Stands (before ++ ts) l

variable {cs as bs : List Char} {ts us : List Token} {c : Char}

theorem stands_between (ts : List Token) : Stands ts ⟨.between, ts⟩ := ⟨fun _ _ _ => rfl, rfl⟩

theorem Reads.tokens (h : Reads cs ts) : tokens cs = some ts := by
  obtain ⟨l, hl, hstands⟩ := h []
  rw [Dot.tokens, hl]
  exact hstands.finished

theorem reads_nil : Reads [] [] := fun before => ⟨⟨.between, before⟩, rfl, by simpa using stands_between before⟩

/-- A token ends where a character follows that belongs to no word and no numeral. -/
theorem Reads.append (ha : Reads as ts) (hname : isNameChar c = false) (hpoint : c ≠ '.')
    (hb : Reads (c :: bs) us) : Reads (as ++ c :: bs) (ts ++ us) := by
  intro before
  obtain ⟨l, hl, hstands⟩ := ha before
  obtain ⟨l', hl', hstands'⟩ := hb (before ++ ts)
  refine ⟨l', ?_, by rwa [← List.append_assoc]⟩
  have hstep : l.step c = Lexer.step ⟨.between, before ++ ts⟩ c := hstands.next c hname hpoint
  rw [List.foldlM_append, hl, ← hl', List.foldlM_cons, ← hstep]
  rfl

/-- Characters that end a token themselves may stand in front of any others. -/
theorem reads_of_step (cs : List Char) (ts : List Token)
    (h : ∀ before, cs.foldlM Lexer.step ⟨.between, before⟩ = some ⟨.between, before ++ ts⟩)
    (hb : Reads bs us) : Reads (cs ++ bs) (ts ++ us) := by
  intro before
  obtain ⟨l, hl, hstands⟩ := hb (before ++ ts)
  refine ⟨l, ?_, by rwa [← List.append_assoc]⟩
  rw [List.foldlM_append, h before]
  exact hl

theorem Reads.space (h : Reads bs us) (hc : isSpace c = true) : Reads (c :: bs) us := by
  refine reads_of_step [c] [] (fun before => ?_) h
  simp [Lexer.step, Lexer.start, Lexer.goTo, hc]

/-- The characters that are tokens of their own. -/
def signs : List Char := ['\x7b', '\x7d', '[', ']', '=', ':', ',', ';']

theorem start_sign (hc : c ∈ signs) (l : Lexer) : l.start c = (sign? c).map l.put := by
  simp only [signs, List.mem_cons, List.not_mem_nil, or_false] at hc
  rcases hc with rfl | rfl | rfl | rfl | rfl | rfl | rfl | rfl <;> rfl

theorem Reads.sign {t : Token} (h : Reads bs us) (hc : c ∈ signs) (ht : sign? c = some t) :
    Reads (c :: bs) (t :: us) := by
  refine reads_of_step [c] [t] (fun before => ?_) h
  have hstep : Lexer.step ⟨.between, before⟩ c = some ⟨.between, before ++ [t]⟩ := by
    rw [Lexer.step, start_sign hc, ht]
    rfl
  rw [List.foldlM_cons, hstep]
  rfl

theorem Reads.line (h : Reads bs us) (directed : Bool) :
    Reads ((if directed then ['-', '>'] else ['-', '-']) ++ bs) (.line directed :: us) := by
  refine reads_of_step _ [.line directed] (fun before => ?_) h
  cases directed <;> rfl

theorem Reads.comment (h : Reads bs us) (hline : '\n' ∉ cs) : Reads ('/' :: '/' :: cs ++ '\n' :: bs) us := by
  rw [List.append_cons]
  refine reads_of_step _ [] (fun before => ?_) h
  rw [List.append_nil]
  change (cs ++ ['\n']).foldlM Lexer.step ⟨.comment, before⟩ = _
  induction cs with
  | nil => rfl
  | cons c cs ih =>
    obtain ⟨hbreak, hline⟩ := not_or.mp (mt List.mem_cons.mpr hline)
    rw [List.cons_append, List.foldlM_cons, Lexer.step, if_neg (Ne.symm hbreak)]
    exact ih hline

end NodeLink.Dot
