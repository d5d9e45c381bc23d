import NodeLink.CommandLine.Option

/-!
# Reading the arguments

Arguments are first told apart: options, plain arguments, and the mark of two dashes, after which everything
is plain. Then they are taken in from left to right; the first plain one that belongs to no option is the
input.
-/

namespace NodeLink.CommandLine

open NodeLink.Text

/-- What stands behind the name of an option in one argument with it: nothing, a value, or characters behind
a short name that are a value or further short options. -/
inductive Tail where
  | none
  | value (text : List Char)
  | joined (text : List Char)
  deriving Repr

inductive Token where
  | plain (text : List Char)
  | mark
  | option (flag : Flag) (tail : Tail)
  | unknown (text : List Char)
  deriving Repr

namespace Token

/-- The text before the first equals sign, and what stands behind it. -/
def cutEquals (text : List Char) : List Char × Tail :=
  match cutAt? ['='] text with
  | some (before, after) => (before, .value after)
  | none => (text, .none)

/-- The known names that an argument may stand for, with what stands behind them: those that a long name is
the beginning of, or the short name in front. -/
def candidates (text : List Char) : List (List Char × Flag × Tail) :=
  if startsWith ['-', '-'] text then
    let (stem, tail) := cutEquals text
    (Flag.named.filter fun entry => startsWith stem entry.1).map fun entry => (entry.1, entry.2, tail)
  else
    (Flag.named.filter fun entry => entry.1 == text.take 2).map fun entry =>
      (entry.1, entry.2, .joined (text.drop 2))

def isShort (name : List Char) : Bool := !startsWith ['-', '-'] name

/-- What stands behind an equals sign. After a short name, characters are as good as joined to it. -/
def behind (name : List Char) : Tail → Tail
  | .value (c :: cs) => if isShort name then .joined (c :: cs) else .value (c :: cs)
  | tail => tail

/-- Whether a text is a minus and a plain decimal: digits, or a point with digits behind it. A line feed may
follow. -/
def isNegativeNumber (text : List Char) : Bool :=
  match text with
  | '-' :: cs =>
    let cs := match cs.reverse with
      | '\n' :: front => front.reverse
      | _ => cs
    match cs.dropWhile isDigit with
    | [] => !cs.isEmpty
    | '.' :: places => !places.isEmpty && places.all isDigit
    | _ => false
  | _ => false

/-- An argument that begins with a dash and is no known name as it stands. -/
def ofDashed (text : List Char) : Except Stop Token :=
  match candidates text with
  | [(_, flag, tail)] => .ok (.option flag tail)
  | [] => .ok (if isNegativeNumber text || text.contains ' ' then .plain text else .unknown text)
  | several => .error (.misuse (.ambiguous text (several.map (·.1))))

/-- What an argument before the mark may be. -/
def ofText (text : List Char) : Except Stop Token :=
  if !startsWith ['-'] text || text.length = 1 then .ok (.plain text)
  else match Flag.ofName? text with
    | some flag => .ok (.option flag .none)
    | none =>
      let (name, tail) := cutEquals text
      match Flag.ofName? name with
      | some flag => .ok (.option flag (behind name tail))
      | none => ofDashed text

def ofTexts : List (List Char) → Except Stop (List Token)
  | [] => .ok []
  | text :: texts =>
    if text = ['-', '-'] then .ok (.mark :: texts.map .plain)
    else do
      let token ← ofText text
      return token :: (← ofTexts texts)

end Token

abbrev Setting := Flag × Option (List Char)

/-- What an option comes to: settings, and the arguments after it. -/
structure Taken where
  settings : List Setting
  rest : List Token

/-- An option with nothing behind its name; its value is the argument after it. -/
def takeLone (flag : Flag) (rest : List Token) : Except Stop Taken :=
  if flag.takesValue then
    match rest with
    | .plain value :: rest => .ok { settings := [(flag, some value)], rest }
    | _ => .error (.misuse (.noValue flag))
  else .ok { settings := [(flag, none)], rest }

/-- An option with a value in the same argument. -/
def takeValue (flag : Flag) (value : List Char) (rest : List Token) : Except Stop Taken :=
  if flag.takesValue then .ok { settings := [(flag, some value)], rest }
  else .error (.misuse (.strayValue flag value))

/-- A short option with characters joined to it: its value, or short options one after the other, of which
the last one may take a value. -/
def takeJoined (flag : Flag) (rest : List Token) : List Char → Except Stop Taken
  | [] => takeLone flag rest
  | c :: cs =>
    if flag.takesValue then .ok { settings := [(flag, some (c :: cs))], rest }
    else match Flag.ofName? ['-', c] with
      | none => .error (.misuse (.strayValue flag (c :: cs)))
      | some next => do
        let taken ← takeJoined next rest cs
        return { taken with settings := (flag, none) :: taken.settings }

def takeOption (flag : Flag) (rest : List Token) : Tail → Except Stop Taken
  | .none => takeLone flag rest
  | .value value => takeValue flag value rest
  | .joined cs => takeJoined flag rest cs

/-- The arguments read so far: the input if there was one, the settings, and what belongs nowhere. -/
structure Reading where
  input : Option (List Char) := none
  settings : Arguments := { input := [] }
  strays : List (List Char) := []

/-- Takes tokens in from left to right. The fuel bounds their number. -/
def readTokens : Nat → Reading → List Token → Except Stop Reading
  | 0, r, _ => .ok r
  | _ + 1, r, [] => .ok r
  | fuel + 1, r, token :: rest =>
    match token, rest, r.input with
    | .plain text, .mark :: rest, none => readTokens fuel { r with input := some text } rest
    | .plain text, rest, none => readTokens fuel { r with input := some text } rest
    | .plain text, rest, some _ => readTokens fuel { r with strays := r.strays ++ [text] } rest
    | .mark, .plain text :: rest, none => readTokens fuel { r with input := some text } rest
    | .mark, rest, _ => readTokens fuel { r with strays := r.strays ++ [['-', '-']] } rest
    | .unknown text, rest, _ => readTokens fuel { r with strays := r.strays ++ [text] } rest
    | .option flag tail, rest, _ => do
      let taken ← takeOption flag rest tail
      let settings ← taken.settings.foldlM Arguments.take r.settings
      readTokens fuel { r with settings } taken.rest

def Arguments.read (texts : List (List Char)) : Except Stop Arguments := do
  let tokens ← Token.ofTexts texts
  let r ← readTokens tokens.length {} tokens
  match r.input with
  | none => throw (.misuse (.missing "input"))
  | some input =>
    if r.strays.isEmpty then return { r.settings with input := input }
    else throw (.misuse (.unknown r.strays))

end NodeLink.CommandLine
