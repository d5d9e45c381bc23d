import NodeLink.Number.Reading
import NodeLink.Text.HostName
import NodeLink.Text.SmallLetter
import NodeLink.Text.Utf8
import NodeLink.Text.Quoted

/-!
# Web addresses

An address as it is asked for: the scheme and the host in small letters, without the port that the scheme
stands for anyway, with single and double dots in the path resolved, and with every character that may not
stand in its part as percent signs and hexadecimal digits. What stands behind a percent sign already stays.
-/

namespace NodeLink.Text.WebAddress

structure Parts where
  scheme : List Char
  userinfo : List Char
  host : List Char
  port : Option Int
  path : List Char
  query : Option (List Char)
  fragment : Option (List Char)
  deriving DecidableEq, Repr

def isControl (c : Char) : Bool := c.toNat < 32 || c.toNat == 127

/-- The longest address that can be asked for. -/
def lengthLimit : Nat := 65536

/-! ### Escapes -/

def isUnreserved (c : Char) : Bool :=
  c.toNat < 128 && (c.isAlphanum || c == '-' || c == '.' || c == '_' || c == '~')

/-- A visible character of ASCII that is none of the given ones. -/
def isVisibleBut (others : List Char) (c : Char) : Bool :=
  32 < c.toNat && c.toNat < 127 && !others.contains c

def isPathChar : Char → Bool := isVisibleBut ['"', '#', '<', '>', '?', '\x60', '\x7b', '\x7d']
def isQueryChar : Char → Bool := isVisibleBut ['"', '#', '<', '>']
def isFragmentChar : Char → Bool := isVisibleBut ['"', '<', '>', '\x60']

def isUserChar (c : Char) : Bool :=
  isPathChar c && !("/:;=@[\\]^|".toList.contains c)

def isHostNameChar (c : Char) : Bool :=
  isUnreserved c || "!$&'()*+,;=\"`%|\\".toList.contains c || c == '\x7b' || c == '\x7d'

def hexByte (n : Nat) : List Char := (hexDigits 2 n).map Char.toUpper

/-- A character as the escapes of its bytes. -/
def escapedChar (c : Char) : List Char := (Utf8.encode [c]).flatMap fun n => '%' :: hexByte n

/-- A text with every character escaped that is not allowed. Escapes that are there already stay. -/
def escaped (isAllowed : Char → Bool) : List Char → List Char
  | '%' :: a :: b :: rest =>
    if (hexValue? a).isSome && (hexValue? b).isSome then '%' :: a :: b :: escaped isAllowed rest
    else (if isAllowed '%' then ['%'] else escapedChar '%') ++ escaped isAllowed (a :: b :: rest)
  | c :: cs => (if isAllowed c then [c] else escapedChar c) ++ escaped isAllowed cs
  | [] => []

/-! ### Hosts -/

/-- Where four numbers with one character between each two may stand after one more character: how many
of them have ended, and whether the present one has begun. -/
def numberStates (states : List (Nat × Bool)) (c : Char) : List (Nat × Bool) :=
  let next := states.flatMap fun (ended, hasBegun) =>
    (if '0' ≤ c && c ≤ '9' then [(ended, true)] else []) ++ (if hasBegun then [(ended + 1, false)] else [])
  next.eraseDups.filter fun state => state.1 < 4

/-- Whether a text has the look of four numbers, with any single characters between them. -/
def looksNumeric (host : List Char) : Bool := (host.foldl numberStates [(0, false)]).contains (3, true)

/-- Whether a text is a number from 0 to 255 without leading zeros. -/
def isOctet (cs : List Char) : Bool :=
  !cs.isEmpty && cs.length ≤ 3 && cs.all (fun c => '0' ≤ c && c ≤ '9') &&
    (cs == ['0'] || cs.head? != some '0') && digitsValue cs ≤ 255

/-- Four octets with points between them. -/
def isAddress4 (host : List Char) : Bool :=
  let parts := splitAtEach (· == '.') host
  parts.length == 4 && parts.all isOctet

/-- Up to four hexadecimal digits. -/
def isHextet (cs : List Char) : Bool := !cs.isEmpty && cs.length ≤ 4 && cs.all fun c => (hexValue? c).isSome

/-- The parts of a long address, its last part taken for two if it is a short address. -/
def longParts? (cs : List Char) : Option (List (List Char)) :=
  let parts := splitAtEach (· == ':') cs
  let last := parts.getLast?.getD []
  if parts.length < 3 then none
  else if last.contains '.' then
    if isAddress4 last then some (parts.dropLast ++ [['0'], ['0']]) else none
  else some parts

/-- Whether parts stand for eight groups of digits, of which one run may be left out. -/
def areGroups (parts : List (List Char)) : Bool :=
  let inner := (parts.drop 1).dropLast
  let gaps := inner.countP (·.isEmpty)
  let first := parts.head?.getD []
  let last := parts.getLast?.getD []
  let filled := parts.filter fun part => !part.isEmpty
  filled.all isHextet && parts.length ≤ 9 &&
    if gaps = 0 then parts.length == 8 && !first.isEmpty && !last.isEmpty
    else gaps == 1 && filled.length ≤ 7 &&
      (!first.isEmpty || (parts.getD 1 []).isEmpty) && (!last.isEmpty || (inner.getLast?.getD []).isEmpty)

/-- A long address, which may have the name of a zone behind a percent sign. -/
def isAddress6 (host : List Char) : Bool :=
  let front := host.takeWhile (· != '%')
  let zone := (host.dropWhile (· != '%')).drop 1
  let isZoneFine := !host.contains '%' || (!zone.isEmpty && !zone.contains '%')
  isZoneFine && !front.contains '/' && ((longParts? front).map areGroups).getD false

/-- The text inside square brackets, if a text stands in them. -/
def inBrackets? : List Char → Option (List Char)
  | '[' :: rest => if rest.getLast? == some ']' then some rest.dropLast else none
  | _ => none

/-- The plain form of a host, if it has one. -/
def plainHost? (host : List Char) : Option (List Char) :=
  if host.isEmpty then some []
  else if looksNumeric host then if isAddress4 host then some host else none
  else match inBrackets? host with
    | some inside => if isAddress6 inside then some inside else none
    | none =>
      if HostName.isAscii host then some (escaped isHostNameChar (inSmallLetters host))
      else HostName.ascii? (inSmallLetters host)

/-! ### Parts -/

/-- Cuts at the last place where `mark` stands. -/
def cutAtLast? (mark : Char) (cs : List Char) : Option (List Char × List Char) :=
  if cs.contains mark then
    let after := (cs.reverse.takeWhile (· != mark)).reverse
    some (cs.take (cs.length - after.length - 1), after)
  else none

/-- The host at the front of an authority, in brackets or up to a colon, and what follows it. -/
def splitHost (cs : List Char) : List Char × List Char :=
  let bracketed := if cs.head? = some '[' then cutAtLast? ']' cs else none
  (bracketed.map fun cut => (cut.1 ++ [']'], cut.2)).getD (cs.takeWhile (fun c => c != ':' && c != '@'), cs.dropWhile fun c => c != ':' && c != '@')

/-- The port that a scheme stands for. -/
def ordinaryPort (scheme : List Char) : Option Int :=
  if scheme = ['h', 't', 't', 'p'] then some 80
  else if scheme = ['h', 't', 't', 'p', 's'] then some 443
  else none

/-- The port in what follows a host; nothing for the port that the scheme stands for. -/
def port? (scheme rest : List Char) : Option (Option Int) :=
  let digits := match rest with
    | ':' :: digits => digits
    | digits => digits
  if digits.isEmpty then some none
  else (Number.readWhole? digits).map fun n => if ordinaryPort scheme = some n then none else some n

/-- One step of a path after those before it: a dot stays, two dots lead back. -/
def takeStep (before : List (List Char)) (step : List Char) : List (List Char) :=
  if step = ['.'] then before
  else if step = ['.', '.'] then
    if before.isEmpty || before == [[]] then before else before.dropLast
  else before ++ [step]

def joinSteps : List (List Char) → List Char
  | [] => []
  | [step] => step
  | step :: more => step ++ '/' :: joinSteps more

/-- A path with its single and double dots resolved. -/
def resolved (path : List Char) : List Char :=
  let steps := splitAtEach (· == '/') path
  if steps.contains ['.'] || steps.contains ['.', '.'] then joinSteps (steps.foldl takeStep []) else path

/-- The text from a mark on, without the mark. -/
def afterMark? (mark : Char) (cs : List Char) : Option (List Char) :=
  match cs.dropWhile (· != mark) with
  | [] => none
  | _ :: rest => some rest

/-- The parts of an address, given its scheme and what follows the two slashes. -/
def parts? (scheme rest : List Char) : Option Parts := do
  let isMark (c : Char) : Bool := c == '/' || c == '?' || c == '#'
  let authority := rest.takeWhile (!isMark ·)
  let behind := rest.dropWhile (!isMark ·)
  let front := behind.takeWhile (· != '#')
  let (userinfo, place) := (cutAtLast? '@' authority).getD ([], authority)
  let (host, more) := splitHost place
  let host ← plainHost? host
  let port ← port? scheme more
  return {
    scheme, host, port
    userinfo := escaped isUserChar userinfo
    path := escaped isPathChar (resolved (front.takeWhile (· != '?')))
    query := (afterMark? '?' front).map (escaped isQueryChar)
    fragment := (afterMark? '#' behind).map (escaped isFragmentChar) }

/-- The parts of an address, unless it cannot be asked for. -/
def read? (uri : List Char) : Option Parts := do
  if lengthLimit < uri.length || uri.any isControl then none
  let (scheme, rest) ← cutAt? "://".toList uri
  parts? scheme rest

def Parts.authority (p : Parts) : List Char :=
  (if p.userinfo.isEmpty then [] else p.userinfo ++ ['@']) ++
    (if p.host.contains ':' then '[' :: p.host ++ [']'] else p.host) ++
    (match p.port with
      | some n => ':' :: (Number.whole n).text
      | none => [])

/-- The path with what follows it. -/
def Parts.target (p : Parts) : List Char :=
  p.path ++ ((p.query.map ('?' :: ·)).getD []) ++ ((p.fragment.map ('#' :: ·)).getD [])

def Parts.text (p : Parts) : List Char :=
  p.scheme ++ [':'] ++ (if p.authority.isEmpty then [] else '/' :: '/' :: p.authority) ++ p.target

/-- Whether an address says which host is asked. -/
def Parts.hasHost (p : Parts) : Bool := !p.host.isEmpty

/-- What is asked for with an address that names no host: its path and query under one slash. -/
def Parts.hostless (p : Parts) : List Char :=
  '/' :: ((p.path.dropWhile (· == '/')) ++ ((p.query.map ('?' :: ·)).getD []))

end NodeLink.Text.WebAddress
