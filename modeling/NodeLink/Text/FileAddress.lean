import NodeLink.Text.Path
import NodeLink.Text.WebAddress

/-!
# File addresses

The path in a file address is what stands between the authority and a question mark or a hash. The
authority is passed over, but it has to be one: brackets stand around a long address, and no character in
it may be another form of one that ends an authority.
-/

namespace NodeLink.Text.FileAddress

/-- Characters beyond ASCII whose plain form has a slash, a question mark, a hash, an at sign or a colon in
it. -/
def treacherous : List Nat :=
  [0x2047, 0x2048, 0x2049, 0x2100, 0x2101, 0x2105, 0x2106, 0x2A74, 0xFE13, 0xFE16, 0xFE55, 0xFE56, 0xFE5F,
    0xFE6B, 0xFF03, 0xFF0F, 0xFF1A, 0xFF1F, 0xFF20]

def isTreacherous (c : Char) : Bool := treacherous.contains c.toNat

/-- Whether a text is a v with hexadecimal digits, a point and something more. -/
def isFutureAddress (cs : List Char) : Bool :=
  match cs with
  | 'v' :: rest =>
    let digits := rest.takeWhile fun c => (hexValue? c).isSome
    let behind := rest.dropWhile fun c => (hexValue? c).isSome
    !digits.isEmpty && behind.head? == some '.' && 2 ≤ behind.length
  | _ => false

/-- Whether a text may stand in brackets in the place of a host. -/
def isBracketed (cs : List Char) : Bool :=
  if cs.head? == some 'v' then isFutureAddress cs else WebAddress.isAddress6 cs

/-- Whether the brackets of an authority stand around a long address at its front, with a port or nothing
behind them. -/
def areBracketsFine (authority : List Char) : Bool :=
  let place := ((WebAddress.cutAtLast? '@' authority).map (·.2)).getD authority
  match cutAt? ['['] place with
  | some (before, rest) =>
    match cutAt? [']'] rest with
    | some (host, port) => before.isEmpty && (port.isEmpty || port.head? == some ':') && isBracketed host
    | none => before.isEmpty && isBracketed rest
  | none => isBracketed (place.takeWhile (· != ':'))

/-- Whether a text can be an authority. -/
def isAuthority (cs : List Char) : Bool :=
  let opened := cs.contains '['
  let closed := cs.contains ']'
  opened == closed && (!opened || areBracketsFine cs) && !cs.any isTreacherous

/-- The path in a file address, given what follows its two slashes. Tabs and line ends do not count. -/
def path? (rest : List Char) : Option (List Char) :=
  let kept := rest.filter fun c => c != '\t' && c != '\r' && c != '\n'
  let isMark (c : Char) : Bool := c == '/' || c == '?' || c == '#'
  if isAuthority (kept.takeWhile (!isMark ·)) then
    some (Path.percentDecoded ((kept.dropWhile (!isMark ·)).takeWhile fun c => c != '?' && c != '#'))
  else none

end NodeLink.Text.FileAddress
