import NodeLink.Text.Blank
import NodeLink.Text.SmallLetter

/-!
# File names

The name of a file for a title: small letters, digits and underscores, and one dash for every run of blanks
and dashes. Everything else is left out, so a name never leads out of its directory.
-/

namespace NodeLink.Text.FileName

/-- The characters of a name that are no blanks. -/
def isStemChar (c : Char) : Bool := ('a' ≤ c && c ≤ 'z') || ('0' ≤ c && c ≤ '9') || c == '_' || c == '-'

def isKept (c : Char) : Bool := isStemChar c || isBlank c

def isDash (c : Char) : Bool := c == '-'

/-- One dash in place of every run of characters for which `p` holds. `inRun` says whether the text follows
such a character. -/
def dashRuns (p : Char → Bool) : Bool → List Char → List Char
  | _, [] => []
  | inRun, c :: cs =>
    if p c then (if inRun then [] else ['-']) ++ dashRuns p true cs else c :: dashRuns p false cs

/-- What is left of a title: of its small form the characters that are kept, then one dash for every run of
blanks, and then one for every run of dashes. -/
def slug (title : List Char) : List Char :=
  let kept := (inSmallLetters (trim title)).filter isKept
  dashRuns isDash false (dashRuns isBlank false kept)

def defaultStem : List Char := "graph".toList

/-- The name of the file for a title, without its extension. -/
def stem (title : List Char) : List Char := if (slug title).isEmpty then defaultStem else slug title

def pointed (extension : List Char) : List Char :=
  if startsWith ['.'] extension then extension else '.' :: extension

/-- The name of the file for a title, with an extension. -/
def ofTitle (title extension : List Char) : List Char := stem title ++ pointed extension

end NodeLink.Text.FileName
