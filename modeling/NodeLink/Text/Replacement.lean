import NodeLink.Text.Blank

/-!
# Replacement

One text takes the place of another wherever that one occurs. Occurrences are looked for from left to right and
do not share characters, and what is put in is not searched again.
-/

namespace NodeLink.Text

/-- Replaces `old`, which is not empty. The first `passed` characters belong to an occurrence that is replaced
already. -/
def replaceFrom (old new : List Char) : Nat → List Char → List Char
  | _, [] => []
  | passed + 1, _ :: cs => replaceFrom old new passed cs
  | 0, c :: cs =>
    if startsWith old (c :: cs) then new ++ replaceFrom old new (old.length - 1) cs
    else c :: replaceFrom old new 0 cs

def replaceAll (old new cs : List Char) : List Char := replaceFrom old new 0 cs

end NodeLink.Text
