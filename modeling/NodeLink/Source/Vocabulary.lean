import NodeLink.Text.Blank
import NodeLink.Text.LetterCase

/-!
# Words of the diagram language

The keywords that open a node line, the icons that go with them, and the colours that have names.
-/

namespace NodeLink.Source

def titleKeyword : List Char := "graphDiagram".toList

def commentMark : List Char := "//".toList

def nodeKeywords : List (List Char) :=
  ["node", "person", "group", "tag", "message", "location", "document", "company", "concept", "book",
    "education"].map String.toList

def namedColors : List (List Char × String) :=
  [("#red", "#ff0000"), ("#green", "#00ff00"), ("#blue", "#0000ff"), ("#yellow", "#ffff00"),
    ("#orange", "#ffa500"), ("#purple", "#800080"), ("#pink", "#ffc0cb"), ("#cyan", "#00ffff"),
    ("#magenta", "#ff00ff"), ("#lime", "#00ff00"), ("#brown", "#a52a2a"), ("#gray", "#808080"),
    ("#grey", "#808080"), ("#black", "#000000"), ("#white", "#ffffff"), ("#lightgreen", "#90ee90"),
    ("#lightblue", "#add8e6"), ("#lightred", "#ffcccb")].map fun (name, code) => (name.toList, code)

/-- The code of a named colour; any other colour stands for itself. -/
def resolveColor (token : List Char) : String :=
  match namedColors.find? fun entry => entry.1 == Text.toSmall token with
  | some entry => entry.2
  | none => String.ofList token

/-- Where the icon of a keyword is kept; the plain keyword has none. -/
def iconOf? (keyword : List Char) : Option String :=
  let keyword := Text.toSmall keyword
  if keyword = "node".toList || !nodeKeywords.contains keyword then none
  else some ("graphdiagram/icons/" ++ String.ofList keyword ++ ".svg")

end NodeLink.Source
