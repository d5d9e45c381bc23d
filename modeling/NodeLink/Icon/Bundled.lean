/-!
# Bundled icons

The icons that come with the program, by keyword. All are white shapes, mostly on a square of 24 units, and
every text ends with a line feed.
-/

namespace NodeLink.Icon

/-- An icon whose root element has the given attribute for its size. -/
def glyph (size shapes : String) : String :=
  "<svg xmlns=\"http://www.w3.org/2000/svg\" " ++ size ++ " fill=\"#fff\">" ++ shapes ++ "</svg>\n"

def onSquare (shapes : String) : String := glyph "viewBox=\"0 0 24 24\"" shapes

def bundled : List (String × String) := [
  ("book", glyph "width=\"24\" height=\"24\""
    "<path d=\"M4 3h7v18H4z\"/><path d=\"M13 3h7v18h-7z\"/>"),
  ("company", onSquare
    "<path d=\"M3 21V7l6-4v4l6-4v4l6-4v18z\"/>"),
  ("concept", onSquare
    ("<path d=\"M12 2a7 7 0 0 0-4 12.7V18h8v-3.3A7 7 0 0 0 12 2z\"/>" ++
      "<rect x=\"9\" y=\"19\" width=\"6\" height=\"3\"/>")),
  ("document", onSquare
    "<path d=\"M6 2h8l6 6v14H6z\"/><path d=\"M14 2v6h6\" fill=\"#ccc\"/>"),
  ("education", onSquare
    ("<path d=\"M12 3L1 9l11 6 9-4.9V17h2V9z\"/>" ++
      "<path d=\"M5 13.2v4L12 21l7-3.8v-4L12 17z\"/>")),
  ("group", onSquare
    ("<circle cx=\"8\" cy=\"8\" r=\"3\"/><circle cx=\"16\" cy=\"8\" r=\"3\"/>" ++
      "<path d=\"M2 20c0-3.3 2.7-6 6-6s6 2.7 6 6z\"/>" ++
      "<path d=\"M10 20c0-3.3 2.7-6 6-6s6 2.7 6 6z\"/>")),
  ("location", onSquare
    ("<path d=\"M12 2a7 7 0 0 0-7 7c0 5 7 13 7 13s7-8 7-13a7 7 0 0 0-7-7zm0 9.5a2.5 2.5 0 1 1" ++
      " 0-5 2.5 2.5 0 0 1 0 5z\"/>")),
  ("message", onSquare
    "<path d=\"M3 4h18v12H8l-5 4z\"/>"),
  ("person", onSquare
    ("<circle cx=\"12\" cy=\"8\" r=\"4\"/>" ++
      "<path d=\"M4 21c0-4.4 3.6-8 8-8s8 3.6 8 8z\"/>")),
  ("tag", onSquare
    ("<path d=\"M3 3h8l10 10-8 8L3 11z\"/>" ++
      "<circle cx=\"7.5\" cy=\"7.5\" r=\"1.5\" fill=\"#000\"/>"))]

end NodeLink.Icon
