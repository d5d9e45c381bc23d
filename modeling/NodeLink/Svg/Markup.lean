import NodeLink.Text.Replacement

/-!
# Markup

Markup is built as a tree and written once. Attribute values and character data are written with the five
special characters as entities; `verbatim` pieces are markup already.
-/

namespace NodeLink

/-- The special characters with their entities. The ampersand is the first to be replaced: every entity begins
with one. -/
def specials : List (Char × String) :=
  [('&', "&amp;"), ('<', "&lt;"), ('>', "&gt;"), ('"', "&quot;"), ('\'', "&#39;")]

/-- Puts entities for special characters, for one of them after the other in all of the text. -/
def escapeXml (cs : List Char) : List Char :=
  specials.foldl (fun cs pair => Text.replaceAll [pair.1] pair.2.toList cs) cs

/-- The value of an attribute: a text to be escaped, or characters to be written as they are. -/
inductive AttrValue where
  | escaped (cs : List Char)
  | plain (cs : List Char)
  deriving DecidableEq, Repr

structure Attr where
  name : List Char
  value : AttrValue
  deriving DecidableEq, Repr

/-- A piece of markup. An empty element may have a blank before its closing slash. -/
inductive Markup where
  | text (cs : List Char)
  | empty (name : List Char) (attrs : List Attr) (spaced : Bool)
  | element (name : List Char) (attrs : List Attr) (children : List Markup)
  | verbatim (cs : List Char)
  deriving Repr

namespace Attr

def ofText (name : String) (value : List Char) : Attr := ⟨name.toList, .escaped value⟩
def ofPlain (name : String) (value : List Char) : Attr := ⟨name.toList, .plain value⟩

def write (a : Attr) : List Char :=
  let value := match a.value with
    | .escaped cs => escapeXml cs
    | .plain cs => cs
  ' ' :: a.name ++ '=' :: '"' :: value ++ ['"']

end Attr

namespace Markup

mutual
def write : Markup → List Char
  | .text cs => escapeXml cs
  | .empty name attrs spaced =>
    '<' :: name ++ attrs.flatMap Attr.write ++ (if spaced then [' ', '/', '>'] else ['/', '>'])
  | .element name attrs children =>
    '<' :: name ++ attrs.flatMap Attr.write ++ '>' :: writeAll children ++ '<' :: '/' :: name ++ ['>']
  | .verbatim cs => cs

def writeAll : List Markup → List Char
  | [] => []
  | m :: ms => write m ++ writeAll ms
end

def newline : Markup := .text ['\n']

/-- An element whose children stand on lines of their own. -/
def block (name : String) (attrs : List Attr) (children : List Markup) : Markup :=
  .element name.toList attrs (children.flatMap (fun m => [newline, m]) ++ [newline])

/-- Pieces on lines of their own, without a line break at either end. -/
def onLines : List Markup → List Markup
  | [] => []
  | [m] => [m]
  | m :: ms => m :: newline :: onLines ms

end Markup
end NodeLink
