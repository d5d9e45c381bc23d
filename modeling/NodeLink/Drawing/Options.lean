import NodeLink.Value

/-!
# Options of a drawing

Options are given as fields of a document and may hold any value; `Style` is what a drawing makes of them.
-/

namespace NodeLink

/-- The options with their names and defaults. -/
def Options.defaults : List (String × Json) :=
  [("width", .whole 800), ("height", .whole 600), ("padding", .whole 20), ("background", .text "transparent"),
    ("embed_icons", .bool true), ("optimize", .bool true), ("curved_edges", .bool false),
    ("edge_color", .null), ("label_min_font_size", .whole 4), ("label_max_font_size", .whole 14),
    ("label_fill_ratio", .real 0.9), ("label_hide_below", .real 3.0), ("reference_size", .whole 800),
    ("fetch_timeout", .real 10.0)]

/-- Options as named fields, all of them present and in the order of the defaults. -/
structure Options where
  fields : List (String × Json) := Options.defaults

namespace Options

def get (o : Options) (name : String) : Json := (Json.field? name o.fields).getD .null

/-- The options with one field changed; there are no others than the defaults. -/
def change (o : Options) (field : String × Json) : Except Fault Options :=
  if (Json.field? field.1 o.fields).isSome then .ok ⟨Json.setField field.1 field.2 o.fields⟩
  else .error (.misfit (.unknownField field.1))

/-- The options with some fields changed. -/
def replace (o : Options) (changes : List (String × Json)) : Except Fault Options :=
  changes.foldlM change o

def same (a b : Options) : Bool := Json.same (.record a.fields) (.record b.fields)

end Options

/-- What a drawing goes by. Without a width or height it is as large as what is drawn. -/
structure Style (α : Type) where
  width : Option α
  height : Option α
  padding : α
  background : Json
  embedIcons : Bool
  optimize : Bool
  curvedEdges : Bool
  edgeColor : Json
  minFont : α
  maxFont : α
  fillRatio : α
  hideBelow : α
  referenceSize : α

namespace Options

def valueOf (o : Options) (name : String) : Value := .ofJson (o.get name)

def isSet (o : Options) (name : String) : Bool := (o.get name).isGiven

def sizeOf? (o : Options) (name : String) : Option Value :=
  if o.isSet name then some (o.valueOf name) else none

def style (o : Options) : Style Value where
  width := o.sizeOf? "width"
  height := o.sizeOf? "height"
  padding := o.valueOf "padding"
  background := o.get "background"
  embedIcons := o.isSet "embed_icons"
  optimize := o.isSet "optimize"
  curvedEdges := o.isSet "curved_edges"
  edgeColor := o.get "edge_color"
  minFont := o.valueOf "label_min_font_size"
  maxFont := o.valueOf "label_max_font_size"
  fillRatio := o.valueOf "label_fill_ratio"
  hideBelow := o.valueOf "label_hide_below"
  referenceSize := o.valueOf "reference_size"

end Options
end NodeLink
