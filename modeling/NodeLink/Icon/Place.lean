import NodeLink.Drawing.Box
import NodeLink.Icon.Symbol

/-!
# Icons in nodes

An icon stands in the middle of its node's circle, either as a reference to its symbol, fitted into the
circle, or as an image from outside.
-/

namespace NodeLink

open Scalar

variable {α : Type} [Scalar α]

namespace Icon

def halfSide (radius : α) : α := radius * 0.8

def square (d : Disc α) : Except Fault (Box α) := do
  let half ← settle (halfSide d.radius)
  return ⟨d.centre.x - half, d.centre.y - half, half * 2, half * 2⟩

/-- The box of a symbol with the given aspect. -/
def symbolBox (d : Disc α) (aspect : α) : Except Fault (Box α) := do
  let area ← (← square d).settle
  area.fitted (← settle (d.radius * 0.1)) aspect

/-- Width by height of a view box, 1 where these cannot be read or are not positive. -/
def aspect (ofFloat : Float → α) (viewBox : List Char) : Except Fault α :=
  match Symbol.sides? viewBox with
  | none => .ok 1.0
  | some (width, height) => do
    if ← Box.isFlat (ofFloat width) (ofFloat height) then return 1.0
    else settle (ofFloat width / ofFloat height)

/-- The box of a reference to a symbol with the given view box. -/
def useBox (ofFloat : Float → α) (d : Disc α) (viewBox : List Char) : Except Fault (Box α) := do
  symbolBox d (← aspect ofFloat viewBox)

def boxAttrs (b : Box Value) : Except Fault (List Attr) := do
  return [.ofPlain "x" (← b.x.compact), .ofPlain "y" (← b.y.compact), .ofPlain "width" (← b.width.compact),
    .ofPlain "height" (← b.height.compact)]

/-- A reference to the symbol of an icon. -/
def useMarkup (d : Disc Value) (s : Symbol) : Except Fault Markup := do
  let b ← useBox .real d s.viewBox
  return .empty "use".toList (.ofPlain "href" ('#' :: s.id) :: (← boxAttrs b)) false

def imageMarkup (d : Disc Value) (icon : Json) : Except Fault Markup := do
  let area ← square d
  let name ← icon.text? "replace"
  return .empty "image".toList
    (.ofText "href" name.toList :: (← boxAttrs area) ++
      [.ofPlain "preserveAspectRatio" "xMidYMid meet".toList]) false

/-- The icon of a node, by reference to its symbol if there is one. -/
def markup (d : Disc Value) (icon : Json) (symbol : Option Symbol) : Except Fault (List Markup) := do
  if !icon.isGiven then return []
  else match symbol with
    | some s => return [← useMarkup d s]
    | none => return [← imageMarkup d icon]

end Icon
end NodeLink
