import WeekGrid.Binary64.Basic

/-!
What a page shows: texts at their anchors and coloured boxes, in drawing order, and the rectangle that a
box covers.
-/
namespace WeekGrid.Page

structure TextPiece where
  x : Binary64
  y : Binary64
  text : String
  deriving DecidableEq

/-- A box by its corner, width and height, with the fill colour that was in force, such as `#FF0000`. -/
structure Box where
  x : Binary64
  y : Binary64
  width : Binary64
  height : Binary64
  color : Option String
  deriving DecidableEq

structure Bounds where
  left : Binary64
  bottom : Binary64
  right : Binary64
  top : Binary64
  deriving DecidableEq

structure Elements where
  texts : List TextPiece
  boxes : List Box
  deriving DecidableEq

namespace Elements

def empty : Elements := ⟨[], []⟩

def append (e f : Elements) : Elements := ⟨e.texts ++ f.texts, e.boxes ++ f.boxes⟩

@[simp] theorem texts_append (e f : Elements) : (e.append f).texts = e.texts ++ f.texts := rfl
@[simp] theorem boxes_append (e f : Elements) : (e.append f).boxes = e.boxes ++ f.boxes := rfl

@[simp] theorem append_empty (e : Elements) : e.append empty = e := by simp [append, empty]

theorem append_assoc (e f g : Elements) : (e.append f).append g = e.append (f.append g) := by
  simp [append]

end Elements

def Box.bounds (b : Box) : Bounds := ⟨b.x, b.y, b.x + b.width, b.y + b.height⟩

namespace Bounds

def contains (b : Bounds) (x y : Binary64) : Bool :=
  b.left.le x && x.le b.right && b.bottom.le y && y.le b.top

def lowered (b : Bounds) (topDrop bottomDrop : Binary64) : Bounds :=
  { b with top := b.top - topDrop, bottom := b.bottom - bottomDrop }

end Bounds

/-- The texts whose anchor lies inside the bounds, in order. -/
def textsWithin (texts : List TextPiece) (bounds : Bounds) : List TextPiece :=
  texts.filter fun t => bounds.contains t.x t.y

@[simp] theorem textsWithin_append (texts more : List TextPiece) (bounds : Bounds) :
    textsWithin (texts ++ more) bounds = textsWithin texts bounds ++ textsWithin more bounds := by
  simp [textsWithin]

end WeekGrid.Page
