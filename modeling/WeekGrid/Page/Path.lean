import WeekGrid.Page.Elements

/-!
Paths under construction, and the boxes that a fill finds in them. The points of the finished subpaths
followed by those of the current one are all points since the path was last dropped.
-/
namespace WeekGrid.Page

structure Point where
  x : Binary64
  y : Binary64
  deriving DecidableEq

structure Subpath where
  points : List Point
  closed : Bool
  deriving DecidableEq

def distinct : List Binary64 → List Binary64 → List Binary64
  | seen, [] => seen.reverse
  | seen, x :: xs => if seen.any x.same then distinct seen xs else distinct (x :: seen) xs

def ordered (x y : Binary64) : Binary64 × Binary64 := if y.lt x then (y, x) else (x, y)

/-- The box that points span, if there are at least four and they have exactly two different x and two
different y coordinates. -/
def spannedBox? (points : List Point) (color : Option String) : Option Box :=
  if points.length < 4 then none
  else match distinct [] (points.map (·.x)), distinct [] (points.map (·.y)) with
    | [x₁, x₂], [y₁, y₂] =>
      let (left, right) := ordered x₁ x₂
      let (bottom, top) := ordered y₁ y₂
      some ⟨left, bottom, right - left, top - bottom, color⟩
    | _, _ => none

structure Path where
  current : Subpath
  /-- The finished subpaths in order. -/
  finished : List Subpath
  deriving DecidableEq

namespace Path

def empty : Path := ⟨⟨[], false⟩, []⟩

def points (p : Path) : List Point := p.finished.flatMap (·.points) ++ p.current.points

@[simp] theorem points_empty : empty.points = [] := rfl

/-- The finished subpaths with the current one, if that has points. -/
def allFinished (p : Path) : List Subpath :=
  if p.current.points = [] then p.finished else p.finished ++ [p.current]

theorem flatMap_allFinished (p : Path) : p.allFinished.flatMap (·.points) = p.points := by
  unfold allFinished
  split <;> simp_all [points]

def moveTo (p : Path) (q : Point) : Path := ⟨⟨[q], false⟩, p.allFinished⟩

@[simp] theorem points_moveTo (p : Path) (q : Point) : (p.moveTo q).points = p.points ++ [q] := by
  rw [← flatMap_allFinished p]
  simp [moveTo, points]

def lineTo (p : Path) (q : Point) : Path :=
  { p with current := { p.current with points := p.current.points ++ [q] } }

@[simp] theorem points_lineTo (p : Path) (q : Point) : (p.lineTo q).points = p.points ++ [q] := by
  simp [lineTo, points]

def close (p : Path) : Path := { p with current := { p.current with closed := true } }

@[simp] theorem points_close (p : Path) : p.close.points = p.points := rfl

def finishSubpaths (p : Path) : Path := ⟨⟨[], false⟩, p.allFinished⟩

@[simp] theorem points_finishSubpaths (p : Path) : p.finishSubpaths.points = p.points := by
  rw [← flatMap_allFinished p]
  simp [finishSubpaths, points]

/-- The boxes among the subpaths, in order; a fill drops the path afterwards. -/
def boxes (p : Path) (color : Option String) : List Box :=
  p.allFinished.filterMap fun s => spannedBox? s.points color

def addOutline (p : Path) (x y width height : Binary64) : Path :=
  ((((p.moveTo ⟨x, y⟩).lineTo ⟨x + width, y⟩).lineTo ⟨x + width, y + height⟩).lineTo
    ⟨x, y + height⟩).close

end Path
end WeekGrid.Page
