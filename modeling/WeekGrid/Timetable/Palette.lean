/-!
The fill colours that tell the parts of a timetable apart.
-/
namespace WeekGrid.Timetable

def headerColor : String := "#64CCFF"

/-- The colour of the rulers: time labels, day cells and group rows. -/
def rulerColor : String := "#FFFFA7"

inductive CellKind where
  | lecture
  | tutorial
  | practical
  | exam
  | project
  deriving DecidableEq, Repr

namespace CellKind

def color : CellKind → String
  | lecture => "#FFFF0C"
  | tutorial => "#FFBAB3"
  | practical => "#B3FFFF"
  | exam => "#F23EA7"
  | project => "#9FFF9F"

def all : List CellKind := [lecture, tutorial, practical, exam, project]

def ofColor? (color : Option String) : Option CellKind :=
  all.find? fun kind => some kind.color == color

theorem ofColor?_color (kind : CellKind) : ofColor? (some kind.color) = some kind := by
  cases kind <;> decide

end CellKind
end WeekGrid.Timetable
