import Mathlib.Data.List.DropRight
import WeekGrid.Proofs.Page.Script

/-!
A path and what was done to it. Whatever steps have been taken, the path holds the points given since it was last
dropped, each once and in order, cut into subpaths where a step began a new one. Capturing boxes uses the subpaths up,
and so no subpath is captured twice.
-/
namespace WeekGrid.Page

/-- What can be done to a path. -/
inductive PathStep where
  | moveTo (point : Point)
  | lineTo (point : Point)
  | close
  | finishSubpaths
  | reset
  /-- Looks for boxes of this colour. -/
  | capture (color : Option String)
  deriving DecidableEq

namespace PathStep

def perform (p : Path) : PathStep → Path × List Box
  | moveTo q => (p.moveTo q, [])
  | lineTo q => (p.lineTo q, [])
  | close => (p.close, [])
  | finishSubpaths => (p.finishSubpaths, [])
  | reset => (.empty, [])
  | capture color => (.empty, p.boxes color)

def looksAt (p : Path) : PathStep → List Subpath
  | capture _ => p.allFinished
  | _ => []

def drops : PathStep → Bool
  | reset => true
  | capture _ => true
  | _ => false

def point? : PathStep → Option Point
  | moveTo q => some q
  | lineTo q => some q
  | _ => none

end PathStep

/-- What steps leave behind in a path: points, marks that close a subpath, and cuts between two subpaths. -/
inductive Mark where
  | cut
  | point (point : Point)
  | close
  deriving DecidableEq

/-- A move begins a new subpath at its point; after finishing the next point begins one. -/
def PathStep.marks : PathStep → List Mark
  | .moveTo q => [.cut, .point q]
  | .lineTo q => [.point q]
  | .close => [.close]
  | .finishSubpaths => [.cut]
  | .reset => []
  | .capture _ => []

def Mark.point? : Mark → Option Point
  | .point q => some q
  | _ => none

def Subpath.ofMarks (marks : List Mark) : Subpath := ⟨marks.filterMap Mark.point?, decide (.close ∈ marks)⟩

/-- The steps after the last one that drops the path. -/
def sinceDrop (steps : List PathStep) : List PathStep := steps.rtakeWhile (!·.drops)

theorem sinceDrop_concat (steps : List PathStep) (step : PathStep) :
    sinceDrop (steps ++ [step]) = if step.drops then [] else sinceDrop steps ++ [step] := by
  rw [sinceDrop, List.rtakeWhile_concat]
  cases step.drops <;> rfl

def givenPoints (steps : List PathStep) : List Point := steps.filterMap PathStep.point?

/-- The marks since the path was last dropped, in the pieces between the cuts. -/
def strokes (steps : List PathStep) : List (List Mark) :=
  ((sinceDrop steps).flatMap PathStep.marks).splitOn .cut

def drawnSubpaths (steps : List PathStep) : List Subpath :=
  ((strokes steps).map Subpath.ofMarks).filter (·.points ≠ [])

theorem splitOn_concat_of_ne {a x : Mark} (h : x ≠ a) (marks : List Mark) :
    (marks ++ [x]).splitOn a = (marks.splitOn a).dropLast ++ [(marks.splitOn a).getLastD [] ++ [x]] := by
  induction marks with
  | nil => simp [List.splitOn_eq_singleton, h.symm]
  | cons mark marks ih =>
    obtain ⟨piece, pieces, hpieces⟩ := List.exists_cons_of_ne_nil (List.splitOn_ne_nil a marks)
    rw [List.cons_append, List.splitOn_cons_eq_if_modifyHead, List.splitOn_cons_eq_if_modifyHead, ih, hpieces]
    split
    · simp
    · cases pieces <;> simp

theorem exists_pieces (marks : List Mark) : ∃ earlier last, marks.splitOn .cut = earlier ++ [last] :=
  ⟨_, _, (List.dropLast_concat_getLast (List.splitOn_ne_nil _ marks)).symm⟩

namespace Path

/-- The path of some pieces: the last one is under construction, and of the others those with points are finished. -/
def ofStrokes (pieces : List (List Mark)) : Path :=
  ⟨.ofMarks (pieces.getLastD []), (pieces.dropLast.map Subpath.ofMarks).filter (·.points ≠ [])⟩

def run (p : Path) : List PathStep → Path × List Box
  | [] => (p, [])
  | step :: steps =>
    let (next, boxes) := step.perform p
    let (last, more) := next.run steps
    (last, boxes ++ more)

def captured (p : Path) : List PathStep → List Subpath
  | [] => []
  | step :: steps => step.looksAt p ++ (step.perform p).1.captured steps

theorem run_append (p : Path) (steps more : List PathStep) :
    p.run (steps ++ more) = (((p.run steps).1.run more).1, (p.run steps).2 ++ ((p.run steps).1.run more).2) := by
  induction steps generalizing p with
  | nil => rfl
  | cons step steps ih => simp [run, ih]

/-! What steps do to the path of some marks: they add their own. -/

section Marks

variable (marks : List Mark)

theorem allFinished_ofStrokes : (ofStrokes (marks.splitOn .cut)).allFinished =
    ((marks.splitOn .cut).map Subpath.ofMarks).filter (·.points ≠ []) := by
  obtain ⟨earlier, last, hpieces⟩ := exists_pieces marks
  by_cases h : (Subpath.ofMarks last).points = [] <;> simp [hpieces, ofStrokes, allFinished, h]

theorem finishSubpaths_ofStrokes :
    (ofStrokes (marks.splitOn .cut)).finishSubpaths = ofStrokes ((marks ++ [Mark.cut]).splitOn .cut) := by
  rw [finishSubpaths, allFinished_ofStrokes, List.splitOn_append_cons_self]
  simp [ofStrokes, Subpath.ofMarks]

theorem lineTo_ofStrokes (q : Point) :
    (ofStrokes (marks.splitOn .cut)).lineTo q = ofStrokes ((marks ++ [Mark.point q]).splitOn .cut) := by
  rw [splitOn_concat_of_ne (by simp)]
  simp [ofStrokes, lineTo, Subpath.ofMarks, Mark.point?]

theorem close_ofStrokes :
    (ofStrokes (marks.splitOn .cut)).close = ofStrokes ((marks ++ [Mark.close]).splitOn .cut) := by
  rw [splitOn_concat_of_ne (by simp)]
  simp [ofStrokes, close, Subpath.ofMarks, Mark.point?]

theorem moveTo_ofStrokes (q : Point) :
    (ofStrokes (marks.splitOn .cut)).moveTo q = ofStrokes ((marks ++ [Mark.cut, .point q]).splitOn .cut) := by
  have hline := lineTo_ofStrokes (marks ++ [.cut]) q
  rw [← finishSubpaths_ofStrokes, List.append_assoc] at hline
  exact hline

theorem perform_ofStrokes {step : PathStep} (h : step.drops = false) :
    (step.perform (ofStrokes (marks.splitOn .cut))).1 = ofStrokes ((marks ++ step.marks).splitOn .cut) := by
  cases step with
  | moveTo q => exact moveTo_ofStrokes marks q
  | lineTo q => exact lineTo_ofStrokes marks q
  | close => exact close_ofStrokes marks
  | finishSubpaths => exact finishSubpaths_ofStrokes marks
  | reset => cases h
  | capture color => cases h

end Marks

theorem perform_of_drops {step : PathStep} (h : step.drops = true) (p : Path) : (step.perform p).1 = empty := by
  cases step with
  | reset => rfl
  | capture color => rfl
  | _ => cases h

theorem run_eq_ofStrokes (steps : List PathStep) : (empty.run steps).1 = ofStrokes (strokes steps) := by
  -- From the back, since what counts is the steps after the last one that drops the path.
  induction steps using List.reverseRecOn with
  | nil => rfl
  | append_singleton steps step ih =>
    rw [run_append, strokes, sinceDrop_concat]
    change (step.perform _).1 = _
    cases hdrops : step.drops with
    | false =>
      rw [ih, if_neg Bool.false_ne_true, List.flatMap_append, List.flatMap_singleton]
      exact perform_ofStrokes _ hdrops
    | true => exact perform_of_drops hdrops _

/-- A step adds its point to those of the path. A capture looks at all of them and leaves none; only a reset loses
them. -/
theorem points_perform (p : Path) {step : PathStep} (h : step ≠ .reset) :
    (step.looksAt p).flatMap (·.points) ++ (step.perform p).1.points = p.points ++ step.point?.toList := by
  cases step with
  | reset => exact absurd rfl h
  | capture color => simp [PathStep.looksAt, PathStep.perform, PathStep.point?, flatMap_allFinished]
  | _ => simp [PathStep.looksAt, PathStep.perform, PathStep.point?]

theorem points_run (steps : List PathStep) : (empty.run steps).1.points = givenPoints (sinceDrop steps) := by
  induction steps using List.reverseRecOn with
  | nil => rfl
  | append_singleton steps step ih =>
    rw [run_append, sinceDrop_concat]
    change (step.perform _).1.points = _
    cases hdrops : step.drops with
    | false =>
      have hreset : step ≠ .reset := by
        rintro rfl
        cases hdrops
      have hadds := points_perform (empty.run steps).1 hreset
      have hnone : step.looksAt (empty.run steps).1 = [] := by
        cases step with
        | capture color => cases hdrops
        | _ => rfl
      rw [hnone, ih] at hadds
      rw [if_neg Bool.false_ne_true, givenPoints, List.filterMap_append]
      cases step <;> exact hadds
    | true =>
      rw [perform_of_drops hdrops]
      rfl

theorem givenPoints_cons (step : PathStep) (steps : List PathStep) :
    givenPoints (step :: steps) = step.point?.toList ++ givenPoints steps := by
  rw [givenPoints, List.filterMap_cons]
  cases step.point? <;> rfl

theorem captured_sublist (p : Path) (steps : List PathStep) :
    ((p.captured steps).flatMap (·.points) ++ (p.run steps).1.points).Sublist (p.points ++ givenPoints steps) := by
  induction steps generalizing p with
  | nil => simp [captured, run, givenPoints]
  | cons step steps ih =>
    have hstep : ((step.looksAt p).flatMap (·.points) ++ (step.perform p).1.points).Sublist
        (p.points ++ step.point?.toList) := by
      by_cases hreset : step = .reset
      · subst hreset
        exact List.nil_sublist _
      · rw [points_perform p hreset]
    rw [captured, List.flatMap_append, givenPoints_cons, List.append_assoc, ← List.append_assoc p.points]
    refine ((ih (step.perform p).1).append_left _).trans ?_
    rw [← List.append_assoc]
    exact hstep.append_right _

theorem captured_eq (p : Path) {steps : List PathStep} (h : .reset ∉ steps) :
    (p.captured steps).flatMap (·.points) ++ (p.run steps).1.points = p.points ++ givenPoints steps := by
  induction steps generalizing p with
  | nil => simp [captured, run, givenPoints]
  | cons step steps ih =>
    obtain ⟨hstep, hsteps⟩ := List.ne_and_not_mem_of_not_mem_cons h
    rw [captured, List.flatMap_append, givenPoints_cons, List.append_assoc, ← List.append_assoc p.points,
      ← points_perform p (Ne.symm hstep), List.append_assoc, ← ih (step.perform p).1 hsteps]
    rfl

/-- A capture looks for boxes among the subpaths drawn since the path was last dropped. What follows is as if it began
with a new path. -/
theorem run_capture (steps more : List PathStep) (color : Option String) :
    empty.run (steps ++ .capture color :: more) =
      ((empty.run more).1, (empty.run steps).2 ++
        (drawnSubpaths steps).filterMap (spannedBox? ·.points color) ++ (empty.run more).2) := by
  have hboxes : (empty.run steps).1.boxes color =
      (drawnSubpaths steps).filterMap (spannedBox? ·.points color) := by
    rw [boxes, run_eq_ofStrokes, strokes, allFinished_ofStrokes]
    rfl
  rw [run_append, ← hboxes, List.append_assoc]
  rfl

/-- Whatever has been done, the path holds the points given since it was last dropped, in order, in subpaths that a move
begins or the first point after finishing; none of the finished ones is without points. A capture answers with the
boxes among these subpaths and leaves a new path. No point is in two of the subpaths that captures look at or that are
left; none is missing from them unless there has been a reset. -/
theorem run_keepsPoints (steps : List PathStep) :
    (empty.run steps).1 = ofStrokes (strokes steps) ∧
    (empty.run steps).1.points = givenPoints (sinceDrop steps) ∧
    (∀ s ∈ (empty.run steps).1.finished, s.points ≠ []) ∧
    (∀ (more : List PathStep) (color : Option String), empty.run (steps ++ .capture color :: more) =
      ((empty.run more).1, (empty.run steps).2 ++
        (drawnSubpaths steps).filterMap (spannedBox? ·.points color) ++ (empty.run more).2)) ∧
    ((empty.captured steps).flatMap (·.points) ++ (empty.run steps).1.points).Sublist (givenPoints steps) ∧
    (.reset ∉ steps → (empty.captured steps).flatMap (·.points) ++ (empty.run steps).1.points = givenPoints steps) := by
  refine ⟨run_eq_ofStrokes steps, points_run steps, fun s hs => ?_, run_capture steps, captured_sublist empty steps,
    captured_eq empty⟩
  rw [run_eq_ofStrokes] at hs
  simpa using (List.mem_filter.1 hs).2

def squareThenLine : List PathStep :=
  [.close, .moveTo ⟨0, 0⟩, .lineTo ⟨2, 0⟩, .lineTo ⟨2, 1⟩, .lineTo ⟨0, 1⟩, .close, .finishSubpaths, .close,
    .capture none, .close, .lineTo ⟨3, 3⟩]

theorem squareThenLine_keepsPoints :
    .reset ∉ squareThenLine ∧
    (empty.captured squareThenLine).flatMap (·.points) ++ (empty.run squareThenLine).1.points =
      givenPoints squareThenLine ∧
    empty.run squareThenLine = (⟨⟨[⟨3, 3⟩], true⟩, []⟩, [⟨0, 0, 2, 1, none⟩]) := by
  obtain ⟨-, -, -, -, -, hall⟩ := run_keepsPoints squareThenLine
  have hreset : .reset ∉ squareThenLine := by decide
  exact ⟨hreset, hall hreset, by decide +kernel⟩

end Path

def Command.pathSteps (color : Option String) : Command → List PathStep
  | .box x y width height => [.moveTo ⟨x, y⟩, .lineTo ⟨x + width, y⟩, .lineTo ⟨x + width, y + height⟩,
      .lineTo ⟨x, y + height⟩, .close]
  | .moveTo q => [.moveTo q]
  | .lineTo q => [.lineTo q]
  | .closePath => [.close]
  | .fill => [.capture color]
  | .dropPath => [.reset]
  | _ => []

namespace Drawing

def pathSteps (d : Drawing) (scope : Scope) : List Command → List PathStep
  | [] => []
  | c :: cs => c.pathSteps d.graphics.color ++ (d.apply scope c).pathSteps scope cs

theorem path_apply (d : Drawing) (scope : Scope) (c : Command) :
    (d.apply scope c).path = (d.path.run (c.pathSteps d.graphics.color)).1 := by
  cases c with
  | showText text => simp only [apply, showText]; split <;> rfl
  | nextLineShow text => simp only [apply, showText, nextLine]; split <;> rfl
  | invoke name =>
    simp only [apply, invoke]
    repeat' split
    all_goals rfl
  | _ => rfl

theorem path_carryOut (d : Drawing) (scope : Scope) (cs : List Command) :
    (d.carryOut scope cs).path = (d.path.run (d.pathSteps scope cs)).1 := by
  induction cs generalizing d with
  | nil => rfl
  | cons c cs ih => rw [carryOut_cons, ih, pathSteps, Path.run_append, path_apply]

end Drawing

end WeekGrid.Page
