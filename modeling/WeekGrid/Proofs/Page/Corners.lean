import Mathlib.Data.List.Perm.Subperm
import WeekGrid.Page.Path
import WeekGrid.Proofs.Binary64.Order

/-!
The corners of recorded boxes. A box is recorded for points on the sides of an upright frame, and such points all
stand at corners of the frame. Two opposite corners are always among them; all four are exactly if four of the points
are at different places. A triangle with an upright and a level side, or a line across, is recorded too where its
points are repeated.
-/
namespace WeekGrid.Page

section Distinct

variable {seen xs : List Binary64} {x y : Binary64}

theorem mem_of_mem_distinct (h : x ∈ distinct seen xs) : x ∈ seen ∨ x ∈ xs := by
  induction xs generalizing seen with
  | nil => exact .inl (List.mem_reverse.1 h)
  | cons first xs ih =>
    rw [distinct] at h
    split at h
    · exact (ih h).imp_right (List.mem_cons_of_mem first)
    · rcases ih h with hseen | hxs
      · rcases List.mem_cons.1 hseen with rfl | hseen
        · exact .inr List.mem_cons_self
        · exact .inl hseen
      · exact .inr (List.mem_cons_of_mem first hxs)

theorem mem_distinct_of_mem_seen (h : x ∈ seen) : x ∈ distinct seen xs := by
  induction xs generalizing seen with
  | nil => exact List.mem_reverse.2 h
  | cons first xs ih =>
    rw [distinct]
    split
    · exact ih h
    · exact ih (List.mem_cons_of_mem first h)

theorem exists_same_mem_distinct (hx : x.same x = true) (h : x ∈ xs) : ∃ y ∈ distinct seen xs, x.same y = true := by
  induction xs generalizing seen with
  | nil => cases h
  | cons first xs ih =>
    rw [distinct]
    rcases List.mem_cons.1 h with rfl | h
    · split
      · next hseen =>
        obtain ⟨y, hy, hsame⟩ := List.any_eq_true.1 hseen
        exact ⟨y, mem_distinct_of_mem_seen hy, hsame⟩
      · exact ⟨x, mem_distinct_of_mem_seen List.mem_cons_self, hx⟩
    · split
      · exact ih h
      · exact ih h

theorem pairwise_distinct (h : seen.Pairwise fun x y => x.same y = false) :
    (distinct seen xs).Pairwise fun x y => x.same y = false := by
  induction xs generalizing seen with
  | nil =>
    refine List.pairwise_reverse.2 (h.imp fun {x y} hxy => ?_)
    exact Bool.eq_false_iff.2 fun hyx => Bool.eq_false_iff.1 hxy (Binary64.isTest_same.symm hyx)
  | cons first xs ih =>
    rw [distinct]
    split
    · exact ih h
    · next hseen =>
      refine ih (List.pairwise_cons.2 ⟨fun y hy => Bool.eq_false_iff.2 fun hsame => ?_, h⟩)
      exact hseen (List.any_eq_true.2 ⟨y, hy, hsame⟩)

end Distinct

/-- Numbers that come to two different ones: a smaller and a larger one are among them, and no others. -/
structure Ends (xs : List Binary64) (low high : Binary64) : Prop where
  low_mem : low ∈ xs
  high_mem : high ∈ xs
  low_lt_high : low.lt high = true
  either : ∀ x ∈ xs, x.same low = true ∨ x.same high = true

theorem ends_of_distinct {xs : List Binary64} {a b : Binary64} (hxs : ∀ x ∈ xs, x.same x = true)
    (h : distinct [] xs = [a, b]) : Ends xs (ordered a b).1 (ordered a b).2 := by
  have hmem : ∀ x ∈ [a, b], x ∈ xs := by
    intro x hx
    rw [← h] at hx
    exact (mem_of_mem_distinct hx).resolve_left List.not_mem_nil
  have ha : a ∈ xs := hmem a (by simp)
  have hb : b ∈ xs := hmem b (by simp)
  have hdiffer : a.same b = false := by
    have hpairwise : (distinct [] xs).Pairwise fun x y => x.same y = false := pairwise_distinct List.Pairwise.nil
    rw [h] at hpairwise
    exact List.rel_of_pairwise_cons hpairwise (List.mem_singleton_self b)
  have heither : ∀ x ∈ xs, x.same a = true ∨ x.same b = true := by
    intro x hx
    obtain ⟨y, hy, hsame⟩ : ∃ y ∈ distinct [] xs, x.same y = true := exists_same_mem_distinct (hxs x hx) hx
    rw [h] at hy
    rcases List.mem_pair.1 hy with rfl | rfl
    · exact .inl hsame
    · exact .inr hsame
  unfold ordered
  split
  · next hlt => exact ⟨hb, ha, hlt, fun x hx => (heither x hx).symm⟩
  · next hlt =>
    exact ⟨ha, hb, (Binary64.lt_or_lt_of_not_same (hxs a ha) (hxs b hb) hdiffer).resolve_right hlt, heither⟩

/-- An upright rectangle by its sides. -/
structure Frame where
  left : Binary64
  right : Binary64
  bottom : Binary64
  top : Binary64
  left_lt_right : left.lt right = true
  bottom_lt_top : bottom.lt top = true

inductive Corner where
  | bottomLeft
  | bottomRight
  | topRight
  | topLeft
  deriving DecidableEq, Inhabited

namespace Corner

def all : List Corner := [bottomLeft, bottomRight, topRight, topLeft]

theorem mem_all (c : Corner) : c ∈ all := by cases c <;> decide

theorem nodup_all : all.Nodup := by decide

def opposite : Corner → Corner
  | bottomLeft => topRight
  | bottomRight => topLeft
  | topRight => bottomLeft
  | topLeft => bottomRight

end Corner

def Point.samePlace (p q : Point) : Bool := p.x.same q.x && p.y.same q.y

theorem Point.samePlace_iff {p q : Point} : p.samePlace q = true ↔ p.x.same q.x = true ∧ p.y.same q.y = true :=
  Bool.and_eq_true_iff

theorem Point.samePlace_symm {p q : Point} (h : p.samePlace q = true) : q.samePlace p = true := by
  obtain ⟨hx, hy⟩ := samePlace_iff.1 h
  exact samePlace_iff.2 ⟨Binary64.isTest_same.symm hx, Binary64.isTest_same.symm hy⟩

theorem Point.samePlace_trans {p q r : Point} (h : p.samePlace q = true) (h' : q.samePlace r = true) :
    p.samePlace r = true := by
  obtain ⟨hx, hy⟩ := samePlace_iff.1 h
  obtain ⟨hx', hy'⟩ := samePlace_iff.1 h'
  exact samePlace_iff.2 ⟨Binary64.isTest_same.trans hx hx', Binary64.isTest_same.trans hy hy'⟩

def Point.isFinite (p : Point) : Bool := p.x.isFinite && p.y.isFinite

/-- Four points of a list are at four different places. -/
def HasFourPlaces (points : List Point) : Prop :=
  ∃ four : List Point, four.length = 4 ∧ (∀ p ∈ four, p ∈ points) ∧
    four.Pairwise fun p q => p.samePlace q = false

namespace Frame

variable {f : Frame} {points : List Point}

def corner (f : Frame) : Corner → Point
  | .bottomLeft => ⟨f.left, f.bottom⟩
  | .bottomRight => ⟨f.right, f.bottom⟩
  | .topRight => ⟨f.right, f.top⟩
  | .topLeft => ⟨f.left, f.top⟩

def box (f : Frame) (color : Option String) : Box :=
  ⟨f.left, f.bottom, f.right - f.left, f.top - f.bottom, color⟩

def Touches (f : Frame) (points : List Point) (c : Corner) : Prop := ∃ p ∈ points, p.samePlace (f.corner c) = true

/-- The frame spans some points: each of its sides has one, and they all are on an upright and on a level side. -/
structure Spans (f : Frame) (points : List Point) : Prop where
  sides : Ends (points.map (·.x)) f.left f.right
  levels : Ends (points.map (·.y)) f.bottom f.top

theorem corner_injective {c d : Corner} (h : (f.corner c).samePlace (f.corner d) = true) : c = d := by
  have hlr := Binary64.not_same_of_lt f.left_lt_right
  have hbt := Binary64.not_same_of_lt f.bottom_lt_top
  have hrl : f.left.same f.right = false := (Binary64.same_comm ..).trans hlr
  have htb : f.bottom.same f.top = false := (Binary64.same_comm ..).trans hbt
  cases c <;> cases d <;> simp_all [corner, Point.samePlace]

theorem Spans.exists_corner (h : f.Spans points) {p : Point} (hp : p ∈ points) :
    ∃ c, p.samePlace (f.corner c) = true := by
  have hx := h.sides.either p.x (List.mem_map_of_mem hp)
  have hy := h.levels.either p.y (List.mem_map_of_mem hp)
  rcases hx with hx | hx <;> rcases hy with hy | hy
  · exact ⟨.bottomLeft, Point.samePlace_iff.2 ⟨hx, hy⟩⟩
  · exact ⟨.topLeft, Point.samePlace_iff.2 ⟨hx, hy⟩⟩
  · exact ⟨.bottomRight, Point.samePlace_iff.2 ⟨hx, hy⟩⟩
  · exact ⟨.topRight, Point.samePlace_iff.2 ⟨hx, hy⟩⟩

section Sides

variable (h : f.Spans points)
include h

theorem Spans.touches_left : f.Touches points .bottomLeft ∨ f.Touches points .topLeft := by
  obtain ⟨p, hp, hleft⟩ := List.mem_map.1 h.sides.low_mem
  have hx : p.x.same f.left = true := by rw [hleft]; exact Binary64.same_self_of_lt f.left_lt_right
  refine (h.levels.either p.y (List.mem_map_of_mem hp)).imp ?_ ?_
  all_goals exact fun hy => ⟨p, hp, Point.samePlace_iff.2 ⟨hx, hy⟩⟩

theorem Spans.touches_right : f.Touches points .bottomRight ∨ f.Touches points .topRight := by
  obtain ⟨p, hp, hright⟩ := List.mem_map.1 h.sides.high_mem
  have hx : p.x.same f.right = true := by rw [hright]; exact Binary64.same_self_of_lt_right f.left_lt_right
  refine (h.levels.either p.y (List.mem_map_of_mem hp)).imp ?_ ?_
  all_goals exact fun hy => ⟨p, hp, Point.samePlace_iff.2 ⟨hx, hy⟩⟩

theorem Spans.touches_bottom : f.Touches points .bottomLeft ∨ f.Touches points .bottomRight := by
  obtain ⟨p, hp, hbottom⟩ := List.mem_map.1 h.levels.low_mem
  have hy : p.y.same f.bottom = true := by rw [hbottom]; exact Binary64.same_self_of_lt f.bottom_lt_top
  refine (h.sides.either p.x (List.mem_map_of_mem hp)).imp ?_ ?_
  all_goals exact fun hx => ⟨p, hp, Point.samePlace_iff.2 ⟨hx, hy⟩⟩

theorem Spans.touches_top : f.Touches points .topLeft ∨ f.Touches points .topRight := by
  obtain ⟨p, hp, htop⟩ := List.mem_map.1 h.levels.high_mem
  have hy : p.y.same f.top = true := by rw [htop]; exact Binary64.same_self_of_lt_right f.bottom_lt_top
  refine (h.sides.either p.x (List.mem_map_of_mem hp)).imp ?_ ?_
  all_goals exact fun hx => ⟨p, hp, Point.samePlace_iff.2 ⟨hx, hy⟩⟩

theorem Spans.touches_opposite : ∃ c, f.Touches points c ∧ f.Touches points c.opposite := by
  rcases h.touches_left with hleft | hleft <;> rcases h.touches_right with hright | hright
  · -- Both lower corners: a point of the top side is opposite to one of them.
    rcases h.touches_top with htop | htop
    · exact ⟨.topLeft, htop, hright⟩
    · exact ⟨.topRight, htop, hleft⟩
  · exact ⟨.bottomLeft, hleft, hright⟩
  · exact ⟨.topLeft, hleft, hright⟩
  · rcases h.touches_bottom with hbottom | hbottom
    · exact ⟨.bottomLeft, hbottom, hright⟩
    · exact ⟨.bottomRight, hbottom, hleft⟩

end Sides

theorem Spans.touches_all_iff (h : f.Spans points) : (∀ c, f.Touches points c) ↔ HasFourPlaces points := by
  constructor
  · intro htouches
    choose point hmem hplace using htouches
    refine ⟨Corner.all.map point, rfl, ?_, ?_⟩
    · intro p hp
      obtain ⟨c, -, rfl⟩ := List.mem_map.1 hp
      exact hmem c
    · refine List.pairwise_map.2 (Corner.nodup_all.imp fun {c d} hne => Bool.eq_false_iff.2 fun hsame => hne ?_)
      exact corner_injective
        (Point.samePlace_trans (Point.samePlace_symm (hplace c)) (Point.samePlace_trans hsame (hplace d)))
  · rintro ⟨four, hlength, hmem, hapart⟩ c
    choose! cornerOf hplace using fun p (hp : p ∈ points) => h.exists_corner hp
    have hnodup : (four.map cornerOf).Nodup := by
      refine List.pairwise_map.2 (hapart.imp_of_mem fun {p q} hp hq hpq heq => ?_)
      have hq' := Point.samePlace_symm (hplace q (hmem q hq))
      rw [← heq] at hq'
      rw [Point.samePlace_trans (hplace p (hmem p hp)) hq'] at hpq
      cases hpq
    have hperm := (hnodup.subperm fun d _ => d.mem_all).perm_of_length_le (by simp [hlength, Corner.all])
    obtain ⟨p, hp, rfl⟩ := List.mem_map.1 (hperm.mem_iff.2 c.mem_all)
    exact ⟨p, hmem p hp, hplace p (hmem p hp)⟩

end Frame

/-- What a recorded box says about the points it was recorded for. It is that of a frame round them which has two
opposite corners among the points, and all four exactly if four of the points are at different places. -/
def RecordedFor (points : List Point) (color : Option String) (box : Box) : Prop :=
  ∃ f : Frame, box = f.box color ∧ f.Spans points ∧ (∃ c, f.Touches points c ∧ f.Touches points c.opposite) ∧
    ((∀ c, f.Touches points c) ↔ HasFourPlaces points)

theorem recordedFor_of_spannedBox? {points : List Point} {color : Option String} {box : Box}
    (hfinite : ∀ p ∈ points, p.isFinite = true) (h : spannedBox? points color = some box) :
    RecordedFor points color box := by
  have hxs : ∀ x ∈ points.map (·.x), x.same x = true := by
    refine List.forall_mem_map.2 fun p hp => Binary64.same_self_of_isFinite ?_
    exact (Bool.and_eq_true_iff.1 (hfinite p hp)).1
  have hys : ∀ y ∈ points.map (·.y), y.same y = true := by
    refine List.forall_mem_map.2 fun p hp => Binary64.same_self_of_isFinite ?_
    exact (Bool.and_eq_true_iff.1 (hfinite p hp)).2
  unfold spannedBox? at h
  split at h
  · cases h
  · split at h
    · next x₁ x₂ y₁ y₂ hx hy =>
      have hsides := ends_of_distinct hxs hx
      have hlevels := ends_of_distinct hys hy
      let f : Frame := ⟨_, _, _, _, hsides.low_lt_high, hlevels.low_lt_high⟩
      have hspans : f.Spans points := ⟨hsides, hlevels⟩
      exact ⟨f, (Option.some.inj h).symm, hspans, hspans.touches_opposite, hspans.touches_all_iff⟩
    · cases h

/-- A box is recorded for a subpath of finite points only if it is that of a frame round them; two opposite corners of
the frame are among them then, and all four exactly if four of them are at different places. A fill records only boxes
of this kind, each for a subpath of its own path. -/
theorem recordedFor_of_finite (color : Option String) :
    (∀ points box, (∀ p ∈ points, Point.isFinite p = true) → spannedBox? points color = some box →
      RecordedFor points color box) ∧
    ∀ path : Path, (∀ p ∈ path.points, Point.isFinite p = true) → ∀ box ∈ path.boxes color,
      ∃ s ∈ path.allFinished, spannedBox? s.points color = some box ∧ RecordedFor s.points color box := by
  refine ⟨fun points box => recordedFor_of_spannedBox?, fun path hfinite box hbox => ?_⟩
  obtain ⟨s, hs, hspanned⟩ := List.mem_filterMap.1 hbox
  refine ⟨s, hs, hspanned, recordedFor_of_spannedBox? (fun p hp => hfinite p ?_) hspanned⟩
  rw [← path.flatMap_allFinished]
  exact List.mem_flatMap.2 ⟨s, hs, hp⟩

def closedSquare : List Point := [⟨0, 0⟩, ⟨50, 0⟩, ⟨50, 50⟩, ⟨0, 50⟩, ⟨0, 0⟩]

theorem closedSquare_touches : spannedBox? closedSquare none = some ⟨0, 0, 50, 50, none⟩ ∧
    ∃ f : Frame, ⟨0, 0, 50, 50, none⟩ = f.box none ∧ ∀ c, f.Touches closedSquare c := by
  have hspanned : spannedBox? closedSquare none = some ⟨0, 0, 50, 50, none⟩ := by decide +kernel
  have hfour : HasFourPlaces closedSquare :=
    ⟨[⟨0, 0⟩, ⟨50, 0⟩, ⟨50, 50⟩, ⟨0, 50⟩], rfl, by decide +kernel, by decide +kernel⟩
  obtain ⟨f, hbox, -, -, htouches⟩ := (recordedFor_of_finite none).1 _ _ (by decide +kernel) hspanned
  exact ⟨hspanned, f, hbox, htouches.2 hfour⟩

/-- A triangle that is closed by a line back to its start, and a line that is drawn there and back twice. -/
def closedTriangle : List Point := [⟨0, 0⟩, ⟨50, 0⟩, ⟨50, 20⟩, ⟨0, 0⟩]

def retracedLine : List Point := [⟨0, 0⟩, ⟨50, 20⟩, ⟨0, 0⟩, ⟨50, 20⟩]

/-- Both are recorded as boxes, although no point is at the upper left corner. -/
theorem closedTriangle_recorded :
    (spannedBox? closedTriangle none = some ⟨0, 0, 50, 20, none⟩ ∧
      ∀ p ∈ closedTriangle, p.samePlace ⟨0, 20⟩ = false) ∧
    (spannedBox? retracedLine none = some ⟨0, 0, 50, 20, none⟩ ∧
      ∀ p ∈ retracedLine, p.samePlace ⟨0, 20⟩ = false) := by
  decide +kernel

end WeekGrid.Page
