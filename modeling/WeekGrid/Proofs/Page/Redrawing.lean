import Mathlib.Data.Finset.Card
import Mathlib.Data.List.Forall2
import Mathlib.Data.List.Rotate
import Mathlib.Logic.Relation
import WeekGrid.Proofs.Binary64.Monotone
import WeekGrid.Proofs.Page.Corners

/-!
Outlines that are drawn again. What is recorded for points depends only on which points there are, and on whether four
were given: it makes no difference in which direction an outline is drawn, where it begins, and how often it is closed.
-/
namespace WeekGrid.Page

def places (xs : List Binary64) : Finset (Option Int) := (xs.map (·.level)).toFinset

section Places

variable {xs ys : List Binary64}

theorem mem_places {a : Option Int} : a ∈ places xs ↔ ∃ x ∈ xs, x.level = a := by
  simp [places]

theorem places_congr (h : ∀ x, x ∈ xs ↔ x ∈ ys) : places xs = places ys := by
  ext a
  simp only [mem_places, h]

variable (hxs : ∀ x ∈ xs, x.same x = true)
include hxs

theorem places_distinct : places (distinct [] xs) = places xs := by
  ext a
  rw [mem_places, mem_places]
  constructor
  · rintro ⟨x, hx, ha⟩
    exact ⟨x, (mem_of_mem_distinct hx).resolve_left List.not_mem_nil, ha⟩
  · rintro ⟨x, hx, ha⟩
    obtain ⟨y, hy, hsame⟩ : ∃ y ∈ distinct [] xs, x.same y = true := exists_same_mem_distinct (hxs x hx) hx
    exact ⟨y, hy, (Binary64.level_eq_of_same hsame).symm.trans ha⟩

theorem length_distinct : (distinct [] xs).length = (places xs).card := by
  have hnodup : ((distinct [] xs).map (·.level)).Nodup := by
    have hapart : (distinct [] xs).Pairwise fun x y => x.same y = false := pairwise_distinct List.Pairwise.nil
    refine List.pairwise_map.2 (hapart.imp_of_mem fun {x y} hx hy hxy heq => ?_)
    have hx := hxs x ((mem_of_mem_distinct hx).resolve_left List.not_mem_nil)
    obtain ⟨a, ha, -⟩ := Binary64.same_iff.1 hx
    rw [Binary64.same_iff.2 ⟨a, ha, heq.symm.trans ha⟩] at hxy
    cases hxy
  rw [← places_distinct hxs, places, List.toFinset_card_of_nodup hnodup, List.length_map]

end Places

theorem exists_spannedBox?_iff {points : List Point} {color : Option String} :
    (∃ box, spannedBox? points color = some box) ↔ 4 ≤ points.length ∧
      (distinct [] (points.map (·.x))).length = 2 ∧ (distinct [] (points.map (·.y))).length = 2 := by
  rw [List.length_eq_two, List.length_eq_two]
  constructor
  · rintro ⟨box, hbox⟩
    unfold spannedBox? at hbox
    split at hbox
    · cases hbox
    · next henough =>
      split at hbox
      · next hx hy => exact ⟨Nat.not_lt.1 henough, ⟨_, _, hx⟩, _, _, hy⟩
      · cases hbox
  · rintro ⟨henough, ⟨x₁, x₂, hx⟩, y₁, y₂, hy⟩
    rw [spannedBox?, if_neg (Nat.not_lt.2 henough), hx, hy]
    exact ⟨_, rfl⟩

/-- The smaller and the larger of two numbers are the least and the greatest of all. -/
structure Extremes (xs : List Binary64) (least greatest : Binary64) : Prop extends Ends xs least greatest where
  least_le : ∀ x ∈ xs, least.le x = true
  le_greatest : ∀ x ∈ xs, x.le greatest = true

theorem Ends.extremes {xs : List Binary64} {low high : Binary64} (h : Ends xs low high) : Extremes xs low high := by
  have hlow : low.le high = true := Binary64.le_of_lt h.low_lt_high
  refine ⟨h, fun x hx => ?_, fun x hx => ?_⟩
  · rcases h.either x hx with hsame | hsame
    · exact Binary64.le_of_same (Binary64.isTest_same.symm hsame)
    · rwa [Binary64.le_congr_right hsame]
  · rcases h.either x hx with hsame | hsame
    · rwa [Binary64.le_congr_left hsame]
    · exact Binary64.le_of_same hsame

theorem Extremes.same {xs ys : List Binary64} {low high low' high' : Binary64} (h : Extremes xs low high)
    (h' : Extremes ys low' high') (hmem : ∀ x, x ∈ xs ↔ x ∈ ys) : low.same low' = true ∧ high.same high' = true := by
  constructor
  · exact Binary64.same_of_le_of_le (h.least_le low' ((hmem low').2 h'.low_mem))
      (h'.least_le low ((hmem low).1 h.low_mem))
  · exact Binary64.same_of_le_of_le (h'.le_greatest high ((hmem high).1 h.high_mem))
      (h.le_greatest high' ((hmem high').2 h'.high_mem))

/-- How far some numbers reach: from the least of them to the greatest, which is further than nothing. There are no
others among them. -/
structure Reach (xs : List Binary64) (start extent : Binary64) : Prop where
  ends : ∃ last, Extremes xs start last ∧ extent = last - start
  extent_pos : Binary64.lt 0 extent = true

section Reach

variable {xs ys : List Binary64} (hfinite : ∀ x ∈ xs, x.isFinite = true)
include hfinite

theorem Ends.reach {low high : Binary64} (h : Ends xs low high) : Reach xs low (high - low) :=
  ⟨⟨high, h.extremes, rfl⟩,
    Binary64.sub_pos_of_lt (hfinite high h.high_mem) (hfinite low h.low_mem) h.low_lt_high⟩

theorem Reach.same {start extent start' extent' : Binary64} (h : Reach xs start extent) (h' : Reach ys start' extent')
    (hmem : ∀ x, x ∈ xs ↔ x ∈ ys) : start.same start' = true ∧ extent.same extent' = true := by
  obtain ⟨last, hextremes, rfl⟩ := h.ends
  obtain ⟨last', hextremes', rfl⟩ := h'.ends
  have hfinite' : ∀ y ∈ ys, y.isFinite = true := fun y hy => hfinite y ((hmem y).2 hy)
  obtain ⟨hstart, hlast⟩ := hextremes.same hextremes' hmem
  exact ⟨hstart, Binary64.same_sub (hfinite last hextremes.high_mem) (hfinite start hextremes.low_mem)
    (hfinite' last' hextremes'.high_mem) (hfinite' start' hextremes'.low_mem) hlast hstart⟩

end Reach

/-- What a box is to the points that it is recorded for: it reaches as far as they do, across and upward. -/
structure Box.Encloses (box : Box) (points : List Point) : Prop where
  across : Reach (points.map (·.x)) box.x box.width
  upward : Reach (points.map (·.y)) box.y box.height

/-- Boxes at one place, of one extent and colour; zeros of either sign are equal. -/
structure Box.Same (b c : Box) : Prop where
  x : b.x.same c.x = true
  y : b.y.same c.y = true
  width : b.width.same c.width = true
  height : b.height.same c.height = true
  color : b.color = c.color

/-- The same points, fewer than four of them both times or neither time. -/
structure SamePoints (points more : List Point) : Prop where
  mem_iff : ∀ p, p ∈ points ↔ p ∈ more
  enough_iff : 4 ≤ points.length ↔ 4 ≤ more.length

namespace SamePoints

variable {points more : List Point}

theorem refl (points : List Point) : SamePoints points points := ⟨fun _ => .rfl, .rfl⟩

theorem symm (h : SamePoints points more) : SamePoints more points :=
  ⟨fun p => (h.mem_iff p).symm, h.enough_iff.symm⟩

theorem trans {last : List Point} (h : SamePoints points more) (h' : SamePoints more last) : SamePoints points last :=
  ⟨fun p => (h.mem_iff p).trans (h'.mem_iff p), h.enough_iff.trans h'.enough_iff⟩

theorem of_perm (h : points.Perm more) : SamePoints points more :=
  ⟨fun _ => h.mem_iff, by rw [h.length_eq]⟩

theorem of_subperm (hlength : 4 ≤ points.length) (h : points.Subperm more) (hsubset : more ⊆ points) :
    SamePoints points more :=
  ⟨fun _ => ⟨fun hp => h.subset hp, fun hp => hsubset hp⟩, iff_of_true hlength (hlength.trans h.length_le)⟩

theorem mem_map_iff (h : SamePoints points more) (coordinate : Point → Binary64) (x : Binary64) :
    x ∈ points.map coordinate ↔ x ∈ more.map coordinate := by
  simp only [List.mem_map, h.mem_iff]

end SamePoints

section Spanned

variable {points : List Point} (hfinite : ∀ p ∈ points, p.isFinite = true) {color : Option String}
include hfinite

theorem isFinite_coordinates :
    (∀ x ∈ points.map (·.x), x.isFinite = true) ∧ ∀ y ∈ points.map (·.y), y.isFinite = true :=
  ⟨List.forall_mem_map.2 fun p hp => (Bool.and_eq_true_iff.1 (hfinite p hp)).1,
    List.forall_mem_map.2 fun p hp => (Bool.and_eq_true_iff.1 (hfinite p hp)).2⟩

theorem exists_spannedBox?_iff_places : (∃ box, spannedBox? points color = some box) ↔ 4 ≤ points.length ∧
    (places (points.map (·.x))).card = 2 ∧ (places (points.map (·.y))).card = 2 := by
  obtain ⟨hxs, hys⟩ := isFinite_coordinates hfinite
  rw [exists_spannedBox?_iff, length_distinct fun x hx => Binary64.same_self_of_isFinite (hxs x hx),
    length_distinct fun y hy => Binary64.same_self_of_isFinite (hys y hy)]

theorem encloses_of_spannedBox? {box : Box} (h : spannedBox? points color = some box) :
    box.Encloses points ∧ box.color = color := by
  obtain ⟨hxs, hys⟩ := isFinite_coordinates hfinite
  obtain ⟨f, rfl, hspans, -⟩ := recordedFor_of_spannedBox? hfinite h
  exact ⟨⟨hspans.sides.reach hxs, hspans.levels.reach hys⟩, rfl⟩

theorem same_of_encloses {more : List Point} {box other : Box} (h : SamePoints points more)
    (hbox : box.Encloses points) (hother : other.Encloses more) (hcolor : box.color = other.color) :
    box.Same other := by
  obtain ⟨hxs, hys⟩ := isFinite_coordinates hfinite
  obtain ⟨hx, hwidth⟩ := hbox.across.same hxs hother.across (h.mem_map_iff _)
  obtain ⟨hy, hheight⟩ := hbox.upward.same hys hother.upward (h.mem_map_iff _)
  exact ⟨hx, hy, hwidth, hheight, hcolor⟩

theorem SamePoints.spannedBox?_same {more : List Point} (h : SamePoints points more) :
    Option.Rel Box.Same (spannedBox? points color) (spannedBox? more color) := by
  have hmore : ∀ p ∈ more, p.isFinite = true := fun p hp => hfinite p ((h.mem_iff p).2 hp)
  -- Whether there is a box is a matter of counts, and those are the same; which box it is, of least and greatest.
  have hexists : (∃ box, spannedBox? points color = some box) ↔ ∃ box, spannedBox? more color = some box := by
    rw [exists_spannedBox?_iff_places hfinite, exists_spannedBox?_iff_places hmore, h.enough_iff,
      places_congr (h.mem_map_iff _), places_congr (h.mem_map_iff _)]
  cases hbox : spannedBox? points color with
  | none =>
    have hnone : spannedBox? more color = none := by
      refine Option.eq_none_iff_forall_ne_some.2 fun other hother => ?_
      obtain ⟨box, hsome⟩ := hexists.2 ⟨other, hother⟩
      rw [hbox] at hsome
      cases hsome
    rw [hnone]
    exact .none
  | some box =>
    obtain ⟨other, hother⟩ := hexists.1 ⟨box, hbox⟩
    obtain ⟨hencloses, hcolor⟩ := encloses_of_spannedBox? hfinite hbox
    obtain ⟨hencloses', hcolor'⟩ := encloses_of_spannedBox? hmore hother
    rw [hother]
    exact .some (same_of_encloses hfinite h hencloses hencloses' (hcolor.trans hcolor'.symm))

end Spanned

/-- Other ways to draw an outline: the other way round, from another point on, or once more back to the first point. -/
inductive Redraw : List Point → List Point → Prop where
  | reversed (points : List Point) : Redraw points points.reverse
  | begunAt (points : List Point) (n : Nat) : Redraw points (points.rotate n)
  | closed {first : Point} {rest : List Point} (h : 4 ≤ (first :: rest).length) :
      Redraw (first :: rest) (first :: rest ++ [first])

theorem Redraw.samePoints {points more : List Point} (h : Redraw points more) : SamePoints points more := by
  cases h with
  | reversed => exact .of_perm points.reverse_perm.symm
  | begunAt _ n => exact .of_perm (points.rotate_perm n).symm
  | closed h => exact .of_subperm h (List.sublist_append_left ..).subperm (by simp)

open Relation (EqvGen)

theorem samePoints_of_redrawn {points more : List Point} (h : EqvGen Redraw points more) : SamePoints points more := by
  induction h with
  | rel _ _ hredraw => exact hredraw.samePoints
  | refl points => exact .refl points
  | symm _ _ _ ih => exact ih.symm
  | trans _ _ _ _ _ ih ih' => exact ih.trans ih'

theorem boxes_of_redrawn {path other : Path} (hfinite : ∀ p ∈ path.points, p.isFinite = true) (color : Option String)
    (h : List.Forall₂ (fun s t => EqvGen Redraw s.points t.points) path.allFinished other.allFinished) :
    List.Forall₂ Box.Same (path.boxes color) (other.boxes color) := by
  have hsubpath : ∀ s ∈ path.allFinished, ∀ p ∈ s.points, p.isFinite = true := by
    intro s hs p hp
    refine hfinite p ?_
    rw [← path.flatMap_allFinished]
    exact List.mem_flatMap.2 ⟨s, hs, hp⟩
  refine List.rel_filterMap ?_ ((List.forall₂_and_left _ _).2 ⟨hsubpath, h⟩)
  exact fun s t hst => (samePoints_of_redrawn hst.2).spannedBox?_same hst.1

/-- Finite points span the same box, or none, in whatever order they are given and, from four points on, however often
any of them is repeated. They span one exactly if there are four at least and their coordinates are two numbers of
either kind; the box encloses them then. A path captures the same boxes if its outlines are drawn the other way round,
from another point on or once more back to their first points. -/
theorem sameBoxes_redrawn (color : Option String) :
    (∀ points, (∀ p ∈ points, Point.isFinite p = true) →
      (∀ more, points.Perm more → Option.Rel Box.Same (spannedBox? points color) (spannedBox? more color)) ∧
      (4 ≤ points.length → ∀ more, points.Subperm more → more ⊆ points →
        Option.Rel Box.Same (spannedBox? points color) (spannedBox? more color)) ∧
      ((∃ box, spannedBox? points color = some box) ↔ 4 ≤ points.length ∧
        (places (points.map (·.x))).card = 2 ∧ (places (points.map (·.y))).card = 2) ∧
      ∀ box, spannedBox? points color = some box → box.Encloses points ∧ box.color = color) ∧
    ∀ path other : Path, (∀ p ∈ path.points, Point.isFinite p = true) →
      List.Forall₂ (fun s t => EqvGen Redraw s.points t.points) path.allFinished other.allFinished →
      List.Forall₂ Box.Same (path.boxes color) (other.boxes color) := by
  refine ⟨fun points hfinite => ⟨fun more h => ?_, fun hlength more h hsubset => ?_, ?_, fun box => ?_⟩,
    fun path other hfinite => boxes_of_redrawn hfinite color⟩
  · exact (SamePoints.of_perm h).spannedBox?_same hfinite
  · exact (SamePoints.of_subperm hlength h hsubset).spannedBox?_same hfinite
  · exact exists_spannedBox?_iff_places hfinite
  · exact encloses_of_spannedBox? hfinite

def signedSquare : List Point := [⟨0, 0⟩, ⟨50, 0⟩, ⟨50, 50⟩, ⟨-0, 50⟩]

def turnedSquare : List Point := [⟨-0, 50⟩, ⟨50, 50⟩, ⟨50, 0⟩, ⟨0, 0⟩, ⟨-0, 50⟩]

/-- The left sides of the two boxes are zeros of different signs. -/
theorem turnedSquare_boxes :
    (∀ p ∈ signedSquare, p.isFinite = true) ∧ EqvGen Redraw signedSquare turnedSquare ∧
    spannedBox? signedSquare none = some ⟨0, 0, 50, 50, none⟩ ∧
    (⟨0, 0, 50, 50, none⟩ : Box).Encloses signedSquare ∧
    (Path.mk ⟨turnedSquare, false⟩ []).boxes none = [⟨-0, 0, 50, 50, none⟩] ∧
    List.Forall₂ Box.Same ((Path.mk ⟨signedSquare, true⟩ []).boxes none)
      ((Path.mk ⟨turnedSquare, false⟩ []).boxes none) := by
  have hfinite : ∀ p ∈ signedSquare, p.isFinite = true := by decide +kernel
  have hredrawn : EqvGen Redraw signedSquare turnedSquare :=
    .trans _ signedSquare.reverse _ (.rel _ _ (.reversed _)) (.rel _ _ (.closed (by decide)))
  have hspanned : spannedBox? signedSquare none = some ⟨0, 0, 50, 50, none⟩ := by decide +kernel
  obtain ⟨hpoints, hpaths⟩ := sameBoxes_redrawn none
  obtain ⟨-, -, -, hencloses⟩ := hpoints signedSquare hfinite
  exact ⟨hfinite, hredrawn, hspanned, (hencloses _ hspanned).1, by decide +kernel,
    hpaths _ _ (by simpa [Path.points] using hfinite) (.cons hredrawn .nil)⟩

end WeekGrid.Page
