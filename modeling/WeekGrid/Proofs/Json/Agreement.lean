import Mathlib.Data.List.Forall2
import WeekGrid.Json.Basic

/-!
When two JSON values are the same. An array is its items in order; an object is what stands under each key,
so that the order of its members does not count.
-/
namespace WeekGrid.Json

inductive Agrees : Json → Json → Prop where
  | null : Agrees null null
  | boolean (value : Bool) : Agrees (boolean value) (boolean value)
  | integer (value : Int) : Agrees (integer value) (integer value)
  | real (value : Binary64) : Agrees (real value) (real value)
  | text (value : String) : Agrees (text value) (text value)
  | array {items items'} (h : List.Forall₂ Agrees items items') : Agrees (array items) (array items')
  | object {members members'} (h : ∀ key, Option.Rel Agrees (members.lookup key) (members'.lookup key)) :
      Agrees (object members) (object members')

theorem sizeOf_lt_of_lookup {members : List (String × Json)} {key : String} {value : Json}
    (h : members.lookup key = some value) : sizeOf value < sizeOf members := by
  obtain ⟨before, after, rfl, -⟩ := List.lookup_eq_some_iff.1 h
  have hpair : (key, value) ∈ before ++ (key, value) :: after := by simp
  have hless := List.sizeOf_lt_of_mem hpair
  simp only [Prod.mk.sizeOf_spec] at hless
  omega

namespace Agrees

theorem refl (value : Json) : Agrees value value := by
  match value with
  | .null => exact .null
  | .boolean value => exact .boolean value
  | .integer value => exact .integer value
  | .real value => exact .real value
  | .text value => exact .text value
  | .array items => exact .array (List.forall₂_same.2 fun item _ => refl item)
  | .object members =>
    refine .object fun key => ?_
    cases hvalue : members.lookup key with
    | none => exact .none
    | some member =>
      have hless : sizeOf member < sizeOf members := sizeOf_lt_of_lookup hvalue
      exact .some (refl member)

variable {members members' : List (String × Json)}

theorem member {value value' : Json} (h : (Json.object members).Agrees (.object members')) (key : String)
    (hvalue : members.lookup key = some value) (hvalue' : members'.lookup key = some value') :
    Agrees value value' := by
  cases h with
  | object h =>
    have hkey := h key
    rw [hvalue, hvalue'] at hkey
    cases hkey with
    | some h => exact h

theorem text_inj {s s' : String} (h : (Json.text s).Agrees (.text s')) : s = s' := by
  cases h
  rfl

theorem integer_inj {n n' : Int} (h : (Json.integer n).Agrees (.integer n')) : n = n' := by
  cases h
  rfl

theorem items {items items' : List Json} (h : (Json.array items).Agrees (.array items')) :
    List.Forall₂ Agrees items items' := by
  cases h with
  | array h => exact h

end Agrees
end WeekGrid.Json
