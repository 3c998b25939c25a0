import WeekGrid.Page.Color
import WeekGrid.Page.Path
import WeekGrid.Pdf.Content

/-!
The operators that matter for a page's layout, and how operands are taken off the top of their stack. With
none left, or one of the wrong kind, the taking breaks off, and what was taken stays taken.
-/
namespace WeekGrid.Page

open Pdf (Object)
open Text (Bytes)

inductive Operator where
  | box
  | moveTo
  | lineTo
  | closePath
  | fill
  | dropPath
  | fillColor
  | beginText
  | setMatrix
  | moveText
  | moveTextAndLead
  | setLeading
  | nextLine
  | showText
  | showPieces
  | nextLineShow
  | nextLineSpacedShow
  | invoke
  deriving DecidableEq, Repr

namespace Operator

/-- The keywords and what they do; the seven ways to fill a path do the same. -/
def table : List (String × Operator) :=
  [("re", box), ("m", moveTo), ("l", lineTo), ("h", closePath), ("n", dropPath), ("rg", fillColor),
    ("BT", beginText), ("Tm", setMatrix), ("Td", moveText), ("TD", moveTextAndLead),
    ("TL", setLeading), ("T*", nextLine), ("Tj", showText), ("TJ", showPieces), ("'", nextLineShow),
    ("\"", nextLineSpacedShow), ("Do", invoke), ("f", fill), ("F", fill), ("f*", fill), ("B", fill),
    ("B*", fill), ("b", fill), ("b*", fill)]

def ofKeyword? (keyword : Bytes) : Option Operator :=
  (table.find? fun (spelling, _) => Pdf.ascii spelling == keyword).map (·.2)

def keyword (op : Operator) : String :=
  ((table.find? fun (_, known) => known == op).map (·.1)).getD ""

end Operator

inductive OperandKind where
  | number
  | string
  | array
  | name
  deriving DecidableEq, Repr

def OperandKind.phrase : OperandKind → String
  | number => "a number"
  | string => "a string"
  | array => "an array"
  | name => "a name"

/-- Why an operator could not make use of its operands. -/
inductive OperandError where
  | missing (op : Operator)
  | unexpected (op : Operator) (wanted : OperandKind) (found : Object)

def OperandError.message : OperandError → String
  | missing op => "missing operand for " ++ Text.quoted op.keyword
  | unexpected op wanted found =>
    "expected " ++ wanted.phrase ++ " for " ++ Text.quoted op.keyword ++ ", got " ++ found.describe

/-- Why an operator was not carried out; a fault ends the whole reading. -/
inductive Mishap where
  | operand (error : OperandError)
  | fault (fault : Fault)

structure Matrix where
  a : Binary64
  b : Binary64
  c : Binary64
  d : Binary64
  e : Binary64
  f : Binary64
  deriving DecidableEq

def Matrix.identity : Matrix := ⟨1, 0, 0, 1, 0, 0⟩

theorem run_bind {σ α β : Type} (t : ExceptT Mishap (StateM σ) α) (f : α → ExceptT Mishap (StateM σ) β)
    (s : σ) :
    (t >>= f).run s = match t.run s with
      | (.ok a, s') => (f a).run s'
      | (.error mishap, s') => (.error mishap, s') := by
  simp only [ExceptT.run, bind, ExceptT.bind, ExceptT.mk, StateT.bind]
  cases t s with
  | mk result s' => cases result <;> rfl

theorem run_bind_eq_ok {σ α β : Type} {t : ExceptT Mishap (StateM σ) α} {f : α → ExceptT Mishap (StateM σ) β}
    {s s' : σ} {b : β} (h : (t >>= f).run s = (.ok b, s')) :
    ∃ a between, t.run s = (.ok a, between) ∧ (f a).run between = (.ok b, s') := by
  rw [run_bind] at h
  cases ht : t.run s with
  | mk result between =>
    rw [ht] at h
    cases result with
    | ok a => exact ⟨a, between, rfl, h⟩
    | error mishap => cases h

/-- Operands with the last one first; taking some leaves the others, also where it fails. -/
abbrev Taking := ExceptT Mishap (StateM (List Object))

namespace Taking

def take {α : Type} (op : Operator) (wanted : OperandKind)
    (read : Object → Option (Except Fault α)) : Taking α := do
  match ← get with
  | [] => throw (.operand (.missing op))
  | object :: rest =>
    set rest
    match read object with
    | some (.ok value) => return value
    | some (.error fault) => throw (.fault fault)
    | none => throw (.operand (.unexpected op wanted object))

section

variable {α : Type} (op : Operator) (wanted : OperandKind) (read : Object → Option (Except Fault α))

theorem run_pure (a : α) (operands : List Object) :
    (pure a : Taking α).run operands = (.ok a, operands) := rfl

theorem run_take_nil : (take op wanted read).run [] = (.error (.operand (.missing op)), []) := rfl

theorem run_take_cons (object : Object) (rest : List Object) :
    (take op wanted read).run (object :: rest) = (match read object with
      | some (.ok value) => .ok value
      | some (.error fault) => .error (.fault fault)
      | none => .error (.operand (.unexpected op wanted object)), rest) := by
  have htake : (take op wanted read).run (object :: rest) = ((match read object with
      | some (.ok value) => pure value
      | some (.error fault) => throw (.fault fault)
      | none => throw (.operand (.unexpected op wanted object))) : Taking α).run rest := rfl
  rw [htake]
  cases read object with
  | none => rfl
  | some result => cases result <;> rfl

end

/-- A number; an integer is turned into the nearest double. -/
def number (op : Operator) : Taking Binary64 :=
  take op .number fun
    | .integer n => some (Binary64.ofInt? n)
    | .real x => some (.ok x)
    | _ => none

def string (op : Operator) : Taking Bytes :=
  take op .string fun
    | .string bytes => some (.ok bytes)
    | _ => none

def array (op : Operator) : Taking (List Object) :=
  take op .array fun
    | .array items => some (.ok items)
    | _ => none

def name (op : Operator) : Taking String :=
  take op .name fun
    | .name bytes => some (.ok (Object.nameText bytes))
    | _ => none

end Taking

def joinedText (items : List Object) : String :=
  String.join <| items.filterMap fun
    | .string bytes => some (Text.decodeText bytes)
    | _ => none

end WeekGrid.Page
