import WeekGrid.Proofs.Page.Script

/-!
Which names a content stream invokes. Only the operator `Do` makes a command that invokes, and the name it
invokes is the operand right before it; so the names can be read off the items without running anything.
-/
namespace WeekGrid.Page

open Pdf (Object Item Reading)
open Text (Bytes)

namespace Taking

variable {α β : Type}

/-- Whatever operands there are, a value that is taken has the property. -/
def Yields (t : Taking α) (P : α → Prop) : Prop :=
  ∀ operands value rest, t.run operands = (.ok value, rest) → P value

theorem yields_pure {P : α → Prop} {a : α} (h : P a) : Yields (pure a) P := by
  intro operands value rest hrun
  cases hrun
  exact h

theorem yields_throw {P : α → Prop} (mishap : Mishap) : Yields (throw mishap) P := by
  intro operands value rest hrun
  cases hrun

theorem yields_bind {P : β → Prop} {t : Taking α} {f : α → Taking β} (h : ∀ a, Yields (f a) P) :
    Yields (t >>= f) P := by
  intro operands value rest hrun
  rw [run_bind] at hrun
  cases ht : t.run operands with
  | mk result left =>
    rw [ht] at hrun
    cases result with
    | error mishap => cases hrun
    | ok a => exact h a left value rest hrun

end Taking

def Command.isOf : Command → Operator → Bool
  | .box .., .box => true
  | .moveTo _, .moveTo => true
  | .lineTo _, .lineTo => true
  | .closePath, .closePath => true
  | .fill, .fill => true
  | .dropPath, .dropPath => true
  | .setColor _, .fillColor => true
  | .setMatrix _, op => op = .beginText ∨ op = .setMatrix
  | .translate .., op => op = .moveText ∨ op = .moveTextAndLead
  | .nextLine, .nextLine => true
  | .showText _, op => op = .showText ∨ op = .showPieces
  | .nextLineShow _, op => op = .nextLineShow ∨ op = .nextLineSpacedShow
  | .invoke _, .invoke => true
  | .nothing, .setLeading => true
  | _, _ => false

theorem Operator.yields_isOf (op : Operator) : Taking.Yields op.command fun c => c.isOf op := by
  cases op with
  | fillColor =>
    refine Taking.yields_bind fun b => Taking.yields_bind fun g => Taking.yields_bind fun r => ?_
    cases hexColor r g b with
    | ok color => exact Taking.yields_pure rfl
    | error fault => exact Taking.yields_throw _
  | _ =>
    simp only [command]
    repeat refine Taking.yields_bind fun _ => ?_
    exact Taking.yields_pure rfl

theorem Operator.isOf_of_command {op : Operator} {operands rest : List Object} {c : Command}
    (h : op.command.run operands = (.ok c, rest)) : c.isOf op :=
  op.yields_isOf operands c rest h

theorem Operator.ofKeyword?_eq_some_iff {keyword : Bytes} {op : Operator} :
    ofKeyword? keyword = some op ↔ ∃ spelling, (spelling, op) ∈ table ∧ Pdf.ascii spelling = keyword := by
  constructor
  · intro h
    obtain ⟨⟨spelling, found⟩, hfind, rfl⟩ := Option.map_eq_some_iff.1 h
    exact ⟨spelling, List.mem_of_find?_eq_some hfind, by simpa using List.find?_some hfind⟩
  · rintro ⟨spelling, hmem, rfl⟩
    have hall : ∀ pair ∈ table, ofKeyword? (Pdf.ascii pair.1) = some pair.2 := by decide
    exact hall (spelling, op) hmem

theorem Operator.ofKeyword?_eq_invoke_iff {keyword : Bytes} :
    ofKeyword? keyword = some .invoke ↔ keyword = Pdf.ascii "Do" := by
  rw [ofKeyword?_eq_some_iff]
  simp [table, eq_comm]

theorem Operator.ofKeyword?_eq_fillColor_iff {keyword : Bytes} :
    ofKeyword? keyword = some .fillColor ↔ keyword = Pdf.ascii "rg" := by
  rw [ofKeyword?_eq_some_iff]
  simp [table, eq_comm]

theorem called_of_ofKeyword? {keyword : Bytes} {op : Operator} {operands : List Object}
    {now : List Command} (hop : Operator.ofKeyword? keyword = some op)
    (h : called keyword operands = .ok now) :
    now = [] ∧ (∃ error, (op.command.run operands).1 = .error (.operand error)) ∨
      ∃ c, now = [c] ∧ (op.command.run operands).1 = .ok c := by
  simp only [called, hop] at h
  cases hrun : (op.command.run operands).1 with
  | ok c =>
    rw [hrun] at h
    cases h
    exact Or.inr ⟨c, rfl, rfl⟩
  | error mishap =>
    rw [hrun] at h
    cases mishap with
    | fault fault => cases h
    | operand error =>
      cases h
      exact Or.inl ⟨rfl, error, rfl⟩

theorem run_invoke_eq_ok_iff {operands : List Object} {c : Command} :
    ((Operator.command .invoke).run operands).1 = .ok c ↔
      ∃ bytes rest, operands = .name bytes :: rest ∧ c = .invoke (Object.nameText bytes) := by
  simp only [Operator.command, Taking.name, run_bind]
  cases operands with
  | nil => simp [Taking.run_take_nil]
  | cons object rest =>
    cases object <;> simp [Taking.run_take_cons, Taking.run_pure, eq_comm]

theorem mem_called_invoke_iff {keyword : Bytes} {operands : List Object} {now : List Command}
    {name : String} (h : called keyword operands = .ok now) :
    .invoke name ∈ now ↔
      keyword = Pdf.ascii "Do" ∧ ∃ bytes rest, operands = .name bytes :: rest ∧
        Object.nameText bytes = name := by
  rw [← Operator.ofKeyword?_eq_invoke_iff]
  cases hop : Operator.ofKeyword? keyword with
  | none =>
    simp only [called, hop, Except.ok.injEq] at h
    subst h
    simp
  | some op =>
    simp only [Option.some.injEq]
    obtain ⟨rfl, error, hrun⟩ | ⟨c, rfl, hrun⟩ := called_of_ofKeyword? hop h
    · constructor
      · intro hmem
        cases hmem
      · rintro ⟨rfl, bytes, rest, hoperands, -⟩
        rw [run_invoke_eq_ok_iff.2 ⟨bytes, rest, hoperands, rfl⟩] at hrun
        cases hrun
    · simp only [List.mem_singleton]
      constructor
      · rintro rfl
        have hop' : op = .invoke := by
          have := Operator.isOf_of_command (Prod.ext hrun rfl)
          cases op <;> simp_all [Command.isOf]
        subst hop'
        obtain ⟨bytes, rest, hoperands, hname⟩ := run_invoke_eq_ok_iff.1 hrun
        exact ⟨rfl, bytes, rest, hoperands, (Command.invoke.inj hname).symm⟩
      · rintro ⟨rfl, bytes, rest, hoperands, rfl⟩
        obtain ⟨bytes', rest', hoperands', rfl⟩ := run_invoke_eq_ok_iff.1 hrun
        rw [hoperands] at hoperands'
        cases hoperands'
        rfl

/-- Some items invoke a name: it stands right before the operator `Do`. -/
def Calls (items : List Item) (name : String) : Prop :=
  ∃ bytes, [.operand (.name bytes), .operator (Pdf.ascii "Do")] <:+: items ∧
    Object.nameText bytes = name

theorem not_calls_nil (name : String) : ¬ Calls [] name := by
  rintro ⟨bytes, h, -⟩
  simp at h

theorem calls_operator_iff {keyword : Bytes} {items : List Item} {name : String} :
    Calls (.operator keyword :: items) name ↔ Calls items name := by
  simp [Calls, List.infix_cons_iff]

theorem calls_operand_iff {object : Object} {items : List Item} {name : String} :
    Calls (.operand object :: items) name ↔
      (∃ bytes rest, object = .name bytes ∧ items = .operator (Pdf.ascii "Do") :: rest ∧
        Object.nameText bytes = name) ∨ Calls items name := by
  simp only [Calls, List.infix_cons_iff, List.cons_prefix_cons, or_and_right, exists_or]
  refine or_congr_left (exists_congr fun bytes => ?_)
  constructor
  · rintro ⟨⟨hobject, rest, hrest⟩, hname⟩
    exact ⟨rest, (Item.operand.inj hobject).symm, hrest.symm, hname⟩
  · rintro ⟨rest, rfl, rfl, hname⟩
    exact ⟨⟨rfl, rest, rfl⟩, hname⟩

theorem mem_commandsFrom_invoke_iff {items : List Item} {operands : List Object} {cs : List Command}
    (h : commandsFrom operands items = .ok cs) (name : String) :
    .invoke name ∈ cs ↔
      (∃ bytes below rest, operands = .name bytes :: below ∧
        items = .operator (Pdf.ascii "Do") :: rest ∧ Object.nameText bytes = name) ∨
      Calls items name := by
  induction items generalizing operands cs with
  | nil =>
    cases h
    simp [not_calls_nil]
  | cons item items ih =>
    cases item with
    | operand object =>
      rw [ih h, calls_operand_iff]
      simp
    | operator keyword =>
      obtain ⟨now, hnow, hmore⟩ := Outcome.bind_eq_ok_iff.1 h
      obtain ⟨later, hlater, hcs⟩ := Outcome.bind_eq_ok_iff.1 hmore
      cases hcs
      rw [calls_operator_iff, List.mem_append, mem_called_invoke_iff hnow, ih hlater]
      refine or_congr ?_ ?_
      · constructor
        · rintro ⟨rfl, bytes, below, hoperands, hname⟩
          exact ⟨bytes, below, items, hoperands, rfl, hname⟩
        · rintro ⟨bytes, below, rest, hoperands, hitems, hname⟩
          cases hitems
          exact ⟨rfl, bytes, below, hoperands, hname⟩
      · simp

theorem commandsFrom_of_script {content : Reading} {cs : List Command} (h : script content = .ok cs) :
    commandsFrom [] content.items = .ok cs := by
  unfold script at h
  split at h <;> simp_all

/-- The names that a script invokes are those its items invoke. -/
theorem mem_script_invoke_iff {content : Reading} {cs : List Command} (h : script content = .ok cs)
    (name : String) : .invoke name ∈ cs ↔ Calls content.items name := by
  rw [mem_commandsFrom_invoke_iff (commandsFrom_of_script h)]
  simp

end WeekGrid.Page
