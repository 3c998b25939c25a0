import WeekGrid.Page.Scan

/-!
What a content stream does, apart from the state in which it does it. Every operator takes all its operands
before it draws anything, so it amounts to making a command of its operands and carrying the command out.
The commands of a stream are its script: they do not depend on the state the scan starts from.
-/
namespace WeekGrid.Page

open Pdf (Object Item Reading)
open Text (Bytes)

/-- An operator with its operands. -/
inductive Command where
  | box (x y width height : Binary64)
  | moveTo (point : Point)
  | lineTo (point : Point)
  | closePath
  | fill
  | dropPath
  | setColor (color : String)
  | setMatrix (matrix : Matrix)
  | translate (tx ty : Binary64)
  | nextLine
  | showText (text : String)
  | nextLineShow (text : String)
  | invoke (name : String)
  | nothing
  deriving DecidableEq

def Operator.command (op : Operator) : Taking Command :=
  match op with
  | box => do
    let height ← Taking.number op
    let width ← Taking.number op
    let y ← Taking.number op
    let x ← Taking.number op
    return .box x y width height
  | moveTo => do
    let y ← Taking.number op
    let x ← Taking.number op
    return .moveTo ⟨x, y⟩
  | lineTo => do
    let y ← Taking.number op
    let x ← Taking.number op
    return .lineTo ⟨x, y⟩
  | closePath => return .closePath
  | fill => return .fill
  | dropPath => return .dropPath
  | fillColor => do
    let b ← Taking.number op
    let g ← Taking.number op
    let r ← Taking.number op
    match hexColor r g b with
    | .ok color => return .setColor color
    | .error fault => throw (.fault fault)
  | beginText => return .setMatrix .identity
  | setMatrix => do
    let f ← Taking.number op
    let e ← Taking.number op
    let d ← Taking.number op
    let c ← Taking.number op
    let b ← Taking.number op
    let a ← Taking.number op
    return .setMatrix ⟨a, b, c, d, e, f⟩
  | moveText => do
    let ty ← Taking.number op
    let tx ← Taking.number op
    return .translate tx ty
  | moveTextAndLead => do
    let ty ← Taking.number op
    let tx ← Taking.number op
    return .translate tx ty
  | setLeading => do
    let _ ← Taking.number op
    return .nothing
  | nextLine => return .nextLine
  | showText => return .showText (Text.decodeText (← Taking.string op))
  | showPieces => return .showText (joinedText (← Taking.array op))
  | nextLineShow => return .nextLineShow (Text.decodeText (← Taking.string op))
  | nextLineSpacedShow => do
    let bytes ← Taking.string op
    let _ ← Taking.number op
    let _ ← Taking.number op
    return .nextLineShow (Text.decodeText bytes)
  | invoke => return .invoke (← Taking.name op)

namespace Drawing

def apply (d : Drawing) (scope : Scope) : Command → Drawing
  | .box x y width height =>
    (d.addBoxes [⟨x, y, width, height, d.graphics.color⟩]).onPath (·.addOutline x y width height)
  | .moveTo point => d.onPath (·.moveTo point)
  | .lineTo point => d.onPath (·.lineTo point)
  | .closePath => d.onPath (·.close)
  | .fill => d.fill
  | .dropPath => d.onPath fun _ => .empty
  | .setColor color => d.setColor color
  | .setMatrix matrix => d.setMatrix matrix
  | .translate tx ty => d.translate tx ty
  | .nextLine => d.nextLine scope.leading
  | .showText text => d.showText text
  | .nextLineShow text => (d.nextLine scope.leading).showText text
  | .invoke name => d.invoke scope name
  | .nothing => d

def carryOut (d : Drawing) (scope : Scope) (commands : List Command) : Drawing :=
  commands.foldl (fun d command => d.apply scope command) d

@[simp] theorem carryOut_nil (d : Drawing) (scope : Scope) : d.carryOut scope [] = d := rfl

@[simp] theorem carryOut_cons (d : Drawing) (scope : Scope) (c : Command) (cs : List Command) :
    d.carryOut scope (c :: cs) = (d.apply scope c).carryOut scope cs := rfl

@[simp] theorem carryOut_append (d : Drawing) (scope : Scope) (cs cs' : List Command) :
    d.carryOut scope (cs ++ cs') = (d.carryOut scope cs).carryOut scope cs' := by
  simp [carryOut]

theorem job?_eq_some_iff {scope : Scope} {graphics : Graphics} {name : String} {job : Job} :
    job? scope graphics name = some job ↔ ∃ index form,
      Pdf.get? name scope.resources.objects = some (.stream index) ∧
      scope.streams[index]? = some form ∧ form.isForm = true ∧
      job = ⟨form.key index, form.content, form.resources.getD scope.resources, graphics⟩ := by
  constructor
  · intro h
    unfold job? at h
    split at h
    · next index hname =>
      split at h
      · next form hform =>
        split at h
        · next hkind => exact ⟨index, form, hname, hform, hkind, (Option.some.inj h).symm⟩
        · cases h
      · cases h
    · cases h
  · rintro ⟨index, form, hname, hform, hkind, rfl⟩
    simp [job?, hname, hform, hkind]

theorem invoked_invoke (d : Drawing) (scope : Scope) (name : String) :
    (d.invoke scope name).invoked =
      d.invoked ++ ((job? scope d.graphics name).filter fun job => !scope.isDone job.key).toList := by
  unfold invoke
  cases job? scope d.graphics name with
  | none => simp
  | some job => by_cases hdone : scope.isDone job.key = true <;> simp [Option.filter, hdone]

theorem invoked_apply_of_ne (d : Drawing) (scope : Scope) {c : Command} (h : ∀ name, c ≠ .invoke name) :
    (d.apply scope c).invoked = d.invoked := by
  cases c with
  | invoke name => exact absurd rfl (h name)
  | showText text => simp only [apply, showText]; split <;> rfl
  | nextLineShow text => simp only [apply, showText, nextLine]; split <;> rfl
  | _ => rfl

/-- Every form that commands invoke has been named by one of them. -/
theorem job?_of_mem_invoked {scope : Scope} {cs : List Command} {d : Drawing} {job : Job}
    (h : job ∈ (d.carryOut scope cs).invoked) (hnew : job ∉ d.invoked) :
    ∃ name graphics, .invoke name ∈ cs ∧ job? scope graphics name = some job := by
  induction cs generalizing d with
  | nil => exact absurd h hnew
  | cons c cs ih =>
    by_cases hc : job ∈ (d.apply scope c).invoked
    · by_cases hinvoke : ∃ name, c = .invoke name
      · obtain ⟨name, rfl⟩ := hinvoke
        rw [apply, invoked_invoke, List.mem_append, or_iff_right hnew, Option.mem_toList,
          Option.filter_eq_some_iff] at hc
        exact ⟨name, d.graphics, List.mem_cons_self, hc.1⟩
      · rw [invoked_apply_of_ne d scope fun name heq => hinvoke ⟨name, heq⟩] at hc
        exact absurd hc hnew
    · obtain ⟨name, graphics, hmem, hjob⟩ := ih h hc
      exact ⟨name, graphics, List.mem_cons_of_mem c hmem, hjob⟩

theorem mem_invoked_carryOut {d : Drawing} {job : Job} (h : job ∈ d.invoked) (scope : Scope)
    (cs : List Command) : job ∈ (d.carryOut scope cs).invoked := by
  induction cs generalizing d with
  | nil => exact h
  | cons c cs ih =>
    rw [carryOut_cons]
    refine ih ?_
    by_cases hinvoke : ∃ name, c = .invoke name
    · obtain ⟨name, rfl⟩ := hinvoke
      rw [apply, invoked_invoke]
      exact List.mem_append_left _ h
    · rw [invoked_apply_of_ne d scope fun name heq => hinvoke ⟨name, heq⟩]
      exact h

theorem exists_mem_invoked {scope : Scope} {cs : List Command} {name : String} (h : .invoke name ∈ cs)
    {form : Graphics → Job} (hform : ∀ graphics, job? scope graphics name = some (form graphics))
    (hopen : ∀ graphics, scope.isDone (form graphics).key = false) (d : Drawing) :
    ∃ graphics, form graphics ∈ (d.carryOut scope cs).invoked := by
  induction cs generalizing d with
  | nil => cases h
  | cons c cs ih =>
    rw [carryOut_cons]
    cases h with
    | head =>
      have hmem : form d.graphics ∈ (d.invoke scope name).invoked := by
        rw [invoked_invoke, hform]
        simp [Option.filter, hopen]
      exact ⟨d.graphics, mem_invoked_carryOut hmem scope cs⟩
    | tail _ hmem => exact ih hmem (d.apply scope c)

end Drawing

namespace Handler

@[simp] theorem liftM_eq_taking {α : Type} (t : Taking α) : (liftM t : Handler α) = taking t := rfl

theorem run_taking {α : Type} (t : Taking α) (m : Machine) :
    (taking t).run m = ((t.run m.operands).1, ⟨(t.run m.operands).2, m.drawing⟩) := rfl

@[simp] theorem taking_pure {α : Type} (a : α) : taking (pure a : Taking α) = pure a := rfl

@[simp] theorem taking_bind {α β : Type} (t : Taking α) (f : α → Taking β) :
    taking (t >>= f) = taking t >>= fun a => taking (f a) := by
  refine funext fun m => ?_
  change (taking (t >>= f)).run m = (taking t >>= fun a => taking (f a)).run m
  rw [run_taking, run_bind, run_bind, run_taking]
  cases t.run m.operands with
  | mk result rest => cases result <;> rfl

@[simp] theorem taking_map {α β : Type} (t : Taking α) (f : α → β) :
    taking (f <$> t) = f <$> taking t := by
  simp only [map_eq_pure_bind, taking_bind, taking_pure]

@[simp] theorem draw_draw (change change' : Drawing → Drawing) :
    (draw change >>= fun _ => draw change') = draw fun d => change' (change d) := rfl

@[simp] theorem draw_self : (draw fun d => d) = pure () := rfl

end Handler

/-- Nothing is drawn before the last operand is taken: what an operator does is to make its command and then
to carry it out. -/
theorem Operator.handler_eq (op : Operator) (scope : Scope) :
    op.handler scope =
      Handler.taking op.command >>= fun c => Handler.draw fun d => d.apply scope c := by
  cases op with
  | fillColor =>
    simp only [handler, command, Handler.liftM_eq_taking, Handler.taking_bind, bind_assoc]
    refine bind_congr fun b => bind_congr fun g => bind_congr fun r => ?_
    cases hexColor r g b <;> rfl
  | _ => simp [handler, command, Drawing.apply]

theorem Machine.perform_eq (m : Machine) (scope : Scope) (op : Operator) :
    m.perform scope op = match op.command.run m.operands with
      | (.ok c, rest) => (⟨rest, m.drawing.apply scope c⟩, none)
      | (.error mishap, rest) => (⟨rest, m.drawing⟩, some mishap) := by
  simp only [perform, Operator.handler_eq, run_bind, Handler.run_taking]
  cases op.command.run m.operands with
  | mk result rest => cases result <;> rfl

/-- What a keyword calls for with the operands before it: one command, or none where it is unknown or cannot
use its operands. -/
def called (keyword : Bytes) (operands : List Object) : Except Fault (List Command) :=
  match Operator.ofKeyword? keyword with
  | none => .ok []
  | some op =>
    match (op.command.run operands).1 with
    | .ok command => .ok [command]
    | .error (.operand _) => .ok []
    | .error (.fault fault) => .error fault

def commandsFrom (operands : List Object) : List Item → Except Fault (List Command)
  | [] => .ok []
  | .operand object :: items => commandsFrom (object :: operands) items
  | .operator keyword :: items => do
    let now ← called keyword operands
    let later ← commandsFrom [] items
    return now ++ later

/-- The commands of a content stream, unless it fails. -/
def script (content : Reading) : Except Failure (List Command) :=
  match commandsFrom [] content.items, content.failure with
  | .error fault, _ => .error (.faulted fault)
  | .ok _, some failure => .error failure
  | .ok commands, none => .ok commands

theorem Machine.step_operator (scope : Scope) (m : Machine) (keyword : Bytes) :
    m.step scope (.operator keyword) = match called keyword m.operands with
      | .ok commands => .ok ⟨[], m.drawing.carryOut scope commands⟩
      | .error fault => .error (.faulted fault) := by
  cases h : Operator.ofKeyword? keyword with
  | none => simp [step, called, h, pure, Except.pure]
  | some op =>
    simp only [step, called, h, perform_eq]
    cases op.command.run m.operands with
    | mk result rest =>
      cases result with
      | ok command => rfl
      | error mishap => cases mishap <;> rfl

theorem Machine.run_eq (scope : Scope) (items : List Item) (m : Machine) :
    (m.run scope items).map Machine.drawing = match commandsFrom m.operands items with
      | .ok commands => .ok (m.drawing.carryOut scope commands)
      | .error fault => .error (.faulted fault) := by
  induction items generalizing m with
  | nil => rfl
  | cons item items ih =>
    cases item with
    | operand object => exact ih ⟨object :: m.operands, m.drawing⟩
    | operator keyword =>
      simp only [run, step_operator, commandsFrom]
      cases called keyword m.operands with
      | error fault => rfl
      | ok now =>
        have h := ih ⟨[], m.drawing.carryOut scope now⟩
        simp only [bind, Except.bind] at h ⊢
        rw [h]
        cases commandsFrom [] items <;> simp [pure, Except.pure]

theorem Machine.run_operand (scope : Scope) (m : Machine) (object : Object) (items : List Item) :
    m.run scope (.operand object :: items) = (⟨object :: m.operands, m.drawing⟩ : Machine).run scope items := rfl

theorem Machine.run_operator {m : Machine} {keyword : Bytes} {commands : List Command}
    (h : called keyword m.operands = .ok commands) (scope : Scope) (items : List Item) :
    m.run scope (.operator keyword :: items) =
      (⟨[], m.drawing.carryOut scope commands⟩ : Machine).run scope items := by
  rw [run, step_operator, h]
  rfl

theorem scan_eq (scope : Scope) (graphics : Graphics) (content : Reading) :
    scan scope graphics content =
      (script content).map fun commands => (Drawing.start graphics).carryOut scope commands := by
  have h := Machine.run_eq scope content.items (Machine.start graphics)
  simp only [scan, script, Machine.start] at h ⊢
  cases hr : Machine.run scope ⟨[], .start graphics⟩ content.items <;>
    cases hc : commandsFrom [] content.items <;>
    simp only [hr, hc, Except.map, reduceCtorEq, Except.error.injEq, Except.ok.injEq] at h
  · rw [h]; rfl
  · cases content.failure with
    | none => exact congrArg Except.ok h
    | some failure => rfl

end WeekGrid.Page
