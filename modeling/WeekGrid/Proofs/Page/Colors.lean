import Mathlib.Data.List.GetD
import Mathlib.Data.List.Induction
import WeekGrid.Proofs.Page.Figures
import WeekGrid.Proofs.Page.Steps

/-!
Where the colours on a page come from. In every state of the interpretation a colour is missing or has the form
`#RRGGBB`, and no text is empty. A stream starts in the colour at the `Do` that invoked it, each `rg` that can use
its operands sets another one, and every box has the colour in force when it was drawn.
-/
namespace WeekGrid.Page

open Pdf (Object Item Reading)
open Relation (ReflTransGen)
open Text (Bytes)

def IsHexDigit (c : Char) : Prop := ('0' ≤ c ∧ c ≤ '9') ∨ ('A' ≤ c ∧ c ≤ 'F')

instance (c : Char) : Decidable (IsHexDigit c) := inferInstanceAs (Decidable (_ ∨ _))

/-- No colour, or a number sign and six hexadecimal digits in capitals. -/
def IsColor (color : Option String) : Prop :=
  color = none ∨ ∃ digits : List Char, color = some (String.ofList ('#' :: digits)) ∧ digits.length = 6 ∧
    ∀ d ∈ digits, IsHexDigit d

theorem isHexDigit_hexPair (n : Nat) : ∀ d ∈ hexPair n, IsHexDigit d := by
  have hgetD : ∀ i, IsHexDigit (upperHexDigits.getD i '0') := by
    have hdigits : ∀ i < 16, IsHexDigit (upperHexDigits.getD i '0') := by decide
    intro i
    by_cases hi : i < 16
    · exact hdigits i hi
    · rw [List.getD_eq_default _ _ (Nat.le_of_not_lt hi)]
      decide
  intro d hd
  rcases List.mem_pair.1 hd with rfl | rfl
  · exact hgetD _
  · exact hgetD _

theorem isColor_hexColor {r g b : Binary64} {color : String} (h : hexColor r g b = .ok color) :
    IsColor (some color) := by
  obtain ⟨red, -, h⟩ := Outcome.bind_eq_ok_iff.1 h
  obtain ⟨green, -, h⟩ := Outcome.bind_eq_ok_iff.1 h
  obtain ⟨blue, -, h⟩ := Outcome.bind_eq_ok_iff.1 h
  cases h
  refine .inr ⟨hexPair red ++ hexPair green ++ hexPair blue, rfl, rfl, fun d hd => ?_⟩
  rcases List.mem_append.1 hd with hd | hd
  · rcases List.mem_append.1 hd with hd | hd
    · exact isHexDigit_hexPair red d hd
    · exact isHexDigit_hexPair green d hd
  · exact isHexDigit_hexPair blue d hd

/-- The items that set a colour: three numbers of which a colour can be made, and the operator `rg`. -/
def SetsColor (items : List Item) (color : String) : Prop :=
  ∃ r g b : NumberOperand, hexColor r.value g.value b.value = .ok color ∧
    items = [.operand r.object, .operand g.object, .operand b.object, .operator (Pdf.ascii "rg")]

theorem SetsColor.ne_nil {items : List Item} {color : String} (h : SetsColor items color) : items ≠ [] := by
  obtain ⟨_, _, _, _, rfl⟩ := h
  exact List.cons_ne_nil _ _

/-- The colour in force behind some items: the last one that is set among them, or else the one at the start. -/
inductive ColorAfter (start : Option String) : List Item → Option String → Prop where
  | kept {items} (hnone : ∀ set color, set <:+: items → ¬ SetsColor set color) : ColorAfter start items start
  | set {before set after color} (hset : SetsColor set color)
      (hlast : ∀ set color, set <:+: after → ¬ SetsColor set color) :
      ColorAfter start (before ++ set ++ after) (some color)

namespace ColorAfter

variable {start color : Option String} {items : List Item}

theorem concat (h : ColorAfter start items color) {item : Item}
    (hitem : ∀ set color, set <:+ items ++ [item] → ¬ SetsColor set color) :
    ColorAfter start (items ++ [item]) color := by
  cases h with
  | kept hnone =>
    refine .kept fun set color hinfix => ?_
    rcases List.infix_concat_iff.1 hinfix with hsuffix | hinfix
    · exact hitem set color hsuffix
    · exact hnone set color hinfix
  | @set before set after color hset hlast =>
    rw [List.append_assoc]
    refine .set hset fun other color hinfix => ?_
    rcases List.infix_concat_iff.1 hinfix with hsuffix | hinfix
    · exact hitem other color (by rw [List.append_assoc]; exact hsuffix.trans (List.suffix_append _ _))
    · exact hlast other color hinfix

theorem isColor (h : ColorAfter start items color) (hstart : IsColor start) : IsColor color := by
  cases h with
  | kept => exact hstart
  | set hset =>
    obtain ⟨r, g, b, hcolor, -⟩ := hset
    exact isColor_hexColor hcolor

end ColorAfter

def standing (items : List Item) : List Object :=
  items.foldl (fun operands item => match item with
    | .operand object => object :: operands
    | .operator _ => []) []

@[simp] theorem standing_concat_operand (items : List Item) (object : Object) :
    standing (items ++ [.operand object]) = object :: standing items := by
  simp [standing]

@[simp] theorem standing_concat_operator (items : List Item) (keyword : Bytes) :
    standing (items ++ [.operator keyword]) = [] := by
  simp [standing]

theorem standing_append_operands (items : List Item) (objects : List Object) :
    standing (items ++ objects.map .operand) = objects.reverse ++ standing items := by
  induction objects generalizing items with
  | nil => simp
  | cons object objects ih =>
    have hmore := ih (items ++ [.operand object])
    simpa using hmore

theorem standing_suffix (items : List Item) : (standing items).reverse.map .operand <:+ items := by
  induction items using List.reverseRecOn with
  | nil => exact List.nil_suffix
  | append_singleton items item ih =>
    cases item with
    | operand object =>
      rw [standing_concat_operand, List.reverse_cons, List.map_append]
      obtain ⟨before, hbefore⟩ := ih
      exact ⟨before, by rw [← List.append_assoc, hbefore]; rfl⟩
    | operator keyword =>
      rw [standing_concat_operator]
      exact List.nil_suffix

theorem run_number_eq_ok {op : Operator} {operands rest : List Object} {x : Binary64}
    (h : (Taking.number op).run operands = (.ok x, rest)) :
    ∃ n : NumberOperand, n.value = x ∧ operands = n.object :: rest := by
  cases operands with
  | nil => cases h
  | cons object operands =>
    rw [Taking.number, Taking.run_take_cons] at h
    cases object with
    | integer n =>
      dsimp only at h
      cases hx : Binary64.ofInt? n with
      | error fault =>
        rw [hx] at h
        cases h
      | ok y =>
        rw [hx] at h
        cases h
        exact ⟨⟨.integer n, x, .integer hx⟩, rfl, rfl⟩
    | real y =>
      cases h
      exact ⟨⟨.real x, x, .real x⟩, rfl, rfl⟩
    | _ => cases h

theorem run_fillColor_eq_ok_iff {operands : List Object} {c : Command} :
    ((Operator.command .fillColor).run operands).1 = .ok c ↔
      ∃ (r g b : NumberOperand) (below : List Object) (color : String),
        operands = b.object :: g.object :: r.object :: below ∧
        hexColor r.value g.value b.value = .ok color ∧ c = .setColor color := by
  constructor
  · intro h
    obtain ⟨rest, hrun⟩ : ∃ rest, (Operator.command .fillColor).run operands = (.ok c, rest) :=
      ⟨_, Prod.ext h rfl⟩
    obtain ⟨_, _, hb, hafter⟩ := run_bind_eq_ok hrun
    obtain ⟨_, _, hg, hafter⟩ := run_bind_eq_ok hafter
    obtain ⟨_, below, hr, hmade⟩ := run_bind_eq_ok hafter
    obtain ⟨b, rfl, rfl⟩ := run_number_eq_ok hb
    obtain ⟨g, rfl, rfl⟩ := run_number_eq_ok hg
    obtain ⟨r, rfl, rfl⟩ := run_number_eq_ok hr
    cases hcolor : hexColor r.value g.value b.value with
    | error fault =>
      rw [hcolor] at hmade
      cases hmade
    | ok color =>
      rw [hcolor] at hmade
      cases hmade
      exact ⟨r, g, b, _, color, rfl, hcolor, rfl⟩
  · rintro ⟨r, g, b, below, color, rfl, hcolor, rfl⟩
    simp only [Operator.command, run_bind, run_number, hcolor, Taking.run_pure]

/-- An operator that does not fail comes to nothing, or to one command, which is carried out. -/
theorem Machine.step_operator_cases {scope : Scope} {m m' : Machine} {keyword : Bytes}
    (h : m.step scope (.operator keyword) = .ok m') :
    (called keyword m.operands = .ok [] ∧ m' = ⟨[], m.drawing⟩) ∨
      ∃ op c, Operator.ofKeyword? keyword = some op ∧ (op.command.run m.operands).1 = .ok c ∧
        m' = ⟨[], m.drawing.apply scope c⟩ := by
  rw [step_operator] at h
  cases hop : Operator.ofKeyword? keyword with
  | none =>
    have hcalled : called keyword m.operands = .ok [] := by simp only [called, hop]
    rw [hcalled] at h
    cases h
    exact .inl ⟨hcalled, rfl⟩
  | some op =>
    cases hcalled : called keyword m.operands with
    | error fault =>
      rw [hcalled] at h
      cases h
    | ok now =>
      rw [hcalled] at h
      cases h
      obtain ⟨rfl, -⟩ | ⟨c, rfl, hrun⟩ := called_of_ofKeyword? hop hcalled
      · exact .inl ⟨rfl, rfl⟩
      · exact .inr ⟨op, c, rfl, hrun, rfl⟩

theorem Machine.step_drawing {scope : Scope} {m m' : Machine} {item : Item} (h : m.step scope item = .ok m') :
    m'.drawing = m.drawing ∨ ∃ keyword op c, item = .operator keyword ∧ Operator.ofKeyword? keyword = some op ∧
      c.isOf op = true ∧ m'.drawing = m.drawing.apply scope c := by
  cases item with
  | operand object =>
    cases h
    exact .inl rfl
  | operator keyword =>
    obtain ⟨-, rfl⟩ | ⟨op, c, hop, hrun, rfl⟩ := step_operator_cases h
    · exact .inl rfl
    · exact .inr ⟨keyword, op, c, rfl, hop, Operator.isOf_of_command (Prod.ext hrun rfl), rfl⟩

namespace Drawing

theorem color_apply_of_ne (d : Drawing) (scope : Scope) {c : Command} (h : ∀ color, c ≠ .setColor color) :
    (d.apply scope c).graphics.color = d.graphics.color := by
  cases c with
  | setColor color => exact absurd rfl (h color)
  | showText text => simp only [apply, showText]; split <;> rfl
  | nextLineShow text => simp only [apply, showText, nextLine]; split <;> rfl
  | invoke name => simp only [apply, invoke]; split <;> [split <;> rfl; rfl]
  | _ => rfl

def drawnBy (d : Drawing) : Command → List Box
  | .box x y width height => [⟨x, y, width, height, d.graphics.color⟩]
  | .fill => d.path.boxes d.graphics.color
  | _ => []

theorem boxes_apply (d : Drawing) (scope : Scope) (c : Command) :
    (d.apply scope c).elements.boxes = d.elements.boxes ++ d.drawnBy c := by
  cases c with
  | box => rfl
  | fill => rfl
  | showText text => simp only [apply, showText]; split <;> simp [drawnBy]
  | nextLineShow text => simp only [apply, showText, nextLine]; split <;> simp [drawnBy]
  | invoke name => simp only [apply, invoke]; split <;> [split <;> simp [drawnBy]; simp [drawnBy]]
  | _ => simp [apply, drawnBy, onPath, setColor, setMatrix, translate, nextLine]

theorem color_of_spannedBox? {points : List Point} {color : Option String} {box : Box}
    (h : spannedBox? points color = some box) : box.color = color := by
  unfold spannedBox? at h
  split at h
  · cases h
  · split at h
    · cases h
      rfl
    · cases h

theorem color_of_mem_drawnBy {d : Drawing} {c : Command} {box : Box} (h : box ∈ d.drawnBy c) :
    box.color = d.graphics.color := by
  cases c with
  | box =>
    rw [List.mem_singleton.1 h]
  | fill =>
    obtain ⟨subpath, -, hbox⟩ := List.mem_filterMap.1 h
    exact color_of_spannedBox? hbox
  | _ => exact absurd h List.not_mem_nil

theorem texts_apply (d : Drawing) (scope : Scope) (c : Command) :
    ∀ text ∈ (d.apply scope c).elements.texts, text ∈ d.elements.texts ∨ text.text ≠ "" := by
  have hshow : ∀ (e : Drawing) (s : String), e.elements = d.elements →
      ∀ text ∈ (e.showText s).elements.texts, text ∈ d.elements.texts ∨ text.text ≠ "" := by
    intro e s helements text htext
    unfold showText at htext
    split at htext
    · exact .inl (helements ▸ htext)
    · next hne =>
      rcases List.mem_append.1 htext with hold | hnew
      · exact .inl (helements ▸ hold)
      · rw [List.mem_singleton.1 hnew]
        exact .inr hne
  cases c with
  | showText s => exact hshow d s rfl
  | nextLineShow s => exact hshow (d.nextLine scope.leading) s rfl
  | invoke name =>
    have hinvoke : (d.invoke scope name).elements = d.elements := by
      unfold invoke
      split <;> [split <;> rfl; rfl]
    intro text htext
    exact .inl (hinvoke ▸ htext)
  | _ => exact fun text htext => .inl htext

/-- A command invokes one form at most, in the state that it finds. -/
theorem invoked_apply_cases (d : Drawing) (scope : Scope) (c : Command) :
    (d.apply scope c).invoked = d.invoked ∨
      ∃ name job, c = .invoke name ∧ job.graphics = d.graphics ∧ (d.apply scope c).invoked = d.invoked ++ [job] := by
  by_cases hc : ∃ name, c = .invoke name
  · obtain ⟨name, rfl⟩ := hc
    rw [apply, invoked_invoke]
    cases hfound : (job? scope d.graphics name).filter fun job => !scope.isDone job.key with
    | none => exact .inl (List.append_nil _)
    | some job =>
      obtain ⟨hjob, -⟩ := Option.filter_eq_some_iff.1 hfound
      obtain ⟨_, _, _, _, _, rfl⟩ := job?_eq_some_iff.1 hjob
      exact .inr ⟨name, _, rfl, rfl, rfl⟩
  · exact .inl (invoked_apply_of_ne d scope fun name heq => hc ⟨name, heq⟩)

end Drawing

theorem SetsColor.standing_of_suffix {set items : List Item} {item : Item} {color : String}
    (hset : SetsColor set color) (h : set <:+ items ++ [item]) :
    item = .operator (Pdf.ascii "rg") ∧ ∃ (r g b : NumberOperand) (below : List Object),
      standing items = b.object :: g.object :: r.object :: below ∧
      hexColor r.value g.value b.value = .ok color := by
  obtain ⟨r, g, b, hcolor, rfl⟩ := hset
  obtain ⟨front, hfront⟩ := h
  have hsplit : (front ++ [r.object, g.object, b.object].map Item.operand) ++ [.operator (Pdf.ascii "rg")] =
      items ++ [item] := by simpa using hfront
  obtain ⟨rfl, hitem⟩ := List.append_inj' hsplit rfl
  refine ⟨(List.singleton_inj.1 hitem).symm, r, g, b, standing front, ?_, hcolor⟩
  rw [standing_append_operands]
  rfl

theorem SetsColor.run_of_suffix {set before : List Item} {keyword : Bytes} {color : String} (hset : SetsColor set color)
    (h : set <:+ before ++ [.operator keyword]) : keyword = Pdf.ascii "rg" ∧
      ((Operator.command .fillColor).run (standing before)).1 = .ok (.setColor color) := by
  obtain ⟨hkeyword, r, g, b, below, hstanding, hhex⟩ := hset.standing_of_suffix h
  exact ⟨Item.operator.inj hkeyword, run_fillColor_eq_ok_iff.2 ⟨r, g, b, below, color, hstanding, hhex, rfl⟩⟩

theorem colorAfter_of_run (start : Option String) {before : List Item} {c : Command}
    (h : ((Operator.command .fillColor).run (standing before)).1 = .ok c) : ∃ color, c = .setColor color ∧
      ColorAfter start (before ++ [.operator (Pdf.ascii "rg")]) (some color) := by
  obtain ⟨r, g, b, below, color, hstanding, hhex, rfl⟩ := run_fillColor_eq_ok_iff.1 h
  obtain ⟨front, hfront⟩ := standing_suffix before
  rw [hstanding] at hfront
  have hitems : before ++ [.operator (Pdf.ascii "rg")] = (front ++ below.reverse.map .operand) ++
      [.operand r.object, .operand g.object, .operand b.object, .operator (Pdf.ascii "rg")] ++ [] := by
    simp [← hfront]
  rw [hitems]
  exact ⟨color, rfl, .set ⟨r, g, b, hhex, rfl⟩ fun set other hinfix hset => hset.ne_nil (List.infix_nil.1 hinfix)⟩

/-- A scan in step with the items read: the operands are those that stand, and the colour is the one in force. -/
structure Scanning.InStep (scan : Scanning) : Prop where
  operands : scan.machine.operands = standing scan.read
  color : ColorAfter scan.job.graphics.color scan.read scan.machine.drawing.graphics.color

theorem Scanning.inStep_read {job : Job} {before : List Item} {item : Item} {m m' : Machine} {scope : Scope}
    (h : InStep ⟨job, before, m⟩) (hstep : m.step scope item = .ok m') : InStep ⟨job, before ++ [item], m'⟩ := by
  obtain ⟨hoperands, hcolor⟩ := h
  dsimp only at hoperands hcolor
  cases item with
  | operand object =>
    cases hstep
    refine ⟨?_, hcolor.concat fun set color hsuffix hset => ?_⟩
    · rw [standing_concat_operand, ← hoperands]
    · exact nomatch (hset.standing_of_suffix hsuffix).1
  | operator keyword =>
    have hrg := Operator.ofKeyword?_eq_fillColor_iff.2 (rfl : Pdf.ascii "rg" = Pdf.ascii "rg")
    obtain ⟨hcalled, rfl⟩ | ⟨op, c, hop, hrun, rfl⟩ := Machine.step_operator_cases hstep
    · refine ⟨(standing_concat_operator _ _).symm, hcolor.concat fun set color hsuffix hset => ?_⟩
      obtain ⟨rfl, hset⟩ := hset.run_of_suffix hsuffix
      rw [hoperands, called_eq .fillColor hrg hset] at hcalled
      cases hcalled
    · refine ⟨(standing_concat_operator _ _).symm, ?_⟩
      rw [hoperands] at hrun
      by_cases hfill : op = .fillColor
      · subst hfill
        obtain rfl := Operator.ofKeyword?_eq_fillColor_iff.1 hop
        obtain ⟨color, rfl, hafter⟩ := colorAfter_of_run job.graphics.color hrun
        exact hafter
      · have hkept : ∀ color, c ≠ .setColor color := by
          rintro color rfl
          have hisOf := Operator.isOf_of_command (Prod.ext hrun rfl)
          cases op <;> simp_all [Command.isOf]
        dsimp only
        rw [Drawing.color_apply_of_ne _ _ hkept]
        refine hcolor.concat fun set color hsuffix hset => ?_
        obtain ⟨rfl, -⟩ := hset.run_of_suffix hsuffix
        rw [hrg] at hop
        exact hfill (Option.some.inj hop).symm

def boxKeywords : List String := "re" :: fillKeywords

theorem Operator.mem_boxKeywords {keyword : Bytes} {op : Operator} (h : ofKeyword? keyword = some op)
    (hop : op = .box ∨ op = .fill) : ∃ spelling ∈ boxKeywords, Pdf.ascii spelling = keyword := by
  have hall : ∀ pair ∈ table, pair.2 = .box ∨ pair.2 = .fill → pair.1 ∈ boxKeywords := by decide
  obtain ⟨spelling, hmem, rfl⟩ := ofKeyword?_eq_some_iff.1 h
  exact ⟨spelling, hall _ hmem hop, rfl⟩

theorem Command.isOf_box_or_fill {c : Command} {op : Operator} {d : Drawing} {box : Box} (hc : c.isOf op = true)
    (h : box ∈ d.drawnBy c) : op = .box ∨ op = .fill := by
  cases c with
  | box => cases op <;> simp_all [isOf]
  | fill => cases op <;> simp_all [isOf]
  | _ => exact absurd h List.not_mem_nil

namespace State

def jobs (state : State) : List Job := (state.scanning.map Scanning.job).toList ++ state.worklist

/-- A box is drawn at a state: the next item of the stream being scanned is one of the operators that draw boxes, and
adds the box in the colour in force. -/
def Draws (library : Library) (state : State) (box : Box) : Prop :=
  ∃ scan, state.scanning = some scan ∧
    (∃ spelling ∈ boxKeywords, scan.read ++ [.operator (Pdf.ascii spelling)] <+: scan.job.content.items) ∧
    (∃ next new, Step library state next ∧ next.elements.boxes = state.elements.boxes ++ new ∧ box ∈ new) ∧
    ColorAfter scan.job.graphics.color scan.read box.color

/-- A job is put on the list at a state: the next item of the stream being scanned is `Do`, and adds the job in the
colour in force. -/
def Invokes (library : Library) (state : State) (job : Job) : Prop :=
  ∃ scan, state.scanning = some scan ∧
    scan.read ++ [.operator (Pdf.ascii "Do")] <+: scan.job.content.items ∧
    (∃ next, Step library state next ∧ next.worklist = job :: state.worklist) ∧
    ColorAfter scan.job.graphics.color scan.read job.graphics.color

end State

namespace Step

variable {library : Library} {state next : State}

theorem inStep (h : Step library state next) (hin : ∀ scan ∈ state.scanning, scan.InStep) :
    ∀ scan ∈ next.scanning, scan.InStep := by
  cases h with
  | pass => exact hin
  | takeUp =>
    rintro _ ⟨⟩
    exact ⟨rfl, .kept fun set color hinfix hset => hset.ne_nil (List.infix_nil.1 hinfix)⟩
  | read _ hstep =>
    rintro _ ⟨⟩
    exact Scanning.inStep_read (hin _ rfl) hstep
  | finish => exact fun _ hnone => nomatch hnone

theorem boxes (h : Step library state next) (hin : ∀ scan ∈ state.scanning, scan.InStep) :
    ∀ box ∈ next.elements.boxes, box ∈ state.elements.boxes ∨ state.Draws library box := by
  have hstep := h
  cases h with
  | pass => exact fun box hbox => .inl hbox
  | takeUp => exact fun box hbox => .inl hbox
  | finish =>
    intro box hbox
    simp only [State.elements, Elements.append_empty] at hbox
    exact .inl hbox
  | read hitems hmachine =>
    obtain hsame | ⟨keyword, op, c, rfl, hop, hc, happly⟩ := Machine.step_drawing hmachine
    · intro box hbox
      simp only [State.elements, hsame] at hbox
      exact .inl hbox
    · intro box hbox
      simp only [State.elements, happly, Elements.boxes_append, Drawing.boxes_apply, ← List.append_assoc] at hbox
      rcases List.mem_append.1 hbox with hold | hnew
      · exact .inl hold
      · obtain ⟨spelling, hspelling, rfl⟩ := Operator.mem_boxKeywords hop (Command.isOf_box_or_fill hc hnew)
        refine .inr ⟨_, rfl, ⟨spelling, hspelling, ?_⟩, ⟨_, _, hstep, ?_, hnew⟩, ?_⟩
        · exact ⟨_, by rw [hitems, List.append_assoc]; rfl⟩
        · simp only [State.elements, happly, Elements.boxes_append, Drawing.boxes_apply, ← List.append_assoc]
        · rw [Drawing.color_of_mem_drawnBy hnew]
          exact (hin _ rfl).color

theorem texts (h : Step library state next) :
    ∀ text ∈ next.elements.texts, text ∈ state.elements.texts ∨ text.text ≠ "" := by
  cases h with
  | pass => exact fun text htext => .inl htext
  | takeUp => exact fun text htext => .inl htext
  | finish =>
    intro text htext
    simp only [State.elements, Elements.append_empty] at htext
    exact .inl htext
  | read _ hmachine =>
    intro text htext
    rcases List.mem_append.1 htext with hshown | hdrawn
    · exact .inl (List.mem_append_left _ hshown)
    · obtain hsame | ⟨_, _, c, _, _, _, happly⟩ := Machine.step_drawing hmachine
      · dsimp only at hdrawn
        rw [hsame] at hdrawn
        exact .inl (List.mem_append_right _ hdrawn)
      · dsimp only at hdrawn
        rw [happly] at hdrawn
        exact (Drawing.texts_apply _ _ c text hdrawn).imp_left (List.mem_append_right _)

theorem jobs (h : Step library state next) (hin : ∀ scan ∈ state.scanning, scan.InStep) :
    ∀ job ∈ next.jobs, job ∈ state.jobs ∨ state.Invokes library job := by
  have hstep := h
  cases h with
  | pass => exact fun job hjob => .inl (List.mem_cons_of_mem _ hjob)
  | takeUp => exact fun job hjob => .inl hjob
  | finish => exact fun job hjob => .inl (List.mem_cons_of_mem _ hjob)
  | @read left _ _ scanned _ _ _ m _ hitems hmachine =>
    obtain hsame | ⟨keyword, op, c, rfl, hop, hc, happly⟩ := Machine.step_drawing hmachine
    · intro job hjob
      simp only [State.jobs, State.worklist, hsame] at hjob
      exact .inl hjob
    · intro job hjob
      obtain hnone | ⟨name, form, rfl, hgraphics, hinvoked⟩ :=
        m.drawing.invoked_apply_cases (library.scope scanned.resources left) c
      · simp only [State.jobs, State.worklist, happly, hnone] at hjob
        exact .inl hjob
      · simp only [State.jobs, State.worklist, happly, hinvoked, List.reverse_append, List.reverse_singleton,
          List.nil_append, List.cons_append, List.mem_append, List.mem_cons] at hjob
        rcases hjob with hscanned | rfl | hlisted
        · exact .inl (List.mem_append_left _ hscanned)
        · obtain rfl : op = .invoke := by cases op <;> simp_all [Command.isOf]
          obtain rfl := Operator.ofKeyword?_eq_invoke_iff.1 hop
          refine .inr ⟨_, rfl, ⟨_, by rw [hitems, List.append_assoc]; rfl⟩, ⟨_, hstep, ?_⟩, ?_⟩
          · simp only [State.worklist, happly, hinvoked, List.reverse_append, List.reverse_singleton,
              List.nil_append, List.cons_append]
          · rw [hgraphics]
            exact (hin _ rfl).color
        · exact .inl (List.mem_append_right _ (List.mem_append.2 hlisted))

end Step

/-- How a state of the interpretation of a page stands with its colours and texts. Behind a box there is the state
that drew it, and behind a job the one that put it on the list, unless the job is the page. -/
structure State.IsColored (library : Library) (content : Reading) (resources : Resources) (state : State) : Prop where
  current : ∀ scan ∈ state.scanning, IsColor scan.machine.drawing.graphics.color ∧
    ColorAfter scan.job.graphics.color scan.read scan.machine.drawing.graphics.color
  saved : ∀ job ∈ state.jobs, IsColor job.graphics.color
  boxes : ∀ box ∈ state.elements.boxes, IsColor box.color
  texts : ∀ text ∈ state.elements.texts, text.text ≠ ""
  drawn : ∀ box ∈ state.elements.boxes, ∃ earlier, Reached library content resources earlier ∧
    ReflTransGen (Step library) earlier state ∧ earlier.Draws library box
  invoked : ∀ job ∈ state.jobs, job = pageJob content resources ∨
    ∃ earlier, Reached library content resources earlier ∧ ReflTransGen (Step library) earlier state ∧
      earlier.Invokes library job

section

variable {library : Library} {content : Reading} {resources : Resources} {state next : State}

theorem State.isColored_start : (start library content resources).IsColored library content resources where
  current := fun _ hnone => nomatch hnone
  saved := by
    intro job hjob
    rw [List.mem_singleton.1 hjob]
    exact .inl rfl
  boxes := fun _ hbox => nomatch hbox
  texts := fun _ htext => nomatch htext
  drawn := fun _ hbox => nomatch hbox
  invoked := fun _ hjob => .inl (List.mem_singleton.1 hjob)

theorem Reached.inStep (h : Reached library content resources state) : ∀ scan ∈ state.scanning, scan.InStep := by
  induction h with
  | refl => exact fun _ hnone => nomatch hnone
  | tail _ hstep ih => exact hstep.inStep ih

theorem Step.isColored (h : Step library state next) (hreached : Reached library content resources state)
    (hcolored : state.IsColored library content resources) : next.IsColored library content resources := by
  have hin := hreached.inStep
  have hinNext := h.inStep hin
  -- The colour in force in a stream that is being scanned goes back to a saved one or to an `rg`.
  have hforce : ∀ {scan : Scanning} {color : Option String}, state.scanning = some scan →
      ColorAfter scan.job.graphics.color scan.read color → IsColor color := by
    intro scan color hscan hafter
    exact hafter.isColor (hcolored.saved _ (by simp [State.jobs, hscan]))
  have hsaved : ∀ job ∈ next.jobs, IsColor job.graphics.color := by
    intro job hjob
    rcases h.jobs hin job hjob with hold | ⟨scan, hscan, -, -, hafter⟩
    · exact hcolored.saved job hold
    · exact hforce hscan hafter
  constructor
  case current =>
    intro scan hscan
    have hafter := (hinNext scan hscan).color
    exact ⟨hafter.isColor (hsaved _ (by simp [State.jobs, Option.mem_def.1 hscan])), hafter⟩
  case saved => exact hsaved
  case boxes =>
    intro box hbox
    rcases h.boxes hin box hbox with hold | ⟨scan, hscan, -, -, hafter⟩
    · exact hcolored.boxes box hold
    · exact hforce hscan hafter
  case texts =>
    intro text htext
    rcases h.texts text htext with hold | hnew
    · exact hcolored.texts text hold
    · exact hnew
  case drawn =>
    intro box hbox
    rcases h.boxes hin box hbox with hold | hnew
    · obtain ⟨earlier, hearlier, hsteps, hdraws⟩ := hcolored.drawn box hold
      exact ⟨earlier, hearlier, hsteps.tail h, hdraws⟩
    · exact ⟨state, hreached, .single h, hnew⟩
  case invoked =>
    intro job hjob
    rcases h.jobs hin job hjob with hold | hnew
    · refine (hcolored.invoked job hold).imp_right ?_
      rintro ⟨earlier, hearlier, hsteps, hinvokes⟩
      exact ⟨earlier, hearlier, hsteps.tail h, hinvokes⟩
    · exact .inr ⟨state, hreached, .single h, hnew⟩

theorem Reached.isColored (h : Reached library content resources state) :
    state.IsColored library content resources := by
  induction h with
  | refl => exact State.isColored_start
  | tail hreached hstep ih => exact hstep.isColored hreached ih

end

/-- The colours on a page: in every state that the interpretation reaches, colours have their form, texts are not
empty, and each box has the colour of the last `rg` before it in its stream, or else the one at the `Do` that the
stream was invoked by. What the page comes to is read off the last such state. -/
theorem interpret_isColored (library : Library) (content : Reading) (resources : Resources) :
    (∀ state, Reached library content resources state → state.IsColored library content resources) ∧
      ∃ last, Reached library content resources last ∧ last.Ends library (library.interpret content resources) :=
  ⟨fun _ hreached => hreached.isColored, (interpret_eq_iff_ends library content resources _).1 rfl⟩

end WeekGrid.Page
