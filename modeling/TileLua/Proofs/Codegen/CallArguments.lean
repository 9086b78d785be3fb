import Mathlib.Data.List.Forall2
import TileLua.Proofs.Codegen.VariableUses

/-! The arguments of calls of built-in operations.
Points, areas and subroutines fill the slots that an operation declares, and the last one that gives
a slot decides; plain values come after the slots in the order in which they stand. The text of an
expression without subroutines does not depend on what was compiled before it, so it makes no
difference how points and areas stand among the plain values.
-/

namespace TileLua

open Codegen (Slot)

-----------------------------------------------------------------------------------------
-- The parts of operands
-----------------------------------------------------------------------------------------

namespace Operand

/-- Whether an operand is a plain value: an expression that is no subroutine. -/
def isScalar : Operand → Bool
  | .value (.block _) => false
  | .value _ => true
  | _ => false

/-- Whether an operand is a point or an area. -/
def isStructured : Operand → Bool
  | .value _ => false
  | _ => true

/-- Whether an operand that is no subroutine can have parts for a slot, or for none. -/
def gives : Option Slot → Operand → Bool
  | none => isScalar
  | some _ => isStructured

/-- The expressions of an operand in order, each with the slot that it is for; a plain value is for
none.
-/
def parts : Operand → List (Option Slot × Expr)
  | .point x y => [(some .x, x), (some .y, y)]
  | .area x y width none => [(some .x, x), (some .y, y), (some .width, width)]
  | .area x y width (some height) =>
      [(some .x, x), (some .y, y), (some .width, width), (some .height, height)]
  | .value (.block index) => [(some .body, .block index)]
  | .value content => [(none, content)]

end Operand

namespace Codegen

/-- The texts of an operand in order, each with the slot that it is for. -/
def OperandText.parts : OperandText → List (Option Slot × String)
  | .point x y => [(some .x, x), (some .y, y)]
  | .area x y width none => [(some .x, x), (some .y, y), (some .width, width)]
  | .area x y width (some height) =>
      [(some .x, x), (some .y, y), (some .width, width), (some .height, height)]
  | .body text => [(some .body, text)]
  | .scalar text => [(none, text)]

/-- The texts for a slot, or for none, in order. -/
def textsFor (label : Option Slot) (given : List (Option Slot × String)) : List String :=
  (given.filter fun part => part.1 == label).map Prod.snd

/-- The text that the surroundings of a call give for a slot. -/
def Slot.ambient? : Slot → Option String
  | .actor => some "__actor"
  | .event => some "event"
  | .eventName => some "__evname"
  | _ => none

/-- What a slot takes: the text of its surroundings, the last text that is given for it, or `nil` if
none is.
-/
inductive Slot.Takes (given : List (Option Slot × String)) : Slot → String → Prop
  | ambient {slot : Slot} {text : String} (known : slot.ambient? = some text)
    : Takes given slot text
  | last {slot : Slot} {text : String} {earlier later : List (Option Slot × String)}
    (free : slot.ambient? = none) (split : given = earlier ++ (some slot, text) :: later)
    (final : ∀ part ∈ later, part.1 ≠ some slot)
    : Takes given slot text
  | missing {slot : Slot} (free : slot.ambient? = none)
    (absent : ∀ part ∈ given, part.1 ≠ some slot)
    : Takes given slot "nil"

theorem textsFor_flatMap {α : Type} (label : Option Slot) (given : α → List (Option Slot × String))
    (items : List α)
    : textsFor label (items.flatMap given)
      = items.flatMap (fun item => textsFor label (given item)) := by
  simp only [textsFor, List.filter_flatMap, List.map_flatMap]

/-- The text that an operand gives for a slot. -/
def Slot.given? : Slot → OperandText → Option String
  | .body => OperandText.body?
  | .x => OperandText.x?
  | .y => OperandText.y?
  | .width => OperandText.width?
  | .height => OperandText.height?
  | _ => fun _ => none

/-- What is taken from each operand is what its parts give. -/
theorem filterMap_eq_textsFor {gives : OperandText → Option String} {label : Option Slot}
    (taken : ∀ operand : OperandText, (gives operand).toList = textsFor label operand.parts)
    (operands : List OperandText)
    : operands.filterMap gives = textsFor label (operands.flatMap OperandText.parts) := by
  rw [List.filterMap_eq_flatMap_toList, textsFor_flatMap]
  simp only [taken]

theorem slotText_eq (operands : List OperandText) (slot : Slot)
    : slotText? operands slot
      = slot.ambient?.or (textsFor (some slot) (operands.flatMap OperandText.parts)).getLast? := by
  have taken (operand : OperandText)
      : (slot.given? operand).toList = textsFor (some slot) operand.parts := by
    cases slot <;> fun_cases OperandText.parts operand <;> rfl
  rw [← filterMap_eq_textsFor taken]
  cases slot <;> simp [slotText?, Slot.ambient?, Slot.given?]

/-- The arguments of a call are what its slots take, and then the texts that are for none. -/
theorem arguments_eq (operation : String) (operands : List OperandText)
    : arguments operation operands
      = (slotsOf operation).map (fun slot => (slotText? operands slot).getD "nil")
        ++ textsFor none (operands.flatMap OperandText.parts) := by
  have taken (operand : OperandText)
      : operand.scalar?.toList = textsFor none operand.parts := by
    fun_cases OperandText.parts operand <;> rfl
  rw [arguments, filterMap_eq_textsFor taken]

/-- The last text for a slot is what the slot takes. -/
theorem takes_slotText (operands : List OperandText) (slot : Slot)
    : slot.Takes (operands.flatMap OperandText.parts) ((slotText? operands slot).getD "nil") := by
  rw [slotText_eq]
  cases known : slot.ambient? with
  | some text => exact .ambient known
  | none =>
      rw [Option.none_or, textsFor, List.getLast?_map, List.getLast?_filter]
      cases found : (operands.flatMap OperandText.parts).reverse.find?
          (fun part => part.1 == some slot) with
      | none =>
          refine .missing known (fun part member => ?_)
          simpa using List.find?_eq_none.mp found part (List.mem_reverse.mpr member)
      | some part =>
          obtain ⟨label, text⟩ := part
          obtain ⟨same, later, earlier, split, others⟩ := List.find?_eq_some_iff_append.mp found
          cases eq_of_beq same
          have forward : operands.flatMap OperandText.parts
              = earlier.reverse ++ (some slot, text) :: later.reverse := by
            rw [← List.reverse_reverse (operands.flatMap OperandText.parts), split]
            simp
          refine .last known forward (fun part member => ?_)
          simpa using others part (List.mem_reverse.mp member)

-----------------------------------------------------------------------------------------
-- The texts of the parts
-----------------------------------------------------------------------------------------

theorem exprs_cons {write : BlockWriter} {tree : Expr} {rest : List Expr}
    {before middle after : State} {text : String} {texts : List String}
    (head : expr write tree before = .ok text middle)
    (tail : exprs write rest middle = .ok texts after)
    : exprs write (tree :: rest) before = .ok (text :: texts) after := by
  rw [exprs]
  exact bind_eq_ok.mpr ⟨text, middle, head, bind_eq_ok.mpr ⟨texts, after, tail, rfl⟩⟩

theorem exprs_append {write : BlockWriter} {first second : List Expr} {before middle after : State}
    {texts others : List String} (left : exprs write first before = .ok texts middle)
    (right : exprs write second middle = .ok others after)
    : exprs write (first ++ second) before = .ok (texts ++ others) after := by
  induction first generalizing before texts with
  | nil =>
      rw [exprs] at left
      obtain ⟨rfl, rfl⟩ := pure_eq_ok.mp left
      exact right
  | cons tree rest ih =>
      rw [exprs] at left
      obtain ⟨text, next, head, left⟩ := bind_eq_ok.mp left
      obtain ⟨tail, _, rested, result⟩ := bind_eq_ok.mp left
      obtain ⟨rfl, rfl⟩ := pure_eq_ok.mp result
      exact exprs_cons head (ih rested)

theorem exprs_singleton {write : BlockWriter} {tree : Expr} {before after : State} {text : String}
    (run : expr write tree before = .ok text after)
    : exprs write [tree] before = .ok [text] after :=
  exprs_cons run rfl

/-- The text of an operand has the texts of its parts, made one after the other, for the slots that
the parts are for.
-/
theorem operandText_parts {write : BlockWriter} {operand : Operand} {before after : State}
    {text : OperandText} (run : operandText write operand before = .ok text after)
    : text.parts.map Prod.fst = operand.parts.map Prod.fst
      ∧ exprs write (operand.parts.map Prod.snd) before
        = .ok (text.parts.map Prod.snd) after := by
  cases operand with
  | point x y =>
      rw [operandText] at run
      obtain ⟨_, _, left, run⟩ := bind_eq_ok.mp run
      obtain ⟨_, _, top, result⟩ := bind_eq_ok.mp run
      obtain ⟨rfl, rfl⟩ := pure_eq_ok.mp result
      exact ⟨rfl, exprs_cons left (exprs_singleton top)⟩
  | area x y width height =>
      rw [operandText] at run
      obtain ⟨_, _, left, run⟩ := bind_eq_ok.mp run
      obtain ⟨_, _, top, run⟩ := bind_eq_ok.mp run
      obtain ⟨_, _, right, run⟩ := bind_eq_ok.mp run
      cases height with
      | none =>
          obtain ⟨rfl, rfl⟩ := pure_eq_ok.mp run
          exact ⟨rfl, exprs_cons left (exprs_cons top (exprs_singleton right))⟩
      | some height =>
          obtain ⟨_, _, bottom, result⟩ := bind_eq_ok.mp run
          obtain ⟨rfl, rfl⟩ := pure_eq_ok.mp result
          exact ⟨rfl, exprs_cons left (exprs_cons top (exprs_cons right (exprs_singleton bottom)))⟩
  | value content =>
      rw [operandText] at run
      obtain ⟨_, _, made, result⟩ := bind_eq_ok.mp run
      -- Whether the value is a subroutine depends on the tree alone.
      cases content
      all_goals
        obtain ⟨rfl, rfl⟩ := pure_eq_ok.mp result
        exact ⟨rfl, exprs_singleton made⟩

/-- The texts of operands are those of their parts, by induction over the operands. -/
theorem operandTexts_parts {write : BlockWriter} {operands : List Operand} {before after : State}
    {texts : List OperandText} (run : operandTexts write operands before = .ok texts after)
    : (texts.flatMap OperandText.parts).map Prod.fst
        = (operands.flatMap Operand.parts).map Prod.fst
      ∧ exprs write ((operands.flatMap Operand.parts).map Prod.snd) before
        = .ok ((texts.flatMap OperandText.parts).map Prod.snd) after := by
  induction operands generalizing before texts with
  | nil =>
      rw [operandTexts] at run
      obtain ⟨rfl, rfl⟩ := pure_eq_ok.mp run
      exact ⟨rfl, rfl⟩
  | cons operand rest ih =>
      rw [operandTexts] at run
      obtain ⟨text, _, head, run⟩ := bind_eq_ok.mp run
      obtain ⟨others, _, tail, result⟩ := bind_eq_ok.mp run
      obtain ⟨rfl, rfl⟩ := pure_eq_ok.mp result
      obtain ⟨labels, made⟩ := operandText_parts head
      obtain ⟨otherLabels, otherMade⟩ := ih tail
      simp only [List.flatMap_cons, List.map_append]
      exact ⟨by rw [labels, otherLabels], exprs_append made otherMade⟩

/-- As many parts are for no slot as there are plain values, by induction over the operands. -/
theorem countP_labels (operands : List Operand)
    : ((operands.flatMap Operand.parts).map Prod.fst).countP (· == none)
      = operands.countP Operand.isScalar := by
  have counted (operand : Operand)
      : (operand.parts.map Prod.fst).countP (· == none) = if operand.isScalar then 1 else 0 := by
    cases operand with
    | point x y => rfl
    | area x y width height => cases height <;> rfl
    | value content => cases content <;> rfl
  induction operands with
  | nil => rfl
  | cons operand rest ih =>
      rw [List.flatMap_cons, List.map_append, List.countP_append, counted, ih, List.countP_cons,
        Nat.add_comm]

theorem length_textsFor_none {operands : List Operand} {given : List (Option Slot × String)}
    (labels : given.map Prod.fst = (operands.flatMap Operand.parts).map Prod.fst)
    : (textsFor none given).length = operands.countP Operand.isScalar := by
  rw [← countP_labels, ← labels, textsFor, List.length_map, ← List.countP_eq_length_filter,
    List.countP_map]
  rfl

-----------------------------------------------------------------------------------------
-- Expressions without subroutines
-----------------------------------------------------------------------------------------

/-- No block is among the visits. -/
def BlockFree (visits : List Visit) : Prop :=
  ∀ scope index, .block scope index ∉ visits

theorem BlockFree.append_iff {first rest : List Visit}
    : BlockFree (first ++ rest) ↔ BlockFree first ∧ BlockFree rest := by
  simp only [BlockFree, List.mem_append, not_or, forall_and]

/-- As long as no block is visited, two actions succeed with the same value in all states with the
same margin, and leave the margin alone.
-/
def Settled {α : Type} (visits : List Visit) (action action' : Codegen α) : Prop :=
  BlockFree visits
  → ∀ first second : State,
      first.indent = second.indent
      → ∃ value first' second',
          action first = .ok value first'
          ∧ action' second = .ok value second'
          ∧ first'.indent = first.indent
          ∧ second'.indent = second.indent

/-- An action that gives the same value in every state. -/
theorem Settled.of_value {α : Type} {visits : List Visit} {action : Codegen α} (value : α)
    (grown : Keeps State.Grown action) (run : ∀ before, ∃ after, action before = .ok value after)
    : Settled visits action action := by
  intro _ first second _
  obtain ⟨first', firstRun⟩ := run first
  obtain ⟨second', secondRun⟩ := run second
  exact ⟨value, first', second', firstRun, secondRun, (grown.of_ok firstRun).indent,
    (grown.of_ok secondRun).indent⟩

theorem Settled.bind {α β : Type} {visits rest : List Visit} {action action' : Codegen α}
    {next next' : α → Codegen β} (left : Settled visits action action')
    (right : ∀ value, Gives action value → Settled rest (next value) (next' value))
    : Settled (visits ++ rest) (action >>= next) (action' >>= next') := by
  intro free first second same
  obtain ⟨freeLeft, freeRight⟩ := BlockFree.append_iff.mp free
  obtain ⟨value, middle, middle', run, run', kept, kept'⟩ :=
    left freeLeft first second same
  have still : middle.indent = middle'.indent := by rw [kept, kept', same]
  obtain ⟨result, after, after', done, done', left, left'⟩ :=
    right value ⟨first, middle, run⟩ freeRight middle middle' still
  refine ⟨result, after, after', bind_eq_ok.mpr ⟨value, middle, run, done⟩,
    bind_eq_ok.mpr ⟨value, middle', run', done'⟩, ?_, ?_⟩
  · rw [left, kept]
  · rw [left', kept']

theorem Settled.indented {α : Type} {visits : List Visit} {action action' : Codegen α} (steps : Nat)
    (inner : Settled visits action action')
    : Settled visits (indented steps action) (indented steps action') := by
  intro free first second same
  have entered : first.indent + steps = second.indent + steps := by rw [same]
  obtain ⟨value, after, after', run, run', kept, kept'⟩ :=
    inner free { first with indent := first.indent + steps }
      { second with indent := second.indent + steps } entered
  refine ⟨value, _, _, around_eq_ok.mpr ⟨after, run, rfl⟩, around_eq_ok.mpr ⟨after', run', rfl⟩,
    ?_, ?_⟩
  · simp only [kept, Nat.add_sub_cancel]
  · simp only [kept', Nat.add_sub_cancel]

theorem Settled.pure {α : Type} (value : α)
    : Settled [] (Pure.pure value : Codegen α) (Pure.pure value) :=
  .of_value value (.pure value) (fun before => ⟨before, rfl⟩)

theorem Settled.sequential : Sequential (fun action => Settled [] action action) where
  pure := .pure
  bind := fun left right => left.bind (fun value _ => right value)

theorem bindLocal_settled (binding : String)
    : Settled [] (bindLocal binding) (bindLocal binding) := by
  refine .of_value () (bindLocal_grown binding) (fun before => ?_)
  obtain ⟨journal, run⟩ := bindLocal_apply binding before
  exact ⟨_, run⟩

theorem readVariable_settled (name : String)
    : Settled [.read name] (readVariable name) (readVariable name) := by
  intro _
  have used : Settled [] (useVariable name) (useVariable name) :=
    .of_value _ (useVariable_quiet name).grown (fun before => ⟨_, useVariable_apply name before⟩)
  exact Settled.sequential.bind used (Settled.sequential.readSpecial bindLocal_settled)
    (by simp [BlockFree])

/-- Expressions are settled, whatever way blocks are written. -/
theorem settledLogic (write other : BlockWriter) : TreeLogic write other Settled where
  pure := .pure
  bind := Settled.bind
  margin := by
    intro _ first second same
    exact ⟨_, first, second, rfl, by rw [same]; rfl, rfl, rfl⟩
  indented := Settled.indented
  read := readVariable_settled
  unknownExpr tag := .of_value () (meet_quiet _).grown (fun _ => ⟨_, rfl⟩)
  block scope index := fun free => (free scope index (List.mem_singleton_self _)).elim

-----------------------------------------------------------------------------------------
-- Operands in another order
-----------------------------------------------------------------------------------------

/-- The text of an operand at a depth of the margin, in a state without anything else. -/
def operandTextAt (write : BlockWriter) (indent : Nat) (operand : Operand) : OperandText :=
  match operandText write operand { indent } with
  | .ok text _ => text
  | .error _ _ => .scalar "nil"

/-- Without subroutines, operands have the texts that each of them has alone, by induction over the
operands.
-/
theorem operandTexts_of_blockFree (write : BlockWriter) {operands : List Operand}
    (free : BlockFree (Operand.visitsOfAll operands)) (before : State)
    : ∃ after,
        operandTexts write operands before
        = .ok (operands.map (operandTextAt write before.indent)) after := by
  induction operands generalizing before with
  | nil => exact ⟨before, rfl⟩
  | cons operand rest ih =>
      rw [Operand.visitsOfAll, BlockFree.append_iff] at free
      obtain ⟨text, middle, _, run, alone, kept, -⟩ :=
        (settledLogic write write).operandText operand free.1 before { indent := before.indent } rfl
      have same : operandTextAt write before.indent operand = text := by
        simp only [operandTextAt, alone]
      obtain ⟨after, tail⟩ := ih free.2 middle
      rw [kept] at tail
      refine ⟨after, ?_⟩
      rw [operandTexts, List.map_cons, same]
      exact bind_eq_ok.mpr ⟨text, middle, run, bind_eq_ok.mpr ⟨_, after, tail, rfl⟩⟩

theorem visitsOfAll_eq_flatMap (operands : List Operand)
    : Operand.visitsOfAll operands = operands.flatMap Operand.visits := by
  induction operands with
  | nil => rfl
  | cons operand rest ih => rw [Operand.visitsOfAll, List.flatMap_cons, ih]

theorem BlockFree.of_mem {operands : List Operand} (free : BlockFree (Operand.visitsOfAll operands))
    {operand : Operand} (member : operand ∈ operands)
    : BlockFree operand.visits := by
  intro scope index visited
  apply free scope index
  rw [visitsOfAll_eq_flatMap]
  exact List.mem_flatMap.mpr ⟨operand, member, visited⟩

/-- An operand of the other kind has no parts for a label. -/
theorem label_not_mem {operand : Operand} (free : BlockFree operand.visits) {label : Option Slot}
    (other : Operand.gives label operand = false)
    : label ∉ operand.parts.map Prod.fst := by
  cases operand with
  | point x y => cases label <;> simp_all [Operand.gives, Operand.isStructured, Operand.parts]
  | area x y width height =>
      cases label <;> cases height
        <;> simp_all [Operand.gives, Operand.isStructured, Operand.parts]
  | value content =>
      cases content with
      | block index => exact (free .own index (by simp [Operand.visits, Expr.visits])).elim
      | _ => cases label <;> simp_all [Operand.gives, Operand.isScalar, Operand.parts]

theorem textsFor_eq_nil {label : Option Slot} {given : List (Option Slot × String)}
    (absent : label ∉ given.map Prod.fst)
    : textsFor label given = [] := by
  rw [textsFor, List.map_eq_nil_iff, List.filter_eq_nil_iff]
  intro part member same
  exact absent (List.mem_map.mpr ⟨part, member, eq_of_beq same⟩)

theorem labels_operandTextAt (write : BlockWriter) (indent : Nat) {operand : Operand}
    (free : BlockFree operand.visits)
    : (operandTextAt write indent operand).parts.map Prod.fst = operand.parts.map Prod.fst := by
  obtain ⟨text, _, _, run, -⟩ :=
    (settledLogic write write).operandText operand free { indent } { indent } rfl
  rw [operandTextAt, run]
  exact (operandText_parts run).1

theorem flatMap_filter_of_nil {α β : Type} {keep : α → Bool} {make : α → List β} {items : List α}
    (skipped : ∀ item ∈ items, keep item = false → make item = [])
    : (items.filter keep).flatMap make = items.flatMap make := by
  induction items with
  | nil => rfl
  | cons item rest ih =>
      have tail := ih (fun other member => skipped other (List.mem_cons_of_mem _ member))
      cases kept : keep item with
      | true => rw [List.filter_cons_of_pos kept, List.flatMap_cons, List.flatMap_cons, tail]
      | false =>
          rw [List.filter_cons_of_neg (by simp [kept]), tail, List.flatMap_cons,
            skipped item List.mem_cons_self kept, List.nil_append]

/-- The texts for a label come from the operands of the kind that gives them. -/
theorem textsFor_operands (write : BlockWriter) (indent : Nat) {operands : List Operand}
    (free : BlockFree (Operand.visitsOfAll operands)) (label : Option Slot)
    : textsFor label ((operands.map (operandTextAt write indent)).flatMap OperandText.parts)
      = (operands.filter (Operand.gives label)).flatMap
          (fun operand => textsFor label (operandTextAt write indent operand).parts) := by
  rw [flatMap_filter_of_nil, List.flatMap_map, textsFor_flatMap]
  intro operand member other
  apply textsFor_eq_nil
  rw [labels_operandTextAt write indent (free.of_mem member)]
  exact label_not_mem (free.of_mem member) other

/-- Without subroutines, the arguments depend on the plain values in their order, and on the points
and areas in theirs.
-/
theorem arguments_congr (write : BlockWriter) (indent : Nat) (operation : String)
    {first second : List Operand} (free : BlockFree (Operand.visitsOfAll first))
    (free' : BlockFree (Operand.visitsOfAll second))
    (scalars : first.filter Operand.isScalar = second.filter Operand.isScalar)
    (structured : first.filter Operand.isStructured = second.filter Operand.isStructured)
    : arguments operation (first.map (operandTextAt write indent))
      = arguments operation (second.map (operandTextAt write indent)) := by
  have same (label : Option Slot)
      : textsFor label ((first.map (operandTextAt write indent)).flatMap OperandText.parts)
        = textsFor label ((second.map (operandTextAt write indent)).flatMap OperandText.parts) := by
    have kind : first.filter (Operand.gives label) = second.filter (Operand.gives label) := by
      cases label with
      | none => exact scalars
      | some slot => exact structured
    rw [textsFor_operands write indent free, textsFor_operands write indent free', kind]
  simp only [arguments_eq, slotText_eq, same]

/-- A call that succeeds has as arguments what the declared slots of its operation take, in order,
and after them the texts of its plain values, in order; so there are as many as declared slots and
plain values together. The texts are made part by part as the operands stand. Two lists of operands
without subroutines that agree on the plain values and on the points and areas give the same call.
-/
theorem call_arguments_by_slot (source : Script) (role : CallRole) (operation : String)
    : (∀ operands before text after,
        call (block source) role operation operands before = .ok text after
        → ∃ given slots,
            given.map Prod.fst = (operands.flatMap Operand.parts).map Prod.fst
            ∧ exprs (block source) ((operands.flatMap Operand.parts).map Prod.snd) before
              = .ok (given.map Prod.snd) after
            ∧ List.Forall₂ (Slot.Takes given) (slotsOf operation) slots
            ∧ text = written role operation (slots ++ textsFor none given)
            ∧ (slots ++ textsFor none given).length
              = (slotsOf operation).length + operands.countP Operand.isScalar)
      ∧ ∀ first second before,
          BlockFree (Operand.visitsOfAll first)
          → BlockFree (Operand.visitsOfAll second)
          → first.filter Operand.isScalar = second.filter Operand.isScalar
          → first.filter Operand.isStructured = second.filter Operand.isStructured
          → ∃ text after after',
              call (block source) role operation first before = .ok text after
              ∧ call (block source) role operation second before = .ok text after' := by
  constructor
  · intro operands before text after run
    obtain ⟨texts, _, made, result⟩ := bind_eq_ok.mp run
    obtain ⟨rfl, rfl⟩ := pure_eq_ok.mp result
    obtain ⟨labels, parts⟩ := operandTexts_parts made
    refine ⟨texts.flatMap OperandText.parts,
      (slotsOf operation).map (fun slot => (slotText? texts slot).getD "nil"), labels, parts,
      ?_, ?_, ?_⟩
    · rw [List.forall₂_map_right_iff, List.forall₂_same]
      exact fun slot _ => takes_slotText texts slot
    · rw [callText, arguments_eq]
    · rw [List.length_append, List.length_map, length_textsFor_none labels]
  · intro first second before free free' scalars structured
    obtain ⟨after, run⟩ := operandTexts_of_blockFree (block source) free before
    obtain ⟨after', run'⟩ := operandTexts_of_blockFree (block source) free' before
    have same :=
      arguments_congr (block source) before.indent operation free free' scalars structured
    refine ⟨_, after, after', bind_eq_ok.mpr ⟨_, after, run, rfl⟩,
      bind_eq_ok.mpr ⟨_, after', run', pure_eq_ok.mpr ⟨?_, rfl⟩⟩⟩
    rw [callText, callText, same]

/-- A script with one block. -/
def waiter : Script where
  name := "hall"
  blocks := [[.done]]

/-- A wait takes its subroutine before the time that stands first, and a box that is said in may
come after the text, with a later point that moves it.
-/
theorem say_box_after_text
    : (∃ text after given slots,
        call (block waiter) .statement "wait" [.value (.int 3), .value (.block 0)] {}
          = .ok text after
        ∧ given.map Prod.fst = [none, some .body]
        ∧ List.Forall₂ (Slot.Takes given) (slotsOf "wait") slots
        ∧ text = written .statement "wait" (slots ++ textsFor none given)
        ∧ (slots ++ textsFor none given).length = 5)
      ∧ ∃ text after after',
          call (block waiter) .statement "say"
            [.value (.str "hello"), .area (.int 1) (.int 2) (.get "n") none,
              .point (.int 5) (.get "n")]
            {}
          = .ok text after
          ∧ call (block waiter) .statement "say"
              [.area (.int 1) (.int 2) (.get "n") none, .point (.int 5) (.get "n"),
                .value (.str "hello")]
              {}
            = .ok text after' := by
  constructor
  · obtain ⟨text, after, run⟩
        : ∃ text after,
            call (block waiter) .statement "wait" [.value (.int 3), .value (.block 0)] {}
            = .ok text after :=
      ⟨_, _, rfl⟩
    obtain ⟨given, slots, labels, -, takes, result, arity⟩ :=
      (call_arguments_by_slot waiter .statement "wait").1 _ _ _ _ run
    exact ⟨text, after, given, slots, run, labels, takes, result, arity⟩
  · refine (call_arguments_by_slot waiter .statement "say").2 _ _ _ ?_ ?_ rfl rfl
    · simp [BlockFree, Operand.visitsOfAll, Operand.visits, Expr.visits]
    · simp [BlockFree, Operand.visitsOfAll, Operand.visits, Expr.visits]

end Codegen

end TileLua
