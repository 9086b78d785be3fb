import TileLua.Proofs.Codegen.Fragments
import TileLua.Proofs.Codegen.VariableUses

/-! The texts of expressions and of calls of built-in operations are composed.
What a text is made of depends on the state too: on the objects that calls are dispatched on, on the
declarations that the open functions need, and on the script's own object. An action that starts
with parts that are grounded in the scripts leaves them so, and what it gives has the shape that is
claimed.
-/

namespace TileLua.Codegen

-----------------------------------------------------------------------------------------
-- What a run relies on and keeps
-----------------------------------------------------------------------------------------

/-- The parts of a state that get into texts are made of what texts are made of. -/
structure Grounded (origin : Origin) (objects : List String) (root : String)
    (frames : List (Std.TreeSet String)) (uses : Std.TreeMap String Nat)
    : Prop where
  objects : ∀ object ∈ objects, object = Engine.ownObject ∨ object = Engine.actorObject
  root : Composed origin root
  bindings : ∀ frame ∈ frames, ∀ binding ∈ frame, Composed origin binding
  uses : ∀ name ∈ uses, origin.Uses name

def State.Grounded (origin : Origin) (state : State) : Prop :=
  Codegen.Grounded origin state.dispatch state.root state.frames state.uses

/-- An action that succeeds in a state whose parts are grounded gives a value of that shape, and
its parts stay grounded.
-/
def Writes {α : Type} (origin : Origin) (action : Codegen α) (shape : α → Prop) : Prop :=
  ∀ before value after, action before = .ok value after → before.Grounded origin
    → after.Grounded origin ∧ shape value

namespace Writes

variable {α β : Type} {origin : Origin} {action : Codegen α} {given : α → Prop}

theorem pure {value : α} (holds : given value) : Writes origin (Pure.pure value) given := by
  intro before result after run grounded
  obtain ⟨rfl, rfl⟩ := pure_eq_ok.mp run
  exact ⟨grounded, holds⟩

theorem bind {next : α → Codegen β} {shape : β → Prop} (first : Writes origin action given)
    (rest : ∀ value, given value → Writes origin (next value) shape)
    : Writes origin (action >>= next) shape := by
  intro before result after run grounded
  obtain ⟨value, middle, firstRun, run⟩ := bind_eq_ok.mp run
  obtain ⟨still, holds⟩ := first before value middle firstRun grounded
  exact rest value holds middle result after run still

/-- What becomes of the value of an action. -/
theorem bind_pure {result : α → β} {shape : β → Prop} (first : Writes origin action given)
    (holds : ∀ value, given value → shape (result value))
    : Writes origin (action >>= fun value => Pure.pure (result value)) shape :=
  first.bind (fun value known => .pure (holds value known))

theorem map {result : α → β} {shape : β → Prop} (first : Writes origin action given)
    (holds : ∀ value, given value → shape (result value))
    : Writes origin (result <$> action) shape := by
  rw [map_eq_pure_bind]
  exact first.bind_pure holds

theorem throw (defect : Defect) : Writes origin (MonadExcept.throw defect : Codegen α) given := by
  intro before value after run
  cases run

theorem ofExcept (result : Except Defect α)
    : Writes origin (Codegen.ofExcept result) (result = .ok ·) := by
  intro before value after run grounded
  obtain ⟨found, rfl⟩ := ofExcept_eq_ok.mp run
  exact ⟨grounded, found⟩

/-- Surroundings in which the parts are grounded. -/
theorem around {enter : State → State} {leave : State → State → State}
    (inner : Writes origin action given)
    (entered : ∀ before, before.Grounded origin → (enter before).Grounded origin)
    (left : ∀ before after, before.Grounded origin → after.Grounded origin
      → (leave before after).Grounded origin)
    : Writes origin (Codegen.around enter leave action) given := by
  intro before value after run grounded
  obtain ⟨middle, innerRun, rfl⟩ := around_eq_ok.mp run
  obtain ⟨still, holds⟩ := inner _ _ _ innerRun (entered before grounded)
  exact ⟨left before middle grounded still, holds⟩

end Writes

section

variable {origin : Origin}

-----------------------------------------------------------------------------------------
-- Steps
-----------------------------------------------------------------------------------------

/-- The texts in an operand. -/
def OperandText.texts : OperandText → List String
  | .point x y => [x, y]
  | .area x y width height => [x, y, width] ++ height.toList
  | .body text => [text]
  | .scalar text => [text]

/-- A template that makes a composed text of composed arguments. -/
structure Fills (origin : Origin) (pieces : List Piece) : Prop where
  composed {arguments : List String} (given : ∀ argument ∈ arguments, Composed origin argument)
    : Composed origin (expand pieces arguments)

namespace Fills

variable {rest : List Piece} {letters : List Char} {index : Nat}

theorem composed_argument {arguments : List String}
    (given : ∀ argument ∈ arguments, Composed origin argument) (index : Nat)
    : Composed origin (arguments[index]?.getD "nil") := by
  cases found : arguments[index]? with
  | none => exact .own
  | some argument => exact given argument (List.mem_of_getElem? found)

theorem argument : Fills origin [.argument index] where
  composed given := by simpa [expand] using composed_argument given index

theorem text (own : isOwnText letters = true := by decide)
    : Fills origin [.text (String.ofList letters)] where
  composed _ := by simpa [expand] using Composed.own own

theorem lead (fills : Fills origin rest) (own : isLead letters = true := by decide)
    : Fills origin (.text (String.ofList letters) :: rest) where
  composed given := by simpa [expand] using (fills.composed given).lead own

theorem trail (own : isTrail letters = true := by decide)
    : Fills origin [.argument index, .text (String.ofList letters)] where
  composed given := by simpa [expand] using (composed_argument given index).trail own

theorem joint (fills : Fills origin rest) (own : isJoint letters = true := by decide)
    : Fills origin (.argument index :: .text (String.ofList letters) :: rest) where
  composed given := by
    have text := ((composed_argument given index).joint own).before (fills.composed given)
    simpa [expand, String.append_assoc] using text

end Fills

end

end TileLua.Codegen
