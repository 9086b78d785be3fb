import TileLua.Codegen.Command

/-! Chains of continuations without nesting.
The continuations of an `if` can carry continuations of their own. Their text is that of the flat
chain, which has the carrying continuation first and the carried ones right behind it, and writing
the two does the same in the same order.
-/

namespace TileLua

mutual

/-- A continuation and those that it carries, each without the ones that it carries itself. -/
def Branch.flatten : Branch → List Branch
  | .orElseIf test body nested => .orElseIf test body [] :: Branch.flattenAll nested
  | .orElse body => [.orElse body]

def Branch.flattenAll : List Branch → List Branch
  | [] => []
  | first :: rest => first.flatten ++ Branch.flattenAll rest

end

/-- Whether a continuation carries no others. -/
def Branch.isFlat : Branch → Bool
  | .orElseIf _ _ nested => nested.isEmpty
  | .orElse _ => true

/-- A flat chain carries nothing, by induction over the nesting. -/
theorem Branch.isFlat_of_mem_flatten
    : (∀ tree : Branch, ∀ arm ∈ tree.flatten, arm.isFlat = true)
      ∧ ∀ list, ∀ arm ∈ Branch.flattenAll list, arm.isFlat = true := by
  refine Branch.flatten.mutual_induct _ _ ?orElseIf ?orElse ?none ?some
  case orElseIf =>
    intro test body nested ih
    simpa [flatten, isFlat] using ih
  case orElse =>
    intro body
    simp [flatten, isFlat]
  case none => simp [flattenAll]
  case some =>
    intro first rest head tail arm member
    rw [flattenAll, List.mem_append] at member
    exact member.elim (head arm) (tail arm)

namespace Codegen

variable (write : BlockWriter)

theorem branches_cons (first : Branch) (rest : List Branch)
    : branches write (first :: rest)
      = do
          let head ← branch write first
          let tail ← branches write rest
          return head ++ tail := by
  rw [branches]

/-- Chains are written one after the other, by induction over the first. -/
theorem branches_append (first second : List Branch)
    : branches write (first ++ second)
      = do
          let head ← branches write first
          let tail ← branches write second
          return head ++ tail := by
  induction first with
  | nil =>
      rw [List.nil_append, branches]
      simp only [pure_bind, String.empty_append, bind_pure]
  | cons tree rest ih =>
      rw [List.cons_append, branches_cons, branches_cons, ih]
      simp only [bind_assoc, pure_bind, String.append_assoc]

theorem branches_singleton (tree : Branch) : branches write [tree] = branch write tree := by
  simp [branches]

/-- Carried continuations are written behind the one that carries them. -/
theorem branch_orElseIf (test : Condition) (body : Nat) (nested : List Branch)
    : branch write (.orElseIf test body nested)
      = do
          let head ← branch write (.orElseIf test body [])
          let tail ← branches write nested
          return head ++ tail := by
  simp [branch, branches]

/-- The flat chain is written as the chain is, by induction over the nesting. -/
theorem branches_flatten
    : (∀ tree : Branch, branches write tree.flatten = branch write tree)
      ∧ ∀ list, branches write (Branch.flattenAll list) = branches write list := by
  refine Branch.flatten.mutual_induct _ _ ?orElseIf ?orElse ?none ?some
  case orElseIf =>
    intro test body nested ih
    rw [Branch.flatten, branches_cons, ih, ← branch_orElseIf]
  case orElse =>
    intro body
    rw [Branch.flatten, branches_singleton]
  case none => rw [Branch.flattenAll]
  case some =>
    intro first rest head tail
    rw [Branch.flattenAll, branches_append, head, tail, ← branches_cons]

/-- An `if` with nested continuations is written as the one with the flat chain: it gives the same
text or fails with the same defect, and leaves the same state.
-/
theorem nested_continuations_are_written_flat (script : Script) (write : BlockWriter)
    (tags : Annotations) (test : Condition) (body : Nat) (continuations : List Branch)
    (before : State)
    : (∀ arm ∈ Branch.flattenAll continuations, arm.isFlat = true)
      ∧ command script write tags (.choose test body (Branch.flattenAll continuations)) before
        = command script write tags (.choose test body continuations) before := by
  refine ⟨Branch.isFlat_of_mem_flatten.2 continuations, ?_⟩
  simp only [command, (branches_flatten write).2]

end Codegen

end TileLua
