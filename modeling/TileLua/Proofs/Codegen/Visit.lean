import TileLua.Codegen.Handler
import TileLua.Proofs.Codegen.Run

/-! What code generation comes across in a tree, in order.
A visit is a place where the state can change or where another block is written. Operands that no
text is made of are not visited: those after a leading point of `name`, those after the block of a
`tell` in place, and the actor of such a `tell`.

A property of actions that is indexed by visits and closed under the steps of code generation
holds of the text of every tree; the induction over the trees is made here once. It is made for two
actions at a time, so that it also compares two ways to write the blocks inside a tree.
-/

namespace TileLua

open Codegen (Scope BlockWriter)

/-- What code generation comes across. -/
inductive Visit
  /-- A variable that is read. -/
  | read (name : String)
  /-- A variable that is written. -/
  | write (name : String)
  /-- An expression whose tag is not known. -/
  | unknownExpr (tag : String)
  /-- A command whose tag is not known. -/
  | unknownCommand (tag : String)
  /-- A comment, by its index. -/
  | comment (index : Nat)
  /-- A call of an event handler. -/
  | call
  /-- A `tell` in place that no block follows. -/
  | tellWithoutBlock (label : String)
  /-- A block, by its index. -/
  | block (scope : Scope) (index : Nat)
  deriving DecidableEq, Inhabited, Repr

mutual

/-- The visits of an expression. -/
def Expr.visits : Expr → List Visit
  | .str _ => []
  | .int _ => []
  | .float _ => []
  | .nil => []
  | .get name => [.read name]
  | .tile _ _ => []
  | .format parts => Expr.visitsOfAll parts
  | .embed content => content.visits
  | .apply .name (.point x y :: _) => x.visits ++ y.visits
  | .apply _ operands => Operand.visitsOfAll operands
  | .block index => [.block .own index]
  | .unknown tag => [.unknownExpr tag]

def Expr.visitsOfAll : List Expr → List Visit
  | [] => []
  | first :: rest => first.visits ++ Expr.visitsOfAll rest

/-- The visits of a call operand. -/
def Operand.visits : Operand → List Visit
  | .point x y => x.visits ++ y.visits
  | .area x y width none => x.visits ++ y.visits ++ width.visits
  | .area x y width (some height) => x.visits ++ y.visits ++ width.visits ++ height.visits
  | .value content => content.visits

def Operand.visitsOfAll : List Operand → List Visit
  | [] => []
  | first :: rest => first.visits ++ Operand.visitsOfAll rest

end

/-- Whether a visit can stand in an expression. Calls of event handlers and blocks that share the
function around them are visits of commands only.
-/
def Visit.inExpr : Visit → Bool
  | .read _ => true
  | .unknownExpr _ => true
  | .block .own _ => true
  | _ => false

/-- Every visit of an expression or a call operand can stand there, by induction over the trees. -/
theorem visits_inExpr
    : (∀ tree : Expr, ∀ visit ∈ tree.visits, visit.inExpr)
      ∧ (∀ operands, ∀ visit ∈ Operand.visitsOfAll operands, visit.inExpr)
      ∧ (∀ operand : Operand, ∀ visit ∈ operand.visits, visit.inExpr)
      ∧ ∀ parts, ∀ visit ∈ Expr.visitsOfAll parts, visit.inExpr := by
  apply Expr.visits.mutual_induct
  all_goals
    intros
    simp_all only [Expr.visits, Operand.visits, Expr.visitsOfAll, Operand.visitsOfAll,
      List.mem_append, List.mem_singleton, Visit.inExpr]
  all_goals grind

def Condition.visits (condition : Condition) : List Visit :=
  condition.left.visits ++ condition.right.visits

mutual

def Branch.visits : Branch → List Visit
  | .orElseIf test body nested => test.visits ++ [.block .shared body] ++ Branch.visitsOfAll nested
  | .orElse body => [.block .shared body]

def Branch.visitsOfAll : List Branch → List Visit
  | [] => []
  | first :: rest => first.visits ++ Branch.visitsOfAll rest

end

def Callee.visits : Callee → List Visit
  | .name _ => []
  | .computed event => event.visits

/-- The visits of what follows a `tell` in place. -/
def visitsInPlace (label : String) : List Operand → List Visit
  | .value (.block index) :: _ => [.block .own index]
  | _ => [.tellWithoutBlock label]

/-- The visits of a `tell`. -/
def visitsOfTell (target : Operand) (rest : List Operand) : List Visit :=
  match target with
  | .point x y => x.visits ++ y.visits ++ visitsInPlace "x,y" rest
  | .value (.get name) =>
      match Codegen.KnownActor.ofVariable? name with
      | some known => visitsInPlace known.label rest
      | none => Operand.visitsOfAll (target :: rest)
  | _ => Operand.visitsOfAll (target :: rest)

/-- The visits of a command. -/
def Command.visits : Command → List Visit
  | .blank => []
  | .done => []
  | .assign _ target value => .write target :: value.visits
  | .inc name => [.write name]
  | .dec name => [.write name]
  | .random low none => low.visits
  | .random low (some high) => low.visits ++ high.visits
  | .choose test body continuations =>
      test.visits ++ [.block .shared body] ++ Branch.visitsOfAll continuations
  | .repeatWhile test body => test.visits ++ [.block .shared body]
  | .call callee => callee.visits ++ [.call]
  | .emit event => event.visits
  | .mimic target => target.visits
  | .tell target rest => visitsOfTell target rest
  | .perform _ operands => Operand.visitsOfAll operands
  | .comment index _ => [.comment index]
  | .unknown tag => [.unknownCommand tag]

/-- Whether a command is neither a call of an event handler nor a `tell`. -/
def Command.isPlain : Command → Bool
  | .call _ => false
  | .tell _ _ => false
  | _ => true

namespace Codegen

/-- Whether an action can give a value. -/
def Gives {α : Type} (action : Codegen α) (value : α) : Prop :=
  ∃ before after, action before = .ok value after

/-- A property of pairs of actions, indexed by what they visit, that respects the steps in which the
text of an expression is made. The two actions go through the same tree, each with its own way to
write the blocks inside.
-/
structure TreeLogic (write other : BlockWriter)
    (Holds : {α : Type} → List Visit → Codegen α → Codegen α → Prop)
    : Prop where
  pure {α : Type} (value : α) : Holds [] (Pure.pure value) (Pure.pure value)
  bind {α β : Type} {first rest : List Visit} {action action' : Codegen α}
    {next next' : α → Codegen β}
    : Holds first action action'
      → (∀ value, Gives action value → Holds rest (next value) (next' value))
      → Holds (first ++ rest) (action >>= next) (action' >>= next')
  margin : Holds [] margin margin
  indented {α : Type} {visits : List Visit} {action action' : Codegen α} (steps : Nat)
    : Holds visits action action' → Holds visits (indented steps action) (indented steps action')
  read (name : String) : Holds [.read name] (readVariable name) (readVariable name)
  unknownExpr (tag : String)
    : Holds [.unknownExpr tag] (meet (.unknownExpression tag)) (meet (.unknownExpression tag))
  block (scope : Scope) (index : Nat)
    : Holds [.block scope index] (write scope index) (other scope index)

/-- A property that also respects the steps of commands, apart from calls of event handlers and
`tell`.
-/
structure CommandLogic (script : Script) (write other : BlockWriter)
    (Holds : {α : Type} → List Visit → Codegen α → Codegen α → Prop)
    : Prop extends TreeLogic write other Holds where
  foldTile (expr : Expr) : Holds [] (foldTile expr) (foldTile expr)
  use (name : String) : Holds [.write name] (useVariable name) (useVariable name)
  unknownCommand (tag : String)
    : Holds [.unknownCommand tag] (meet (.unknownCommand tag)) (meet (.unknownCommand tag))
  comment (index : Nat) (inline : Bool)
    : Holds [.comment index] (comment script index inline) (comment script index inline)

/-- A property that respects all steps of code generation.
Calls of event handlers are a step of their own, since what they do depends on the object that the
surrounding code dispatches on; that object only changes around expressions and functions, in which
there is no such call.
-/
structure PairLogic (script : Script) (write other : BlockWriter)
    (Holds : {α : Type} → List Visit → Codegen α → Codegen α → Prop)
    : Prop extends CommandLogic script write other Holds where
  dispatching {α : Type} {visits : List Visit} {action action' : Codegen α} (object : String)
    : (∀ visit ∈ visits, visit.inExpr)
      → Holds visits action action'
      → Holds visits (dispatchingOn object action) (dispatchingOn object action')
  tellWithoutBlock (label : String)
    : Holds [.tellWithoutBlock label] (throw (.tellWithoutBlock label) : Codegen String)
        (throw (.tellWithoutBlock label))
  call (tags : Annotations) (callee : Callee)
    : (∀ object, Holds callee.visits (callForm write object callee) (callForm other object callee))
      → Holds (callee.visits ++ [.call]) (callSite write tags callee) (callSite other tags callee)

/-- A property of single actions that respects all steps of code generation. -/
abbrev VisitLogic (script : Script) (write : BlockWriter)
    (Holds : {α : Type} → List Visit → Codegen α → Prop)
    : Prop :=
  PairLogic script write write (fun visits action _ => Holds visits action)

/-- Folding a tile name keeps the visits, since neither form has any. -/
theorem visits_of_foldTile {tree folded : Expr} (gives : Gives (foldTile tree) folded)
    : folded.visits = tree.visits := by
  obtain ⟨before, after, run⟩ := gives
  rw [foldTile_apply] at run
  cases found : before.tiles.named? tree with
  | none =>
      simp only [found] at run
      cases run
      rfl
  | some tile =>
      simp only [found] at run
      cases run
      rw [(eq_str_of_named found).1]
      simp only [Expr.visits]

theorem visits_of_foldTileOperand {operand folded : Operand}
    (gives : Gives (foldTileOperand operand) folded)
    : folded.visits = operand.visits := by
  obtain ⟨before, after, run⟩ := gives
  cases operand with
  | value content =>
      obtain ⟨tree, middle, foldRun, result⟩ := bind_eq_ok.mp run
      obtain ⟨rfl, -⟩ := pure_eq_ok.mp result
      simp only [Operand.visits]
      exact visits_of_foldTile ⟨before, middle, foldRun⟩
  | point x y | area x y width height =>
      obtain ⟨rfl, -⟩ := pure_eq_ok.mp run
      rfl

namespace TreeLogic

variable {write other : BlockWriter}
  {Holds : {α : Type} → List Visit → Codegen α → Codegen α → Prop}

/-- An action that visits nothing adds nothing to the visits of what follows. -/
theorem silent_bind (logic : TreeLogic write other Holds) {α β : Type} {visits : List Visit}
    {action action' : Codegen α} {next next' : α → Codegen β} (silent : Holds [] action action')
    (holds : ∀ value, Gives action value → Holds visits (next value) (next' value))
    : Holds visits (action >>= next) (action' >>= next') := by
  simpa using logic.bind silent holds

/-- What follows an action and visits nothing adds nothing to the visits of the action. -/
theorem bind_silent (logic : TreeLogic write other Holds) {α β : Type} {visits : List Visit}
    {action action' : Codegen α} {next next' : α → Codegen β}
    (holds : Holds visits action action')
    (silent : ∀ value, Gives action value → Holds [] (next value) (next' value))
    : Holds visits (action >>= next) (action' >>= next') := by
  simpa using logic.bind holds silent

theorem bind_pure (logic : TreeLogic write other Holds) {α β : Type} {visits : List Visit}
    {action action' : Codegen α} (result : α → β) (holds : Holds visits action action')
    : Holds visits (action >>= fun value => Pure.pure (result value))
        (action' >>= fun value => Pure.pure (result value)) :=
  logic.bind_silent holds (fun value _ => logic.pure (result value))

/-- The property holds of the texts of all expressions and call operands, by induction over the
trees as code generation goes through them.
-/
theorem trees (logic : TreeLogic write other Holds)
    : (∀ tree : Expr, Holds tree.visits (expr write tree) (expr other tree))
      ∧ (∀ operands, Holds (Operand.visitsOfAll operands) (operandTexts write operands)
          (operandTexts other operands))
      ∧ (∀ operand : Operand, Holds operand.visits (operandText write operand)
          (operandText other operand))
      ∧ ∀ parts, Holds (Expr.visitsOfAll parts) (exprs write parts) (exprs other parts) := by
  refine expr.mutual_induct _ _ _ _ ?str ?int ?float ?nil ?get ?tile ?emptyFormat ?format ?embed
    ?nameAt ?apply ?block ?unknown ?point ?area ?value ?noExprs ?exprs ?noOperands ?operands
  case str | int | float | nil | tile | emptyFormat =>
    intros
    simpa only [expr, Expr.visits, Expr.visitsOfAll] using logic.pure _
  case get =>
    intro name
    simpa only [expr, Expr.visits] using logic.read name
  case format =>
    intro parts nonempty ih
    simpa only [expr, Expr.visits] using logic.bind_pure _ ih
  case embed =>
    intro content ih
    simpa only [expr, Expr.visits] using logic.bind_pure _ ih
  case nameAt =>
    intro x y tail left right
    simpa only [expr, Expr.visits] using
      logic.bind left (fun _ _ => logic.bind_pure _ right)
  case apply =>
    intro builtin operands notPoint ih
    simpa only [expr, Expr.visits] using logic.bind_pure _ ih
  case block =>
    intro index
    simp only [expr, Expr.visits]
    exact logic.bind_silent (logic.indented 2 (logic.block .own index))
      (fun _ _ => logic.bind_pure _ logic.margin)
  case unknown =>
    intro tag
    simpa only [expr, Expr.visits] using logic.bind_pure _ (logic.unknownExpr tag)
  case point =>
    intro x y left right
    simpa only [operandText, Operand.visits] using
      logic.bind left (fun _ _ => logic.bind_pure _ right)
  case area =>
    intro x y width height left top right bottom
    cases height with
    | none =>
        simpa only [operandText, Operand.visits, List.append_assoc] using
          logic.bind left (fun _ _ => logic.bind top (fun _ _ => logic.bind_pure _ right))
    | some height =>
        simpa only [operandText, Operand.visits, List.append_assoc] using
          logic.bind left (fun _ _ => logic.bind top (fun _ _ =>
            logic.bind right (fun _ _ => logic.bind_pure _ bottom)))
  case value =>
    intro content ih
    -- The kind of the operand depends on the tree alone, so each kind is a plain result.
    cases content <;> simpa only [operandText, Operand.visits] using logic.bind_pure _ ih
  case noExprs | noOperands =>
    simpa only [exprs, operandTexts, Expr.visitsOfAll, Operand.visitsOfAll] using logic.pure _
  case exprs | operands =>
    intro first rest head tail
    simpa only [exprs, operandTexts, Expr.visitsOfAll, Operand.visitsOfAll] using
      logic.bind head (fun _ _ => logic.bind_pure _ tail)

theorem expr (logic : TreeLogic write other Holds) (tree : Expr)
    : Holds tree.visits (expr write tree) (expr other tree) :=
  logic.trees.1 tree

theorem operandTexts (logic : TreeLogic write other Holds) (operands : List Operand)
    : Holds (Operand.visitsOfAll operands) (operandTexts write operands)
        (operandTexts other operands) :=
  logic.trees.2.1 operands

theorem operandText (logic : TreeLogic write other Holds) (operand : Operand)
    : Holds operand.visits (operandText write operand) (operandText other operand) :=
  logic.trees.2.2.1 operand

theorem builtinCall (logic : TreeLogic write other Holds) (role : CallRole)
    (operation : String) (operands : List Operand)
    : Holds (Operand.visitsOfAll operands) (Codegen.call write role operation operands)
        (Codegen.call other role operation operands) :=
  logic.bind_pure _ (logic.operandTexts operands)

theorem condition (logic : TreeLogic write other Holds) (test : Condition)
    : Holds test.visits (condition write test) (condition other test) :=
  logic.bind (logic.expr test.left) (fun _ _ => logic.bind_pure _ (logic.expr test.right))

/-- The property holds of the texts of continuations, by induction over their nesting. -/
theorem continuations (logic : TreeLogic write other Holds)
    : (∀ continuation : Branch,
        Holds continuation.visits (branch write continuation) (branch other continuation))
      ∧ ∀ list, Holds (Branch.visitsOfAll list) (branches write list) (branches other list) := by
  refine branch.mutual_induct _ _ ?orElseIf ?orElse ?none ?some
  case orElseIf =>
    intro test body nested ih
    simp only [branch, Branch.visits, List.append_assoc]
    refine logic.silent_bind logic.margin (fun _ _ => ?_)
    refine logic.bind (logic.condition test) (fun _ _ => ?_)
    refine logic.bind (logic.indented 1 (logic.block .shared body)) (fun _ _ => ?_)
    exact logic.bind_pure _ ih
  case orElse =>
    intro body
    simp only [branch, Branch.visits]
    refine logic.silent_bind logic.margin (fun _ _ => ?_)
    exact logic.bind_pure _ (logic.indented 1 (logic.block .shared body))
  case none => simpa only [branches, Branch.visitsOfAll] using logic.pure ""
  case some =>
    intro first rest head tail
    simpa only [branches, Branch.visitsOfAll] using
      logic.bind head (fun _ _ => logic.bind_pure _ tail)

theorem callForm (logic : TreeLogic write other Holds) (object : String) (callee : Callee)
    : Holds callee.visits (callForm write object callee) (callForm other object callee) := by
  cases callee with
  | name event => exact logic.pure _
  | computed event => exact logic.bind_pure _ (logic.expr event)

end TreeLogic

namespace CommandLogic

variable {script : Script} {write other : BlockWriter}
  {Holds : {α : Type} → List Visit → Codegen α → Codegen α → Prop}

/-- The property holds of the text of handing the event on. Folding a tile name changes one
expression without visits into another.
-/
theorem mimic (logic : CommandLogic script write other Holds) (target : Expr)
    : Holds target.visits (mimic write target) (mimic other target) := by
  unfold Codegen.mimic
  refine logic.silent_bind (logic.foldTile target) (fun folded gives => ?_)
  rw [← visits_of_foldTile gives]
  refine logic.bind_silent (logic.expr folded) (fun _ _ => ?_)
  exact logic.silent_bind (logic.indented 1 logic.margin)
    (fun _ _ => logic.bind_pure _ logic.margin)

theorem foldTileOperand (logic : CommandLogic script write other Holds) (operand : Operand)
    : Holds [] (foldTileOperand operand) (foldTileOperand operand) := by
  cases operand with
  | value content => exact logic.bind_pure _ (logic.foldTile content)
  | point x y | area x y width height => exact logic.pure _

/-- The property holds of the text of a command that is neither a call nor a `tell`. -/
theorem plainCommand (logic : CommandLogic script write other Holds) (tags : Annotations)
    {tree : Command} (plain : tree.isPlain)
    : Holds tree.visits (command script write tags tree) (command script other tags tree) := by
  cases tree with
  | blank | done => exact logic.pure _
  | assign assignment target value =>
      exact logic.bind (logic.use target) (fun _ _ => logic.bind_pure _ (logic.expr value))
  | inc name | dec name => exact logic.bind_pure _ (logic.use name)
  | random low high =>
      cases high with
      | none => exact logic.bind_pure _ (logic.expr low)
      | some high =>
          exact logic.bind (logic.expr low) (fun _ _ => logic.bind_pure _ (logic.expr high))
  | choose test body continuations =>
      simp only [Codegen.command, Command.visits, List.append_assoc]
      refine logic.bind (logic.condition test) (fun _ _ => ?_)
      refine logic.bind (logic.indented 1 (logic.block .shared body)) (fun _ _ => ?_)
      exact logic.bind_silent (logic.continuations.2 continuations)
        (fun _ _ => logic.bind_pure _ logic.margin)
  | repeatWhile test body =>
      simp only [Codegen.command, Command.visits]
      refine logic.bind (logic.condition test) (fun _ _ => ?_)
      exact logic.bind_silent (logic.indented 1 (logic.block .shared body))
        (fun _ _ => logic.bind_pure _ logic.margin)
  | emit event => exact logic.bind_pure _ (logic.expr event)
  | mimic target =>
      simp only [Codegen.command, Command.visits, map_eq_pure_bind]
      exact logic.bind_pure _ (logic.mimic target)
  | perform verb operands =>
      simp only [Codegen.command, Command.visits, map_eq_pure_bind]
      exact logic.bind_pure _ (logic.builtinCall .statement verb.word operands)
  | comment index inline => exact logic.comment index inline
  | unknown tag => exact logic.bind_pure _ (logic.unknownCommand tag)
  | call callee | tell target rest => cases plain

end CommandLogic

namespace PairLogic

variable {script : Script} {write other : BlockWriter}
  {Holds : {α : Type} → List Visit → Codegen α → Codegen α → Prop}

theorem tellInPlace (logic : PairLogic script write other Holds) (known : KnownActor)
    (rest : List Operand)
    : Holds (visitsInPlace known.label rest) (tellInPlace write known rest)
        (tellInPlace other known rest) := by
  fun_cases visitsInPlace known.label rest with
  | case1 index tail =>
      simp only [Codegen.tellInPlace]
      refine logic.bind_silent (logic.indented 1 ?_) (fun _ _ => logic.bind_pure _ logic.margin)
      refine logic.silent_bind logic.margin (fun _ _ => logic.bind_pure _ (logic.indented 1 ?_))
      exact logic.dispatching Engine.actorObject (by simp [Visit.inExpr]) (logic.block .own index)
  | case2 notBlock =>
      simp only [Codegen.tellInPlace]
      exact logic.tellWithoutBlock known.label

theorem tellThroughEngine (logic : PairLogic script write other Holds) (target : Operand)
    (rest : List Operand)
    : Holds (Operand.visitsOfAll (target :: rest)) (tellThroughEngine write target rest)
        (tellThroughEngine other target rest) := by
  unfold Codegen.tellThroughEngine
  refine logic.silent_bind (logic.foldTileOperand target) (fun folded gives => ?_)
  have same : Operand.visitsOfAll (target :: rest) = Operand.visitsOfAll (folded :: rest) := by
    simp only [Operand.visitsOfAll, visits_of_foldTileOperand gives]
  rw [same]
  exact logic.dispatching Engine.actorObject (visits_inExpr.2.1 _)
    (logic.builtinCall .statement "tell" (folded :: rest))

theorem tell (logic : PairLogic script write other Holds) (target : Operand) (rest : List Operand)
    : Holds (visitsOfTell target rest) (tell write target rest) (tell other target rest) := by
  fun_cases visitsOfTell target rest with
  | case1 x y =>
      simp only [Codegen.tell, List.append_assoc]
      refine logic.bind (logic.expr x) (fun textX _ => ?_)
      refine logic.bind (logic.expr y) (fun textY _ => ?_)
      exact logic.tellInPlace (.atPoint textX textY) rest
  | case2 name known found =>
      simp only [Codegen.tell, found]
      exact logic.tellInPlace known rest
  | case3 name missing =>
      simp only [Codegen.tell, missing]
      exact logic.tellThroughEngine _ rest
  | case4 notPoint notRead =>
      simp only [Codegen.tell]
      exact logic.tellThroughEngine target rest

/-- The property holds of the text of a command. -/
theorem command (logic : PairLogic script write other Holds) (tags : Annotations)
    (tree : Command)
    : Holds tree.visits (command script write tags tree) (command script other tags tree) := by
  cases tree with
  | call callee =>
      simp only [Codegen.command, Command.visits, map_eq_pure_bind]
      exact logic.bind_pure _ (logic.call tags callee (fun object => logic.callForm object callee))
  | tell target rest =>
      simp only [Codegen.command, Command.visits, map_eq_pure_bind]
      exact logic.bind_pure _ (logic.tell target rest)
  | _ => exact logic.plainCommand tags rfl

/-- The property holds of the lines of a block if positions do not matter to it, by induction over
the commands.
-/
theorem commands (logic : PairLogic script write other Holds)
    (placed : ∀ {visits : List Visit} {action action' : Codegen (Option String)} location,
      Holds visits action action'
      → Holds visits (atLocation location action) (atLocation location action'))
    (block index : Nat) (body : List Command)
    : Holds (body.flatMap Command.visits) (commands script write block index body)
        (commands script other block index body) := by
  induction body generalizing index with
  | nil => exact logic.pure []
  | cons first rest ih =>
      rw [List.flatMap_cons]
      refine logic.bind (placed _ (logic.command _ first)) (fun _ _ => ?_)
      exact logic.silent_bind logic.margin (fun _ _ => logic.bind_pure _ (ih (index + 1)))

end PairLogic

end Codegen

end TileLua
