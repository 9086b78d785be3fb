import Mathlib.Logic.Relation
import TileLua.Proofs.Codegen.Sequential
import TileLua.Proofs.Codegen.Visit

/-! When the text of a block cannot be made.
Blocks refer to each other by index. If no block refers back to itself, writing a block ends, and
it fails exactly if a reference on the way is to a block that is missing, or a `tell` in place on
the way is not followed by a block. Nothing else that a script can hold stops code generation.
-/

namespace TileLua

-----------------------------------------------------------------------------------------
-- References between blocks, and what violates them
-----------------------------------------------------------------------------------------

/-- How a `tell` to a target is called if it is compiled in place: the target is a position in the
room, or one of the variables that always name an actor.
-/
def Operand.inPlaceLabel? : Operand → Option String
  | .point _ _ => some "x,y"
  | .value (.get name) =>
      [("event.room", "event.room"), ("event.game", "event.game"),
        ("event.player", "__pulp.player")].lookup name
  | _ => none

/-- Whether operands begin with a block. -/
def beginsWithBlock : List Operand → Bool
  | .value (.block _) :: _ => true
  | _ => false

namespace Codegen

/-- A block refers to another one from a place that code generation visits. -/
def Refers (source : Script) (outer inner : Nat) : Prop :=
  ∃ body, source.blocks[outer]? = some body
    ∧ ∃ command ∈ body, ∃ scope, .block scope inner ∈ command.visits

/-- No block is nested in itself, directly or through other blocks. -/
def Acyclic (source : Script) : Prop :=
  ∀ index, ¬ Relation.TransGen (Refers source) index index

theorem acyclic_of_later {source : Script}
    (later : ∀ {outer inner}, Refers source outer inner → outer < inner)
    : Acyclic source := by
  have increases {outer inner : Nat} (path : Relation.TransGen (Refers source) outer inner)
      : outer < inner := by
    induction path with
    | single refers => exact later refers
    | tail _ refers ih => exact Nat.lt_trans ih (later refers)
  exact fun index path => Nat.lt_irrefl index (increases path)

/-- A defect that code generation can come across from a block: the block is missing, a `tell` in
place stands in it without a block of its own, or a block that it refers to has the defect.
-/
inductive Violates (source : Script) : Nat → Defect → Prop
  | missing {index : Nat} (absent : source.blocks[index]? = none)
    : Violates source index (.missingBlock source.name index source.blocks.length)
  | tell {index : Nat} {body : Block} {target : Operand} {rest : List Operand} {label : String}
    (found : source.blocks[index]? = some body) (member : .tell target rest ∈ body)
    (inPlace : target.inPlaceLabel? = some label) (bare : beginsWithBlock rest = false)
    : Violates source index (.tellWithoutBlock label)
  | inside {index inner : Nat} {defect : Defect} (refers : Refers source index inner)
    (deeper : Violates source inner defect)
    : Violates source index defect

-----------------------------------------------------------------------------------------
-- The trail of blocks that leads to a block
-----------------------------------------------------------------------------------------

/-- Blocks that lie on the way to a block: they are in the table, each leads to the block, and none
occurs twice.
-/
structure Trail (source : Script) (trail : List Nat) (index : Nat) : Prop where
  unique : trail.Nodup
  present : ∀ earlier ∈ trail, earlier < source.blocks.length
  leads : ∀ earlier ∈ trail, Relation.TransGen (Refers source) earlier index

theorem Trail.start (source : Script) (index : Nat) : Trail source [] index :=
  ⟨List.nodup_nil, by simp, by simp⟩

theorem Trail.length_le {source : Script} {trail : List Nat} {index : Nat}
    (path : Trail source trail index)
    : trail.length ≤ source.blocks.length := by
  have included : trail ⊆ List.range source.blocks.length := by
    intro earlier member
    exact List.mem_range.mpr (path.present earlier member)
  simpa only [List.length_range] using path.unique.length_le_of_subset included

/-- A reference extends the trail by the block that refers. It is not on the trail yet, or it would
lead back to itself.
-/
theorem Trail.extend {source : Script} {trail : List Nat} {index inner : Nat}
    (acyclic : Acyclic source) (path : Trail source trail index)
    (refers : Refers source index inner)
    : Trail source (index :: trail) inner := by
  have fresh : index ∉ trail := fun member => acyclic index (path.leads index member)
  obtain ⟨body, found, -⟩ := id refers
  refine ⟨List.nodup_cons.mpr ⟨fresh, path.unique⟩, ?_, ?_⟩
  · intro earlier member
    rcases List.mem_cons.mp member with rfl | onTrail
    · exact (List.getElem?_eq_some_iff.mp found).1
    · exact path.present earlier onTrail
  · intro earlier member
    rcases List.mem_cons.mp member with rfl | onTrail
    · exact .single refers
    · exact (path.leads earlier onTrail).tail refers

/-- A depth that exceeds the table by more than the trail is short of it is never used up. -/
theorem Trail.depth_ne_zero {source : Script} {trail : List Nat} {index depth : Nat}
    (path : Trail source trail index) (enough : source.blocks.length < depth + trail.length)
    : depth ≠ 0 := by
  have bound := path.length_le
  omega

-----------------------------------------------------------------------------------------
-- The depth does not matter
-----------------------------------------------------------------------------------------

theorem bind_congr_of_gives {α β : Type} {action : Codegen α} {next next' : α → Codegen β}
    (same : ∀ value, Gives action value → next value = next' value)
    : action >>= next = action >>= next' := by
  funext before
  simp only [bind, EStateM.bind]
  cases run : action before with
  | ok value middle => simp only [same value ⟨before, middle, run⟩]
  | error defect after => rfl

/-- Two ways to write blocks that agree on the blocks visited give the same action. -/
theorem congrLogic (source : Script) (write other : BlockWriter)
    : PairLogic source write other (fun visits action action' =>
        (∀ scope index, .block scope index ∈ visits → write scope index = other scope index)
        → action = action') where
  pure := fun _ _ => rfl
  bind := by
    intro α β first rest action action' next next' left right agree
    have same := left (fun scope index member => agree scope index (List.mem_append_left _ member))
    subst same
    refine bind_congr_of_gives (fun value gives => right value gives ?_)
    exact fun scope index member => agree scope index (List.mem_append_right _ member)
  margin := fun _ => rfl
  indented := fun steps inner agree => by rw [inner agree]
  read := fun _ _ => rfl
  unknownExpr := fun _ _ => rfl
  block := fun scope index agree => agree scope index (by simp)
  foldTile := fun _ _ => rfl
  use := fun _ _ => rfl
  unknownCommand := fun _ _ => rfl
  comment := fun _ _ _ => rfl
  dispatching := fun object _ inner agree => by rw [inner agree]
  tellWithoutBlock := fun _ _ => rfl
  call := by
    intro tags callee form agree
    have same (object : String) : callForm write object callee = callForm other object callee :=
      form object (fun scope index member => agree scope index (List.mem_append_left _ member))
    simp only [callSite, same]

theorem commands_congr {source : Script} {write other : BlockWriter} {block : Nat}
    {body : List Command}
    (agree : ∀ command ∈ body, ∀ scope index,
      .block scope index ∈ command.visits → write scope index = other scope index)
    (index : Nat)
    : commands source write block index body = commands source other block index body := by
  refine (congrLogic source write other).commands (fun _ same agree => ?_) block index body ?_
  · rw [same agree]
  · intro scope inner visited
    obtain ⟨command, member, visited⟩ := List.mem_flatMap.mp visited
    exact agree command member scope inner visited

theorem blockText_congr {source : Script} {write other : BlockWriter} {index : Nat}
    (agree : ∀ scope inner, Refers source index inner → write scope inner = other scope inner)
    (scope : Scope)
    : blockText source write scope index = blockText source other scope index := by
  unfold blockText
  refine bind_congr_of_gives (fun body gives => ?_)
  obtain ⟨before, after, lookup⟩ := gives
  have found := scriptBlock_eq_ok.mp (ofExcept_eq_ok.mp lookup).1
  have lines : commands source write index 0 body = commands source other index 0 body :=
    commands_congr (fun command member scope inner visited =>
      agree scope inner ⟨body, found, command, member, scope, visited⟩) 0
  rw [lines]

/-- All depths that are not used up give the same text, by induction on depth along the trail. -/
theorem blockWithin_eq_of_trail {source : Script} (acyclic : Acyclic source)
    {depth other : Nat} {trail : List Nat} {index : Nat} (path : Trail source trail index)
    (enough : source.blocks.length < depth + trail.length)
    (enough' : source.blocks.length < other + trail.length) (scope : Scope)
    : blockWithin source depth scope index = blockWithin source other scope index := by
  induction depth generalizing other trail index scope with
  | zero => exact (path.depth_ne_zero enough rfl).elim
  | succ depth ih =>
      cases other with
      | zero => exact (path.depth_ne_zero enough' rfl).elim
      | succ other =>
          refine blockText_congr (fun scope inner refers => ?_) scope
          refine ih (path.extend acyclic refers) ?_ ?_ scope
          · simp only [List.length_cons]
            omega
          · simp only [List.length_cons]
            omega

-----------------------------------------------------------------------------------------
-- Steps that cannot fail
-----------------------------------------------------------------------------------------

/-- An action that gives a result from every state. -/
def NeverFails {α : Type} (action : Codegen α) : Prop :=
  ∀ before defect after, action before ≠ .error defect after

namespace NeverFails

variable {α β : Type}

theorem pure (value : α) : NeverFails (Pure.pure value : Codegen α) := by
  intro before defect after run
  cases run

theorem get : NeverFails (MonadState.get : Codegen State) := by
  intro before defect after run
  cases run

theorem update (change : State → State) : NeverFails (modify change : Codegen PUnit) := by
  intro before defect after run
  cases run

theorem bind {action : Codegen α} {next : α → Codegen β} (first : NeverFails action)
    (rest : ∀ value, NeverFails (next value))
    : NeverFails (action >>= next) := by
  intro before defect after run
  rcases bind_eq_error run with failed | ⟨value, middle, -, failed⟩
  · exact first before defect after failed
  · exact rest value middle defect after failed

theorem sequential : Sequential (fun action => NeverFails action) where
  pure := pure
  bind := bind

end NeverFails

theorem note_neverFails (notice : Notice) : NeverFails (note notice) :=
  .update _

theorem margin_neverFails : NeverFails margin :=
  .bind .get (fun _ => .pure _)

/-- Problems are recorded and do not stop the run. -/
theorem meet_neverFails (problem : Problem) : NeverFails (meet problem) :=
  .bind (note_neverFails _) (fun _ => .update _)

theorem foldTile_neverFails (tree : Expr) : NeverFails (foldTile tree) := by
  intro before defect after run
  rw [foldTile_apply] at run
  cases named : before.tiles.named? tree <;> simp [named] at run

theorem bindLocal_neverFails (binding : String) : NeverFails (bindLocal binding) := by
  intro before defect after run
  obtain ⟨journal, bound⟩ := bindLocal_apply binding before
  cases run.symm.trans bound

theorem useVariable_neverFails (name : String) : NeverFails (useVariable name) := by
  unfold useVariable
  split
  · exact .pure name
  · exact .bind (.update _) (fun _ => .pure _)

theorem readVariable_neverFails (name : String) : NeverFails (readVariable name) :=
  .bind (useVariable_neverFails name) (NeverFails.sequential.readSpecial bindLocal_neverFails)

/-- A comment never fails, whether it is missing or holds a malformed setting. -/
theorem comment_neverFails (source : Script) (index : Nat) (inline : Bool)
    : NeverFails (comment source index inline) := by
  refine NeverFails.sequential.comment ?_ source index inline
  exact NeverFails.sequential.applySetting note_neverFails meet_neverFails (fun _ => .update _)

theorem route_neverFails (target : Route) : NeverFails (route target) := by
  intro before defect after run
  rw [route_apply] at run
  split at run <;> cases run

-----------------------------------------------------------------------------------------
-- Which defects an action can end in
-----------------------------------------------------------------------------------------

/-- The defects that a visit leads to, given those that blocks lead to. -/
def Spoils (blocks : Nat → Defect → Prop) : Visit → Defect → Prop
  | .tellWithoutBlock label, defect => defect = .tellWithoutBlock label
  | .block _ index, defect => blocks index defect
  | _, _ => False

/-- The defects that writing a block leads to if blocks may be nested to a depth below the given
one.
-/
def Defective (source : Script) : (depth : Nat) → Nat → Defect → Prop
  | 0, index, defect => defect = .endlessBlock source.name index
  | depth + 1, index, defect =>
      match source.blocks[index]? with
      | none => defect = .missingBlock source.name index source.blocks.length
      | some body => ∃ visit ∈ body.flatMap Command.visits,
          Spoils (Defective source depth) visit defect

/-- An action fails with a defect that a visit leads to, and succeeds only if no visit leads to
one.
-/
structure FailsBy {α : Type} (blocks : Nat → Defect → Prop) (visits : List Visit)
    (action : Codegen α) : Prop where
  fails
    : ∀ {before after : State} {defect : Defect},
        action before = .error defect after → ∃ visit ∈ visits, Spoils blocks visit defect
  succeeds
    : ∀ {before after : State} {value : α},
        action before = .ok value after → ∀ visit ∈ visits, ∀ defect, ¬ Spoils blocks visit defect

theorem FailsBy.of_neverFails {α : Type} {blocks : Nat → Defect → Prop} {visits : List Visit}
    {action : Codegen α} (total : NeverFails action)
    (harmless : ∀ visit ∈ visits, ∀ defect, ¬ Spoils blocks visit defect)
    : FailsBy blocks visits action where
  fails := fun run => (total _ _ _ run).elim
  succeeds := fun _ => harmless

theorem FailsBy.bind {α β : Type} {blocks : Nat → Defect → Prop} {first rest : List Visit}
    {action : Codegen α} {next : α → Codegen β} (left : FailsBy blocks first action)
    (right : ∀ value, Gives action value → FailsBy blocks rest (next value))
    : FailsBy blocks (first ++ rest) (action >>= next) where
  fails := by
    intro before after defect run
    rcases bind_eq_error run with failed | ⟨value, middle, done, failed⟩
    · obtain ⟨visit, member, spoils⟩ := left.fails failed
      exact ⟨visit, List.mem_append_left _ member, spoils⟩
    · obtain ⟨visit, member, spoils⟩ := (right value ⟨before, middle, done⟩).fails failed
      exact ⟨visit, List.mem_append_right _ member, spoils⟩
  succeeds := by
    intro before after value run visit member
    obtain ⟨result, middle, done, rest⟩ := bind_eq_ok.mp run
    rcases List.mem_append.mp member with earlier | later
    · exact left.succeeds done visit earlier
    · exact (right result ⟨before, middle, done⟩).succeeds rest visit later

theorem FailsBy.followed {α β : Type} {blocks : Nat → Defect → Prop} {visits : List Visit}
    {action : Codegen α} {next : α → Codegen β} (first : FailsBy blocks visits action)
    (rest : ∀ value, NeverFails (next value))
    : FailsBy blocks visits (action >>= next) := by
  have silent (value : α) : FailsBy blocks [] (next value) :=
    .of_neverFails (rest value) (by simp)
  simpa using first.bind (fun value _ => silent value)

/-- Surroundings do not change whether an action fails. -/
theorem FailsBy.around {α : Type} {blocks : Nat → Defect → Prop} {visits : List Visit}
    {action : Codegen α} (inner : FailsBy blocks visits action) (enter : State → State)
    (leave : State → State → State)
    : FailsBy blocks visits (Codegen.around enter leave action) where
  fails := by
    intro before after defect run
    simp only [Codegen.around] at run
    cases innerRun : action (enter before) with
    | ok value middle =>
        rw [innerRun] at run
        cases run
    | error found middle =>
        rw [innerRun] at run
        cases run
        exact inner.fails innerRun
  succeeds := by
    intro before after value run
    obtain ⟨middle, innerRun, -⟩ := around_eq_ok.mp run
    exact inner.succeeds innerRun

/-- A call fails only through the expression that gives its event. -/
theorem callSite_failsBy {blocks : Nat → Defect → Prop} (write : BlockWriter) (tags : Annotations)
    (callee : Callee)
    (form : ∀ object, FailsBy blocks callee.visits (callForm write object callee))
    : FailsBy blocks (callee.visits ++ [.call]) (callSite write tags callee) := by
  have state : FailsBy blocks [] (MonadState.get : Codegen State) :=
    .of_neverFails .get (by simp)
  refine state.bind (fun state _ => (form _).bind (fun form _ => ?_))
  refine .of_neverFails ?_ (by simp [Spoils])
  exact NeverFails.sequential.callOfForm .get bindLocal_neverFails route_neverFails tags _ form

/-- Code generation fails by its visits as long as the blocks written inside do. -/
theorem failsLogic {blocks : Nat → Defect → Prop} (source : Script) (write : BlockWriter)
    (written : ∀ scope index, FailsBy blocks [.block scope index] (write scope index))
    : VisitLogic source write (fun visits action => FailsBy blocks visits action) where
  pure := fun value => .of_neverFails (.pure value) (by simp)
  bind := FailsBy.bind
  margin := .of_neverFails margin_neverFails (by simp)
  indented := fun _ inner => inner.around _ _
  read := fun name => .of_neverFails (readVariable_neverFails name) (by simp [Spoils])
  unknownExpr := fun _ => .of_neverFails (meet_neverFails _) (by simp [Spoils])
  block := written
  foldTile := fun tree => .of_neverFails (foldTile_neverFails tree) (by simp)
  use := fun name => .of_neverFails (useVariable_neverFails name) (by simp [Spoils])
  unknownCommand := fun _ => .of_neverFails (meet_neverFails _) (by simp [Spoils])
  comment := fun index inline =>
    .of_neverFails (comment_neverFails source index inline) (by simp [Spoils])
  dispatching := fun _ _ inner => inner.around _ _
  tellWithoutBlock := fun label => {
    fails := by
      rintro before after defect ⟨⟩
      exact ⟨_, List.mem_singleton_self _, rfl⟩
    succeeds := nofun
  }
  call := callSite_failsBy write

theorem commands_failsBy {blocks : Nat → Defect → Prop} (source : Script) (write : BlockWriter)
    (block index : Nat) (body : List Command)
    (written : ∀ scope index, FailsBy blocks [.block scope index] (write scope index))
    : FailsBy blocks (body.flatMap Command.visits) (commands source write block index body) :=
  (failsLogic source write written).commands (fun _ inner => inner.around _ _) block index body

/-- A block that is found fails by the visits of its commands, in either scope. -/
theorem blockText_failsBy {blocks : Nat → Defect → Prop} (source : Script) (write : BlockWriter)
    (scope : Scope) {index : Nat} {body : Block} (found : source.blocks[index]? = some body)
    (written : ∀ scope index, FailsBy blocks [.block scope index] (write scope index))
    : FailsBy blocks (body.flatMap Command.visits) (blockText source write scope index) := by
  have lookup : source.block index = .ok body := scriptBlock_eq_ok.mpr found
  have lines := commands_failsBy source write index 0 body written
  unfold blockText
  rw [lookup]
  have silent : FailsBy blocks [] (ofExcept (.ok body : Except Defect Block)) :=
    .of_neverFails (.pure body) (by simp)
  refine silent.bind (fun body' gives => ?_)
  obtain ⟨_, _, run⟩ := gives
  obtain ⟨⟨⟩, -⟩ := ofExcept_eq_ok.mp run
  cases scope with
  | shared =>
      rw [map_eq_pure_bind]
      exact lines.followed (fun _ => .pure _)
  | own =>
      have function : FailsBy blocks _ (inFunction (commands source write index 0 body)) :=
        (lines.followed (fun _ => .bind .get (fun _ => .pure _))).around _ _
      exact function.followed (fun _ => .bind margin_neverFails (fun _ => .pure _))

/-- Blocks fail by their defects however deep they are nested, by induction on the depth. -/
theorem blockWithin_failsBy (source : Script) (depth : Nat) (scope : Scope) (index : Nat)
    : FailsBy (Defective source depth) [.block scope index]
        (blockWithin source depth scope index) := by
  induction depth generalizing scope index with
  | zero =>
      refine ⟨?_, nofun⟩
      rintro before after defect ⟨⟩
      exact ⟨_, List.mem_singleton_self _, rfl⟩
  | succ depth ih =>
      cases found : source.blocks[index]? with
      | none =>
          have lookup : source.block index
              = .error (.missingBlock source.name index source.blocks.length) := by
            simp only [Script.block, found]
          have run (before : State) : blockWithin source (depth + 1) scope index before
              = .error (.missingBlock source.name index source.blocks.length) before := by
            simp only [blockWithin, blockText, lookup]
            rfl
          refine ⟨?_, ?_⟩
          · intro before after defect failed
            cases (run before).symm.trans failed
            refine ⟨_, List.mem_singleton_self _, ?_⟩
            simp only [Spoils, Defective, found]
          · intro before after value done
            cases (run before).symm.trans done
      | some body =>
          have inner := blockText_failsBy source (blockWithin source depth) scope found ih
          refine ⟨fun failed => ⟨_, List.mem_singleton_self _, ?_⟩, ?_⟩
          · simpa only [Spoils, Defective, found] using inner.fails failed
          · intro before after value done visit member defect spoils
            cases List.mem_singleton.mp member
            simp only [Spoils, Defective, found] at spoils
            obtain ⟨visit, visited, spoils⟩ := spoils
            exact inner.succeeds done visit visited defect spoils

-----------------------------------------------------------------------------------------
-- Defects within a depth are violations
-----------------------------------------------------------------------------------------

theorem inPlaceLabel_get (name : String)
    : (Operand.value (.get name)).inPlaceLabel?
      = (KnownActor.ofVariable? name).map KnownActor.label := by
  unfold Operand.inPlaceLabel? KnownActor.ofVariable?
  by_cases player : name = "event.player"
  · subst player
    decide +kernel
  · by_cases room : name = "event.room"
    · subst room
      decide +kernel
    · by_cases game : name = "event.game"
      · subst game
        decide +kernel
      · simp [List.lookup_cons, player, room, game, beq_eq_false_iff_ne.mpr]

/-- What follows a `tell` in place lacks a block exactly if the visits say so. -/
theorem mem_visitsInPlace {label other : String} {rest : List Operand}
    : .tellWithoutBlock label ∈ visitsInPlace other rest
      ↔ other = label ∧ beginsWithBlock rest = false := by
  fun_cases visitsInPlace other rest with
  | case1 index tail => simp [beginsWithBlock]
  | case2 notBlock => simp [beginsWithBlock, eq_comm]

theorem tellWithoutBlock_not_mem_expr {label : String} (tree : Expr)
    : .tellWithoutBlock label ∉ tree.visits :=
  fun member => nomatch visits_inExpr.1 tree _ member

theorem tellWithoutBlock_not_mem_operands {label : String} (operands : List Operand)
    : .tellWithoutBlock label ∉ Operand.visitsOfAll operands :=
  fun member => nomatch visits_inExpr.2.1 operands _ member

theorem tellWithoutBlock_mem_visitsOfTell {target : Operand} {rest : List Operand} {label : String}
    : .tellWithoutBlock label ∈ visitsOfTell target rest
      ↔ target.inPlaceLabel? = some label ∧ beginsWithBlock rest = false := by
  fun_cases visitsOfTell target rest with
  | case1 x y =>
      simp [tellWithoutBlock_not_mem_expr, mem_visitsInPlace, Operand.inPlaceLabel?]
  | case2 name known found =>
      simp [mem_visitsInPlace, inPlaceLabel_get, found]
  | case3 name missing =>
      simp [tellWithoutBlock_not_mem_operands, inPlaceLabel_get, missing]
  | case4 target notPoint notRead =>
      have elsewhere : target.inPlaceLabel? = none := by
        cases target with
        | point x y => exact (notPoint x y rfl).elim
        | area x y width height => rfl
        | value content =>
            cases content with
            | get name => exact (notRead name rfl).elim
            | _ => rfl
      simp [tellWithoutBlock_not_mem_operands, elsewhere]

theorem tellWithoutBlock_not_mem_continuations {label : String}
    : (∀ continuation : Branch, .tellWithoutBlock label ∉ continuation.visits)
      ∧ ∀ list, .tellWithoutBlock label ∉ Branch.visitsOfAll list := by
  apply Branch.visits.mutual_induct
  all_goals
    intros
    simp_all [Branch.visits, Branch.visitsOfAll, Condition.visits, tellWithoutBlock_not_mem_expr]

/-- A `tell` in place without a block is visited exactly as such. -/
theorem tellWithoutBlock_mem_visits {command : Command} {label : String}
    : .tellWithoutBlock label ∈ command.visits
      ↔ ∃ target rest, command = .tell target rest
          ∧ target.inPlaceLabel? = some label
          ∧ beginsWithBlock rest = false := by
  cases command with
  | tell target rest =>
      simp only [Command.visits, tellWithoutBlock_mem_visitsOfTell]
      constructor
      · intro bare
        exact ⟨target, rest, rfl, bare⟩
      · rintro ⟨_, _, ⟨⟩, bare⟩
        exact bare
  | call callee =>
      cases callee <;> simp [Command.visits, Callee.visits, tellWithoutBlock_not_mem_expr]
  | random low high => cases high <;> simp [Command.visits, tellWithoutBlock_not_mem_expr]
  | choose test body continuations =>
      simp [Command.visits, Condition.visits, tellWithoutBlock_not_mem_expr,
        tellWithoutBlock_not_mem_continuations.2]
  | _ =>
      simp [Command.visits, Condition.visits, tellWithoutBlock_not_mem_expr,
        tellWithoutBlock_not_mem_operands]

/-- A block with a defect at a depth that is never used up has it as a violation, by induction on
the depth along the trail.
-/
theorem violates_of_defective {source : Script} (acyclic : Acyclic source) {depth : Nat}
    {trail : List Nat} {index : Nat} {defect : Defect} (path : Trail source trail index)
    (enough : source.blocks.length < depth + trail.length)
    (defective : Defective source depth index defect)
    : Violates source index defect := by
  induction depth generalizing trail index with
  | zero => exact (path.depth_ne_zero enough rfl).elim
  | succ depth ih =>
      unfold Defective at defective
      cases found : source.blocks[index]? with
      | none =>
          simp only [found] at defective
          subst defective
          exact .missing found
      | some body =>
          simp only [found] at defective
          obtain ⟨visit, member, spoils⟩ := defective
          obtain ⟨command, inBody, visited⟩ := List.mem_flatMap.mp member
          cases visit with
          | tellWithoutBlock label =>
              cases spoils
              obtain ⟨target, rest, rfl, inPlace, bare⟩ := tellWithoutBlock_mem_visits.mp visited
              exact .tell found inBody inPlace bare
          | block scope inner =>
              have refers : Refers source index inner :=
                ⟨body, found, command, inBody, scope, visited⟩
              refine .inside refers (ih (path.extend acyclic refers) ?_ spoils)
              simp only [List.length_cons]
              omega
          | _ => cases spoils

/-- A block with a violation has some defect at every depth: the violation itself, one that comes
before it, or the end of the depth.
-/
theorem Violates.defective {source : Script} {index : Nat} {defect : Defect}
    (violates : Violates source index defect) (depth : Nat)
    : ∃ found, Defective source depth index found := by
  induction violates generalizing depth with
  | @missing index absent =>
      cases depth with
      | zero => exact ⟨_, rfl⟩
      | succ depth =>
          refine ⟨.missingBlock source.name index source.blocks.length, ?_⟩
          simp only [Defective, absent]
  | @tell index body target rest label found member inPlace bare =>
      cases depth with
      | zero => exact ⟨_, rfl⟩
      | succ depth =>
          have visited := tellWithoutBlock_mem_visits.mpr ⟨target, rest, rfl, inPlace, bare⟩
          refine ⟨.tellWithoutBlock label, ?_⟩
          simp only [Defective, found]
          exact ⟨_, List.mem_flatMap.mpr ⟨_, member, visited⟩, rfl⟩
  | inside refers deeper ih =>
      cases depth with
      | zero => exact ⟨_, rfl⟩
      | succ depth =>
          obtain ⟨body, found, command, inBody, scope, visited⟩ := refers
          obtain ⟨defect, defective⟩ := ih depth
          refine ⟨defect, ?_⟩
          simp only [Defective, found]
          exact ⟨_, List.mem_flatMap.mpr ⟨command, inBody, visited⟩, defective⟩

/-- If no block is nested in itself, writing a block ends, in the sense that the bound on the depth
is never what decides: every larger depth gives the same action. It fails exactly if it can come
across a missing block or a `tell` in place without a block, and then with the defect of one.
-/
theorem block_fails_iff_violates (source : Script) (acyclic : Acyclic source) (scope : Scope)
    (index : Nat)
    : (∀ depth, source.blocks.length < depth
        → blockWithin source depth scope index = block source scope index)
      ∧ ∀ before,
          ((∃ defect after, block source scope index before = .error defect after)
            ↔ ∃ defect, Violates source index defect)
          ∧ ∀ defect after,
              block source scope index before = .error defect after
              → Violates source index defect := by
  have start := Trail.start source index
  have sound {before after : State} {defect : Defect}
      (failed : block source scope index before = .error defect after)
      : Violates source index defect := by
    obtain ⟨visit, member, spoils⟩ := (blockWithin_failsBy source _ scope index).fails failed
    cases List.mem_singleton.mp member
    exact violates_of_defective acyclic start (by simp) spoils
  refine ⟨?_, fun before => ⟨⟨?_, ?_⟩, fun defect after => sound⟩⟩
  · intro depth enough
    exact blockWithin_eq_of_trail acyclic start (by simpa using enough) (by simp) scope
  · rintro ⟨defect, after, failed⟩
    exact ⟨defect, sound failed⟩
  · rintro ⟨defect, violates⟩
    obtain ⟨found, defective⟩ := violates.defective (source.blocks.length + 1)
    cases run : block source scope index before with
    | ok text after =>
        have clean := (blockWithin_failsBy source _ scope index).succeeds run
        exact (clean _ (List.mem_singleton_self _) found defective).elim
    | error defect after => exact ⟨defect, after, rfl⟩

/-- A script with a `tell` to the room inside a condition, which lacks its block. -/
def bareTell : Script where
  name := "door"
  blocks :=
    [[.unknown "wobble", .choose ⟨.equal, .get "x", .int 1⟩ 1 []],
      [.comment 7 false, .tell (.value (.get "event.room")) [.value (.str "open")]]]

theorem bareTell_acyclic : Acyclic bareTell := by
  have references : ∀ outer < 2, ∀ visit ∈ (bareTell.blocks.getD outer []).flatMap Command.visits,
      ∀ scope ∈ [Scope.shared, Scope.own], ∀ inner ≤ outer, visit ≠ .block scope inner := by
    decide
  have later {outer inner : Nat} (refers : Refers bareTell outer inner) : outer < inner := by
    obtain ⟨body, found, command, member, scope, visited⟩ := refers
    have present : outer < 2 := (List.getElem?_eq_some_iff.mp found).1
    have known : scope ∈ [Scope.shared, Scope.own] := by cases scope <;> decide
    rcases Nat.lt_or_ge outer inner with less | earlier
    · exact less
    · have inBlock : command ∈ bareTell.blocks.getD outer [] := by
        rw [List.getD_eq_getElem?_getD, found]
        exact member
      have visited := List.mem_flatMap.mpr ⟨command, inBlock, visited⟩
      exact (references outer present _ visited scope known inner earlier rfl).elim
  exact acyclic_of_later later

/-- The unknown command and the missing comment do not stop the run; the `tell` does. -/
theorem bareTell_fails
    : Acyclic bareTell
      ∧ ∃ defect after, block bareTell .own 0 {} = .error defect after := by
  refine ⟨bareTell_acyclic, ?_⟩
  have below : Violates bareTell 1 (.tellWithoutBlock "event.room") :=
    .tell rfl (List.mem_cons_of_mem _ List.mem_cons_self) (by decide) rfl
  have refers : Refers bareTell 0 1 :=
    ⟨_, rfl, _, List.mem_cons_of_mem _ List.mem_cons_self, .shared, by decide⟩
  exact ((block_fails_iff_violates bareTell bareTell_acyclic .own 0).2 {}).1.mpr
    ⟨_, .inside refers below⟩

end Codegen

end TileLua
