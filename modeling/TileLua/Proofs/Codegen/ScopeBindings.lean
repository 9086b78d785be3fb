import TileLua.Proofs.Codegen.StackDiscipline

/-! Which local declarations a function gets.
The scope of a block that is a function's body takes in the bodies of its conditions and loops, and
leaves out the functions and the `tell` bodies inside it, which have scopes of their own. A function
declares exactly what the visits in its scope need: the positions of the event that are read, and
the script's own object if an event handler is called on it.
-/

namespace TileLua

-----------------------------------------------------------------------------------------
-- Variables that are read through a local
-----------------------------------------------------------------------------------------

namespace Variable

/-- The variables that a function computes once. -/
def cached : List String :=
  ["event.x", "event.y", "event.px", "event.py", "event.dx", "event.dy", "event.tile"]

/-- The local declaration that reading a variable needs. -/
def binding? (name : String) : Option String :=
  (special? name).bind Special.binding

/-- Only the variables that a function computes once need a declaration. -/
theorem mem_cached_of_binding {name binding : String} (needed : binding? name = some binding)
    : name ∈ cached := by
  obtain ⟨special, found, bound⟩ := Option.bind_eq_some_iff.mp needed
  obtain ⟨before, after, split, -⟩ := List.lookup_eq_some_iff.mp found
  have member : (name, special) ∈ specials := by
    rw [split]
    simp
  have all : ∀ entry ∈ specials, entry.2.binding.isSome → entry.1 ∈ cached := by decide
  exact all _ member (Option.isSome_of_eq_some bound)

theorem binding_of_mem_cached {name : String} (member : name ∈ cached)
    : ∃ binding, binding? name = some binding := by
  have all : ∀ name ∈ cached, (binding? name).isSome := by decide
  exact Option.isSome_iff_exists.mp (all name member)

theorem binding_injective {first second binding : String} (left : binding? first = some binding)
    (right : binding? second = some binding)
    : first = second := by
  have all : ∀ first ∈ cached, ∀ second ∈ cached,
      binding? first = binding? second → first = second := by
    decide +kernel
  exact all first (mem_cached_of_binding left) second (mem_cached_of_binding right)
    (left.trans right.symm)

/-- The declarations of variables are not that of the script's own object. -/
theorem binding_ne_ownBinding {name binding : String} (needed : binding? name = some binding)
    (root : String)
    : binding ≠ Codegen.ownBinding root := by
  intro same
  -- The ninth character tells `local __event` from `local __self`.
  have all : ∀ name ∈ cached, (binding? name).bind (fun text => text.toList[8]?) = some 'e' := by
    decide +kernel
  have left := all name (mem_cached_of_binding needed)
  have right : (Codegen.ownBinding root).toList[8]? = some 's' := by
    simp [Codegen.ownBinding, Engine.ownObject, String.toList_append]
  rw [needed, Option.bind_some, same, right] at left
  cases left

theorem isVerbatim_of_binding {name binding : String} (needed : binding? name = some binding)
    : isVerbatim name = true := by
  have all : ∀ name ∈ cached, isVerbatim name = true := by decide
  exact all name (mem_cached_of_binding needed)

/-- The text of a script variable is no variable that is read through a local. -/
theorem binding_luaText (name : String) : binding? (luaText name) = none := by
  rw [Option.eq_none_iff_forall_ne_some]
  intro binding needed
  have member := mem_cached_of_binding needed
  unfold luaText global at member
  split at member
  · rename_i identifier
    have all : ∀ name ∈ cached, Lua.isIdentifier name = false := by decide
    rw [all _ member] at identifier
    cases identifier
  · have all : ∀ name ∈ cached, name.toList.head? = some 'e' := by decide
    have first := all _ member
    simp [String.toList_append] at first

end Variable

-----------------------------------------------------------------------------------------
-- Scopes, and what their visits need
-----------------------------------------------------------------------------------------

namespace Codegen

/-- A visit lies in the scope that a block opens: it belongs to a command of the block, or it lies
in the scope of a block that shares the function with such a command.
-/
inductive InScope (script : Script) : Nat → Visit → Prop
  | here {index : Nat} {body : Block} {command : Command} {visit : Visit}
    (found : script.blocks[index]? = some body) (member : command ∈ body)
    (visited : visit ∈ command.visits)
    : InScope script index visit
  | inside {index inner : Nat} {body : Block} {command : Command} {visit : Visit}
    (found : script.blocks[index]? = some body) (member : command ∈ body)
    (shared : .block .shared inner ∈ command.visits) (deeper : InScope script inner visit)
    : InScope script index visit

/-- The declaration that a visit by itself needs in a state. -/
def Binds (state : State) : Visit → String → Prop
  | .read name, binding => Variable.binding? name = some binding
  | .call, binding =>
      state.dispatchObject = Engine.ownObject ∧ binding = ownBinding state.root
  | _, _ => False

/-- A declaration that a visit needs, by itself or in the scope of the block that it shares. -/
def Needs (script : Script) (state : State) (visit : Visit) (binding : String) : Prop :=
  Binds state visit binding
  ∨ ∃ index deeper,
      visit = .block .shared index
      ∧ InScope script index deeper
      ∧ Binds state deeper binding

theorem Binds.eq_read {state : State} {visit : Visit} {name binding : String}
    (own : Binds state visit binding) (needed : Variable.binding? name = some binding)
    : visit = .read name := by
  cases visit with
  | read other => rw [Variable.binding_injective own needed]
  | call => exact (Variable.binding_ne_ownBinding needed state.root own.2).elim
  | _ => cases own

theorem Binds.eq_call {state : State} {visit : Visit}
    (own : Binds state visit (ownBinding state.root))
    : visit = .call ∧ state.dispatchObject = Engine.ownObject := by
  cases visit with
  | read name => exact (Variable.binding_ne_ownBinding own state.root rfl).elim
  | call => exact ⟨rfl, own.1⟩
  | _ => cases own

/-- Whatever a visit needs is the script's own object or the position of the event. -/
theorem Binds.own_or_cached {state : State} {visit : Visit} {binding : String}
    (own : Binds state visit binding)
    : binding = ownBinding state.root
      ∨ ∃ name ∈ Variable.cached, Variable.binding? name = some binding := by
  cases visit with
  | read name => exact Or.inr ⟨name, Variable.mem_cached_of_binding own, own⟩
  | call => exact Or.inl own.2
  | _ => cases own

/-- What a visit needs depends on the state through the dispatch object and the root alone. -/
theorem needs_congr {script : Script} {first second : State} {visit : Visit} {binding : String}
    (dispatch : first.dispatchObject = second.dispatchObject) (root : first.root = second.root)
    : Needs script first visit binding ↔ Needs script second visit binding := by
  have same (visit : Visit) : Binds first visit binding ↔ Binds second visit binding := by
    cases visit <;> simp only [Binds, dispatch, root]
  simp only [Needs, same]

theorem needs_inExpr {script : Script} {first second : State} {visit : Visit} {binding : String}
    (inner : visit.inExpr)
    : Needs script first visit binding ↔ Needs script second visit binding := by
  cases visit with
  | block scope index => cases scope <;> simp_all [Needs, Binds, Visit.inExpr]
  | _ => simp_all [Needs, Binds, Visit.inExpr]

theorem needs_shared {script : Script} {state : State} {index : Nat} {body : Block}
    {binding : String} (found : script.blocks[index]? = some body)
    : (∃ visit ∈ body.flatMap Command.visits, Needs script state visit binding)
      ↔ Needs script state (.block .shared index) binding := by
  constructor
  · rintro ⟨visit, member, needed⟩
    obtain ⟨command, inBody, visited⟩ := List.mem_flatMap.mp member
    rcases needed with own | ⟨inner, deeper, rfl, below, own⟩
    · exact Or.inr ⟨index, visit, rfl, .here found inBody visited, own⟩
    · exact Or.inr ⟨index, deeper, rfl, .inside found inBody visited below, own⟩
  · rintro (none | ⟨_, visit, ⟨⟩, below, own⟩)
    · cases none
    · cases below with
      | here foundAgain inBody visited =>
          cases found.symm.trans foundAgain
          exact ⟨visit, List.mem_flatMap.mpr ⟨_, inBody, visited⟩, Or.inl own⟩
      | inside foundAgain inBody shared deeper =>
          cases found.symm.trans foundAgain
          exact ⟨_, List.mem_flatMap.mpr ⟨_, inBody, shared⟩, Or.inr ⟨_, visit, rfl, deeper, own⟩⟩

-----------------------------------------------------------------------------------------
-- Actions that declare what their visits need
-----------------------------------------------------------------------------------------

/-- The declarations of the innermost open function. -/
def State.innermost (state : State) : Std.TreeSet String :=
  state.frames.headD {}

/-- An action that succeeds inside a function adds exactly the declarations that its visits need. -/
structure Declares {α : Type} (script : Script) (visits : List Visit) (action : Codegen α)
    : Prop where
  grown : Keeps State.Grown action
  declared
    : ∀ {before after : State} {value : α},
        action before = .ok value after
        → before.frames ≠ []
        → ∀ binding,
            binding ∈ after.innermost
            ↔ binding ∈ before.innermost ∨ ∃ visit ∈ visits, Needs script before visit binding

/-- An action that leaves the open functions alone declares what silent visits need. -/
theorem Declares.of_quiet {α : Type} {script : Script} {visits : List Visit} {action : Codegen α}
    (quiet : Keeps State.Quiet action)
    (silent : ∀ visit ∈ visits, ∀ state binding, ¬ Needs script state visit binding)
    : Declares script visits action where
  grown := quiet.grown
  declared := by
    intro before after value run _ binding
    simp only [State.innermost, (quiet.of_ok run).sameFrames]
    constructor
    · exact Or.inl
    · rintro (earlier | ⟨visit, member, needed⟩)
      · exact earlier
      · exact (silent visit member before binding needed).elim

theorem FramesGrow.ne_nil {before after : List (Std.TreeSet String)}
    (grow : FramesGrow before after) (nonempty : before ≠ [])
    : after ≠ [] := by
  cases before with
  | nil => exact (nonempty rfl).elim
  | cons frame outer =>
      obtain ⟨grown, rfl, -⟩ := grow
      simp

/-- A sequence declares what either part needs; the needs of the second part are the same before
and after the first, which changes neither the dispatch object nor the root.
-/
theorem Declares.bind {α β : Type} {script : Script} {first rest : List Visit}
    {action : Codegen α} {next : α → Codegen β} (left : Declares script first action)
    (right : ∀ value, Gives action value → Declares script rest (next value))
    : Declares script (first ++ rest) (action >>= next) where
  grown := left.grown.bind_given (fun value gives => (right value gives).grown)
  declared := by
    intro before after value run nonempty binding
    obtain ⟨result, middle, firstRun, restRun⟩ := bind_eq_ok.mp run
    have grown := left.grown.of_ok firstRun
    have dispatch : middle.dispatchObject = before.dispatchObject := by
      simp only [State.dispatchObject, grown.dispatch]
    rw [(right result ⟨before, middle, firstRun⟩).declared restRun
      (grown.frames.ne_nil nonempty) binding, left.declared firstRun nonempty binding]
    simp only [needs_congr dispatch grown.root, List.mem_append, or_and_right, exists_or, or_assoc]

/-- Surroundings that put back what they change, and change no frame, keep the declarations. -/
theorem Declares.around {α : Type} {script : Script} {visits : List Visit} {action : Codegen α}
    {enter : State → State} {leave : State → State → State}
    (inner : Declares script visits action) (grown : Keeps State.Grown (around enter leave action))
    (entered : ∀ state, (enter state).frames = state.frames)
    (left : ∀ before state, (leave before state).frames = state.frames)
    (same : ∀ state, ∀ visit ∈ visits, ∀ binding,
      Needs script (enter state) visit binding ↔ Needs script state visit binding)
    : Declares script visits (Codegen.around enter leave action) where
  grown := grown
  declared := by
    intro before after value run nonempty binding
    obtain ⟨middle, innerRun, rfl⟩ := around_eq_ok.mp run
    have declared := inner.declared innerRun (by rwa [entered]) binding
    simp only [State.innermost, entered, left] at declared ⊢
    rw [declared]
    refine or_congr_right (exists_congr (fun visit => and_congr_right (fun member => ?_)))
    exact same before visit member binding

theorem mem_innermost_bindLocal {binding other : String} {before after : State}
    (run : bindLocal binding before = .ok () after) (nonempty : before.frames ≠ [])
    : other ∈ after.innermost ↔ other ∈ before.innermost ∨ other = binding := by
  obtain ⟨journal, bound⟩ := bindLocal_apply binding before
  cases run.symm.trans bound
  cases frames : before.frames with
  | nil => exact (nonempty frames).elim
  | cons frame outer =>
      simp only [State.innermost, frames, bindIn, List.headD_cons]
      exact mem_bindIn

/-- Reading a text as a name declares the local of a variable that has the same one. -/
theorem readSpecial_declares (script : Script) {name text : String}
    (same : Variable.binding? text = Variable.binding? name)
    : Declares script [.read name] (readSpecial text) where
  grown := readSpecial_grown text
  declared := by
    intro before after value run nonempty binding
    have needs : (∃ visit ∈ [Visit.read name], Needs script before visit binding)
        ↔ Variable.binding? text = some binding := by
      simp [Needs, Binds, same]
    rw [needs]
    simp only [readSpecial, Variable.binding?] at run ⊢
    cases found : Variable.special? text with
    | none =>
        simp only [found] at run
        obtain ⟨-, rfl⟩ := pure_eq_ok.mp run
        simp
    | some special =>
        simp only [found] at run
        obtain ⟨_, middle, bound, result⟩ := bind_eq_ok.mp run
        obtain ⟨-, rfl⟩ := pure_eq_ok.mp result
        cases needed : special.binding with
        | none =>
            rw [needed] at bound
            obtain ⟨-, rfl⟩ := pure_eq_ok.mp bound
            simp [needed]
        | some declaration =>
            rw [needed] at bound
            rw [mem_innermost_bindLocal bound nonempty]
            simp [needed, eq_comm]

/-- A read declares the local of its variable; the text of a script variable has none. -/
theorem readVariable_declares (script : Script) (name : String)
    : Declares script [.read name] (readVariable name) := by
  have silent : Declares script [] (useVariable name) :=
    .of_quiet (useVariable_quiet name) (by simp)
  refine silent.bind ?_
  rintro text ⟨before, after, run⟩
  apply readSpecial_declares
  unfold useVariable at run
  split at run
  · obtain ⟨rfl, -⟩ := pure_eq_ok.mp run
    rfl
  · rename_i counted
    obtain ⟨_, _, _, result⟩ := bind_eq_ok.mp run
    obtain ⟨rfl, -⟩ := pure_eq_ok.mp result
    rw [Variable.binding_luaText, eq_comm, Option.eq_none_iff_forall_ne_some]
    intro binding needed
    exact counted (Variable.isVerbatim_of_binding needed)

/-- A call declares what its event needs, and the script's own object if it is dispatched on it. -/
theorem callSite_declares (script : Script) (write : BlockWriter) (tags : Annotations)
    (callee : Callee)
    (form : ∀ object, Declares script callee.visits (callForm write object callee))
    : Declares script (callee.visits ++ [.call]) (callSite write tags callee) where
  grown := callSite_grown write tags callee (fun object => (form object).grown)
  declared := by
    intro before after text run nonempty binding
    obtain ⟨found, middle, bound, dispatch, formed, bind, routed, -⟩ := callSite_eq_ok run
    have grown := (form before.dispatchObject).grown.of_ok formed
    have inside := grown.frames.ne_nil nonempty
    have unrouted : after.innermost = bound.innermost := by
      simp only [State.innermost, ((routedDispatch_quiet _ _ _).of_ok routed).sameFrames]
    have own : binding ∈ bound.innermost
        ↔ binding ∈ middle.innermost ∨ Needs script before .call binding := by
      simp only [Needs, Binds, reduceCtorEq, false_and, exists_false, or_false]
      split at bind
      · rename_i same
        rw [mem_innermost_bindLocal bind inside, grown.root]
        simp only [same, true_and]
      · rename_i other
        obtain ⟨-, rfl⟩ := pure_eq_ok.mp bind
        simp only [other, false_and, or_false]
    rw [unrouted, own, (form before.dispatchObject).declared formed nonempty binding]
    simp only [List.mem_append, List.mem_singleton, or_and_right, exists_or, exists_eq_left,
      or_assoc]

/-- Code generation declares what its visits need as long as the blocks written inside do. -/
theorem declaresLogic (script : Script) (write : BlockWriter)
    (blocks : ∀ scope index, Declares script [.block scope index] (write scope index))
    : VisitLogic script write (fun visits action => Declares script visits action) where
  pure := fun value => .of_quiet (.pure value) (by simp)
  bind := Declares.bind
  margin := .of_quiet margin_quiet (by simp)
  indented := fun steps inner =>
    inner.around (indented_grown steps inner.grown) (fun _ => rfl) (fun _ _ => rfl)
      (fun _ _ _ _ => needs_congr rfl rfl)
  dispatching := fun object inExpr inner =>
    inner.around (dispatchingOn_grown object inner.grown) (fun _ => rfl) (fun _ _ => rfl)
      (fun _ visit member _ => needs_inExpr (inExpr visit member))
  foldTile := fun tree => .of_quiet (foldTile_quiet tree) (by simp)
  read := readVariable_declares script
  use := fun name => .of_quiet (useVariable_quiet name) (by simp [Needs, Binds])
  unknownExpr := fun tag => .of_quiet (meet_quiet _) (by simp [Needs, Binds])
  unknownCommand := fun tag => .of_quiet (meet_quiet _) (by simp [Needs, Binds])
  comment := fun index inline =>
    .of_quiet (comment_quiet script index inline) (by simp [Needs, Binds])
  tellWithoutBlock := fun label => .of_quiet (.throw _) (by simp [Needs, Binds])
  block := blocks
  call := callSite_declares script write

theorem commands_declares (script : Script) (write : BlockWriter) (block index : Nat)
    (body : List Command)
    (blocks : ∀ scope index, Declares script [.block scope index] (write scope index))
    : Declares script (body.flatMap Command.visits) (commands script write block index body) := by
  have logic := declaresLogic script write blocks
  refine logic.commands (fun {_ _ _} location (inner : Declares _ _ _) => ?_) block index body
  exact inner.around (atLocation_grown location inner.grown) (fun _ => rfl) (fun _ _ => rfl)
    (fun _ _ _ _ => needs_congr rfl rfl)

theorem blockText_shared_eq_ok {script : Script} {write : BlockWriter} {index : Nat}
    {before after : State} {text : String}
    (run : blockText script write .shared index before = .ok text after)
    : ∃ body lines,
        script.blocks[index]? = some body
        ∧ commands script write index 0 body before = .ok lines after
        ∧ text = String.join lines := by
  obtain ⟨body, _, lookup, run⟩ := bind_eq_ok.mp run
  obtain ⟨found, rfl⟩ := ofExcept_eq_ok.mp lookup
  rw [map_eq_pure_bind] at run
  obtain ⟨lines, _, linesRun, result⟩ := bind_eq_ok.mp run
  obtain ⟨rfl, rfl⟩ := pure_eq_ok.mp result
  exact ⟨body, lines, scriptBlock_eq_ok.mp found, linesRun, rfl⟩

/-- A block that shares its function declares what the visits of its commands need; a function's
body leaves the function around it alone.
-/
theorem blockText_declares (script : Script) (write : BlockWriter) (scope : Scope) (index : Nat)
    (blocks : ∀ scope index, Declares script [.block scope index] (write scope index))
    : Declares script [.block scope index] (blockText script write scope index) := by
  have written (scope : Scope) (index : Nat) := (blocks scope index).grown
  have grown := blockText_grown script write scope index written
  cases scope with
  | own =>
      have restored := blockText_restored script write index written
      exact .of_quiet (fun before => ⟨grown before, (restored before).frames⟩)
        (by simp [Needs, Binds])
  | shared =>
      refine ⟨grown, ?_⟩
      intro before after text run nonempty binding
      obtain ⟨body, lines, found, linesRun, -⟩ := blockText_shared_eq_ok run
      have declared := (commands_declares script write index 0 body blocks).declared linesRun
        nonempty binding
      rw [declared, needs_shared found]
      simp only [List.mem_singleton, exists_eq_left]

/-- Blocks declare what they need however deep they are nested, by induction on the depth. -/
theorem blockWithin_declares (script : Script) (depth : Nat) (scope : Scope) (index : Nat)
    : Declares script [.block scope index] (blockWithin script depth scope index) := by
  induction depth generalizing scope index with
  | zero =>
      refine ⟨.throw _, ?_⟩
      intro before after text run
      cases run
  | succ depth ih => exact blockText_declares script (blockWithin script depth) scope index ih

-----------------------------------------------------------------------------------------
-- The text of a function's body
-----------------------------------------------------------------------------------------

/-- A function's body is the declarations that its commands leave behind in a fresh frame, followed
by the text of the commands.
-/
theorem blockWithin_own_text {script : Script} {depth index : Nat} {before after : State}
    {text : String} (run : blockWithin script depth .own index before = .ok text after)
    : ∃ body inner,
        blockWithin script depth .shared index { before with frames := {} :: before.frames }
          = .ok body inner
        ∧ text = linesAt before.indent inner.innermost.toList ++ body := by
  cases depth with
  | zero => cases run
  | succ depth =>
      obtain ⟨body, middle, lookup, run⟩ := bind_eq_ok.mp run
      obtain ⟨⟨lines, bindings⟩, closed, function, run⟩ := bind_eq_ok.mp run
      obtain ⟨found, rfl⟩ := ofExcept_eq_ok.mp lookup
      obtain ⟨inner, linesRun, rfl, rfl⟩ := inFunction_eq_ok.mp function
      obtain ⟨margin, _, ⟨⟩, result⟩ := bind_eq_ok.mp run
      obtain ⟨rfl, -⟩ := pure_eq_ok.mp result
      have grown := (commands_grown script _ index 0 body (blockWithin_grown script depth)).of_ok
        linesRun
      refine ⟨String.join lines, inner, ?_, ?_⟩
      · refine bind_eq_ok.mpr ⟨body, _, ofExcept_eq_ok.mpr ⟨found, rfl⟩, ?_⟩
        rw [map_eq_pure_bind]
        exact bind_eq_ok.mpr ⟨lines, inner, linesRun, rfl⟩
      · simp only [linesAt, marginOf, State.innermost, grown.indent]

theorem toList_sorted (bindings : Std.TreeSet String) : bindings.toList.Pairwise (· < ·) := by
  refine Std.TreeSet.ordered_toList.imp ?_
  intro first second less
  exact compareOfLessAndEq_eq_lt.mp less

/-- In a fresh frame, a block that shares its function leaves the declarations that the visits in
its scope need.
-/
theorem mem_innermost_iff_inScope {script : Script} {depth index : Nat} {before inner : State}
    {body binding : String}
    (run
      : blockWithin script depth .shared index { before with frames := {} :: before.frames }
        = .ok body inner)
    : binding ∈ inner.innermost
      ↔ ∃ visit, InScope script index visit ∧ Binds before visit binding := by
  have declared := (blockWithin_declares script depth .shared index).declared run (by simp) binding
  rw [declared]
  simp only [State.innermost, List.headD_cons, Std.TreeSet.not_mem_emptyc, false_or,
    List.mem_singleton, exists_eq_left]
  refine Iff.trans (needs_congr (show _ = before.dispatchObject from rfl)
    (show _ = before.root from rfl)) ?_
  constructor
  · rintro (none | ⟨_, visit, ⟨⟩, below, own⟩)
    · cases none
    · exact ⟨visit, below, own⟩
  · rintro ⟨visit, below, own⟩
    exact Or.inr ⟨index, visit, rfl, below, own⟩

/-- A function declares exactly what its scope needs, in order, ahead of the text of its commands:
each position of the event that is read, and the script's own object if an event handler is called
on it. Functions and `tell` bodies inside it are written by the same function at a smaller depth.
-/
theorem function_declares_what_its_scope_needs (script : Script) (depth index : Nat)
    (before after : State) (text : String)
    (run : blockWithin script depth .own index before = .ok text after)
    : ∃ (bindings : List String) (body : String) (inner : State),
        blockWithin script depth .shared index { before with frames := {} :: before.frames }
          = .ok body inner
        ∧ text = linesAt before.indent bindings ++ body
        ∧ bindings.Pairwise (· < ·)
        ∧ (∀ name ∈ Variable.cached,
            ∃ binding,
              Variable.binding? name = some binding
              ∧ (binding ∈ bindings ↔ InScope script index (.read name)))
        ∧ (ownBinding before.root ∈ bindings
            ↔ before.dispatchObject = Engine.ownObject ∧ InScope script index .call)
        ∧ ∀ binding ∈ bindings,
            binding = ownBinding before.root
            ∨ ∃ name ∈ Variable.cached, Variable.binding? name = some binding := by
  obtain ⟨body, inner, bodyRun, rfl⟩ := blockWithin_own_text run
  have declared (binding : String)
      : binding ∈ inner.innermost.toList
        ↔ ∃ visit, InScope script index visit ∧ Binds before visit binding := by
    rw [Std.TreeSet.mem_toList, mem_innermost_iff_inScope bodyRun]
  refine ⟨inner.innermost.toList, body, inner, bodyRun, rfl, toList_sorted _, ?_, ?_, ?_⟩
  · intro name member
    obtain ⟨binding, needed⟩ := Variable.binding_of_mem_cached member
    refine ⟨binding, needed, ?_⟩
    rw [declared]
    constructor
    · rintro ⟨visit, below, own⟩
      rwa [own.eq_read needed] at below
    · intro below
      exact ⟨.read name, below, needed⟩
  · rw [declared]
    constructor
    · rintro ⟨visit, below, own⟩
      obtain ⟨rfl, same⟩ := own.eq_call
      exact ⟨same, below⟩
    · rintro ⟨same, below⟩
      exact ⟨.call, below, same, rfl⟩
  · intro binding member
    obtain ⟨visit, -, own⟩ := (declared binding).mp member
    exact own.own_or_cached

/-- A script that reads a position in a condition's body and another one in a subroutine. -/
def nestedReads : Script where
  name := "player"
  blocks :=
    [[.assign .set "a" (.get "event.y"), .choose ⟨.equal, .get "x", .int 1⟩ 1 [],
        .call (.name "hit"), .assign .set "f" (.block 2)],
      [.assign .set "b" (.get "event.x")],
      [.emit (.get "event.dx")]]

/-- The read in the condition's body and the call declare their locals in the function around. -/
theorem function_declares_nested_reads
    : ∃ text after bindings body,
        block nestedReads .own 0 { root := "__script[1]" } = .ok text after
        ∧ text = linesAt 1 bindings ++ body
        ∧ "local __event_x = __actor.x or __pulp.player.x" ∈ bindings
        ∧ "local __self = __script[1] --[this script]" ∈ bindings := by
  obtain ⟨text, after, run⟩ : ∃ text after,
      block nestedReads .own 0 { root := "__script[1]" } = .ok text after :=
    exists_ok_of_succeeds (by decide +kernel)
  obtain ⟨bindings, body, inner, -, shape, -, reads, calls, -⟩ :=
    function_declares_what_its_scope_needs nestedReads _ 0 _ after text run
  refine ⟨text, after, bindings, body, run, shape, ?_, ?_⟩
  · obtain ⟨binding, needed, declared⟩ := reads "event.x" (by decide)
    cases needed
    have below : InScope nestedReads 1 (.read "event.x") := .here rfl List.mem_cons_self (by decide)
    exact declared.mpr (.inside rfl (List.mem_cons_of_mem _ List.mem_cons_self) (by decide) below)
  · have call : InScope nestedReads 0 .call :=
      .here rfl (List.mem_cons_of_mem _ (List.mem_cons_of_mem _ List.mem_cons_self)) (by decide)
    exact calls.mpr ⟨rfl, call⟩

end Codegen

end TileLua
