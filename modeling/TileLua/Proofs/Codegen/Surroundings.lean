import TileLua.Proofs.Codegen.DelegatingHandler
import TileLua.Proofs.Codegen.Fragments
import TileLua.Proofs.Lua.Scoping

/-! The names that are bound around compiled code.
Compiled code stands in the function of a handler, and there in subroutines and in what a `tell`
carries out in place. What these bind is read from their text. Of the names without a reserved lead
only two are ever bound: the event in every function, and the event's name in subroutines.
-/

namespace TileLua.Codegen

open Text (after? after_append)

/-- The names that are bound around a place of compiled code, innermost first. Code that a script
has in Lua already is not compiled, and may bind any names of its own. What a `mimic` binds is
behind everything that is compiled for it.
-/
inductive Surrounds : List String → Prop
  /-- A handler is a function that is assigned to the table of its script. -/
  | handler {source : Script} {owner root : String} {entry : Handler} {before after : State}
    {text : String} {function body : List Char} {names : List String}
    (run : handler source owner root entry before = .ok text after)
    (assigned
      : after? (handlerField (Engine.scriptTable owner) entry.event ++ " = ") text.toList
        = some function)
    (opens : Lua.readFunction function = some (names, body))
    : Surrounds names
  | subroutine {outer names : List String} {write : BlockWriter} {index : Nat}
    {before after : State} {text : String} {body : List Char} (around : Surrounds outer)
    (run : expr write (.block index) before = .ok text after)
    (opens : Lua.readFunction text.toList = some (names, body))
    : Surrounds (names ++ outer)
  /-- A function declares what its visits need. -/
  | declaration {outer : List String} {state : State} {visit : Visit} {binding name : String}
    (around : Surrounds outer) (needed : Binds state visit binding)
    (declares : Lua.declaredLocal? binding.toList = some name)
    : Surrounds (name :: outer)
  | tell {outer : List String} {write : BlockWriter} {known : KnownActor} {operands : List Operand}
    {before after : State} {text name : String} {inside : List Char} (around : Surrounds outer)
    (run : tellInPlace write known operands before = .ok text after)
    (opens : after? ("do --[tell " ++ known.label ++ " to]\n") text.toList = some inside)
    (declares : Lua.declaredLocal? inside = some name)
    : Surrounds (name :: outer)

/-- A handler is a function of the actor, the event and a name for the event that is reserved. -/
theorem handler_opens {source : Script} {owner root : String} {entry : Handler}
    {before after : State} {text : String}
    (run : handler source owner root entry before = .ok text after)
    : ∃ function body,
        after? (handlerField (Engine.scriptTable owner) entry.event ++ " = ") text.toList
          = some function
        ∧ Lua.readFunction function = some (["__actor", "event", "__evname"], body) := by
  obtain ⟨_, _, inner, _, -, -, -, -, rfl, -⟩ := handler_eq_ok run
  have opening : " = function(__actor, event, __evname)\n"
      = " = " ++ ("function(" ++ "__actor, event, __evname" ++ ")" ++ "\n") := by
    decide
  have split : handlerField (Engine.scriptTable owner) entry.event
        ++ " = function(__actor, event, __evname)\n" ++ inner ++ "end\n"
      = handlerField (Engine.scriptTable owner) entry.event ++ " = "
        ++ ("function(" ++ "__actor, event, __evname" ++ ")" ++ ("\n" ++ inner ++ "end\n")) := by
    rewrite [opening]
    simp only [String.append_assoc]
  have names : Lua.parameterNames "__actor, event, __evname".toList
      = ["__actor", "event", "__evname"] := by
    decide
  rw [split, String.toList_append, after_append]
  exact ⟨_, _, rfl, names ▸ Lua.readFunction_eq (by decide) _⟩

/-- A subroutine is a function of the actor, the event and the event's name. -/
theorem subroutine_opens {write : BlockWriter} {index : Nat} {before after : State} {text : String}
    (run : expr write (.block index) before = .ok text after)
    : ∃ body, Lua.readFunction text.toList = some (["__actor", "event", "evname"], body) := by
  rw [expr] at run
  obtain ⟨inner, _, -, run⟩ := bind_eq_ok.mp run
  obtain ⟨margin, _, -, result⟩ := bind_eq_ok.mp run
  obtain ⟨rfl, -⟩ := pure_eq_ok.mp result
  have opening : "function(__actor, event, evname)\n"
      = "function(" ++ "__actor, event, evname" ++ ")" ++ "\n" := by
    decide
  have split : subroutineText margin inner
      = "function(" ++ "__actor, event, evname" ++ ")" ++ ("\n" ++ inner ++ margin ++ "  end") := by
    unfold subroutineText
    rewrite [opening]
    simp only [String.append_assoc]
  have names : Lua.parameterNames "__actor, event, evname".toList
      = ["__actor", "event", "evname"] := by
    decide
  rw [split]
  exact ⟨_, names ▸ Lua.readFunction_eq (by decide) _⟩

/-- The declarations that visits need are of names with a reserved lead. -/
theorem isReserved_of_binds {state : State} {visit : Visit} {binding name : String}
    (needed : Binds state visit binding)
    (declares : Lua.declaredLocal? binding.toList = some name)
    : isReserved name.toList = true := by
  cases visit with
  | read special =>
      have all : ∀ special ∈ Variable.cached, ∀ binding ∈ Variable.binding? special,
          ∀ name ∈ Lua.declaredLocal? binding.toList, isReserved name.toList = true := by
        decide +kernel
      exact all special (Variable.mem_cached_of_binding needed) binding needed name declares
  | call =>
      obtain ⟨-, rfl⟩ := needed
      have statement : ownBinding state.root
          = "" ++ "local " ++ "__self" ++ " = " ++ (state.root ++ " --[this script]") := by
        simp [ownBinding, Engine.ownObject, String.append_assoc]
      rw [statement, Lua.declaredLocal_eq (by simp) (by decide)] at declares
      cases declares
      decide
  | _ => cases needed

theorem blank_of_mem_marginOf {indent : Nat} {c : Char} (member : c ∈ (marginOf indent).toList)
    : c = ' ' := by
  induction indent with
  | zero => simp [marginOf] at member
  | succ indent ih =>
      rw [marginOf, List.replicate_succ, String.join_cons, String.toList_append] at member
      rcases List.mem_append.mp member with first | later
      · simpa using first
      · exact ih later

/-- A `tell` in place opens a block that binds the actor first. -/
theorem tellInPlace_eq_ok {write : BlockWriter} {known : KnownActor} {operands : List Operand}
    {before after : State} {text : String}
    (run : tellInPlace write known operands before = .ok text after)
    : ∃ indent rest,
        text = "do --[tell " ++ known.label ++ " to]\n"
          ++ (marginOf indent ++ "local " ++ "__actor" ++ " = " ++ rest) := by
  unfold tellInPlace at run
  split at run
  · obtain ⟨inner, _, inside, run⟩ := bind_eq_ok.mp run
    obtain ⟨closing, _, -, result⟩ := bind_eq_ok.mp run
    obtain ⟨rfl, -⟩ := pure_eq_ok.mp result
    obtain ⟨_, inside, -⟩ := around_eq_ok.mp inside
    obtain ⟨margin, _, marginRun, inside⟩ := bind_eq_ok.mp inside
    obtain ⟨body, _, -, result⟩ := bind_eq_ok.mp inside
    obtain ⟨rfl, -⟩ := pure_eq_ok.mp result
    have atDepth : margin = marginOf (before.indent + 1) := by
      cases marginRun
      rfl
    have statement : "local __actor = " = "local " ++ "__actor" ++ " = " := by decide
    refine ⟨before.indent + 1,
      known.actor ++ "\n" ++ margin ++ "if " ++ known.guard ++ " then\n" ++ body ++ margin
        ++ "end\n" ++ closing ++ "end", ?_⟩
    rewrite [← atDepth, statement]
    simp only [String.append_assoc]
  · cases run

theorem declared_of_tell {write : BlockWriter} {known : KnownActor} {operands : List Operand}
    {before after : State} {text name : String} {inside : List Char}
    (run : tellInPlace write known operands before = .ok text after)
    (opens : after? ("do --[tell " ++ known.label ++ " to]\n") text.toList = some inside)
    (declares : Lua.declaredLocal? inside = some name)
    : name = "__actor" := by
  obtain ⟨indent, rest, rfl⟩ := tellInPlace_eq_ok run
  rw [String.toList_append, after_append, Option.some.injEq] at opens
  rw [← opens, Lua.declaredLocal_eq (fun _ => blank_of_mem_marginOf) (by decide)] at declares
  exact (Option.some.inj declares).symm

namespace Surrounds

variable {names : List String}

theorem of_handler {source : Script} {owner root : String} {entry : Handler} {before after : State}
    {text : String} (run : Codegen.handler source owner root entry before = .ok text after)
    : Surrounds ["__actor", "event", "__evname"] := by
  obtain ⟨_, _, assigned, opens⟩ := handler_opens run
  exact .handler run assigned opens

theorem event_mem (surrounds : Surrounds names) : "event" ∈ names := by
  induction surrounds with
  | handler run assigned opens =>
      obtain ⟨_, _, found, read⟩ := handler_opens run
      cases assigned.symm.trans found
      cases opens.symm.trans read
      decide
  | subroutine _ _ _ ih => exact List.mem_append_right _ ih
  | declaration _ _ _ ih | tell _ _ _ _ ih => exact List.mem_cons_of_mem _ ih

/-- Every name that is bound has a reserved lead or is one of two others, by induction over what
surrounds a place.
-/
theorem isReserved_or (surrounds : Surrounds names) {name : String} (member : name ∈ names)
    : isReserved name.toList = true ∨ name = "event" ∨ name = "evname" := by
  have ofHandler : ∀ name ∈ ["__actor", "event", "__evname"],
      isReserved name.toList = true ∨ name = "event" ∨ name = "evname" := by
    decide
  have ofSubroutine : ∀ name ∈ ["__actor", "event", "evname"],
      isReserved name.toList = true ∨ name = "event" ∨ name = "evname" := by
    decide
  induction surrounds with
  | handler run assigned opens =>
      obtain ⟨_, _, found, read⟩ := handler_opens run
      cases assigned.symm.trans found
      cases opens.symm.trans read
      exact ofHandler name member
  | subroutine _ run opens ih =>
      rcases List.mem_append.mp member with own | outer
      · obtain ⟨_, read⟩ := subroutine_opens run
        cases opens.symm.trans read
        exact ofSubroutine name own
      · exact ih outer
  | declaration _ needed declares ih =>
      rcases List.mem_cons.mp member with rfl | outer
      · exact .inl (isReserved_of_binds needed declares)
      · exact ih outer
  | tell _ run opens declares ih =>
      rcases List.mem_cons.mp member with rfl | outer
      · rw [declared_of_tell run opens declares]
        decide
      · exact ih outer

/-- The text of a variable is bound around compiled code exactly if the variable is the event, or
the event's name in a subroutine.
-/
theorem luaText_mem_iff (surrounds : Surrounds names) (name : String)
    : Variable.luaText name ∈ names ↔ name = "event" ∨ name = "evname" ∧ "evname" ∈ names := by
  have event : Variable.luaText "event" = "event" := by decide
  have eventName : Variable.luaText "evname" = "evname" := by decide
  constructor
  · intro member
    rcases surrounds.isReserved_or member with reserved | same | same
    · rw [isReserved_luaText] at reserved
      cases reserved
    · exact .inl (Variable.luaText_injective (same.trans event.symm))
    · exact .inr ⟨Variable.luaText_injective (same.trans eventName.symm), same ▸ member⟩
  · rintro (rfl | ⟨rfl, member⟩)
    · rw [event]
      exact surrounds.event_mem
    · rwa [eventName]

theorem globals_not_mem (surrounds : Surrounds names) : "_G" ∉ names := by
  intro member
  exact absurd (surrounds.isReserved_or member) (by decide)

end Surrounds

end TileLua.Codegen
