import TileLua.Proofs.Codegen.StepInvariant
import TileLua.Proofs.Variable.Names

/-! Which variables code generation knows.
The texts of variables and the counts of their uses are kept side by side. They are about the same
variables in every state that code generation can get into: a use adds to both of them, and no other
step changes either.
-/

namespace TileLua.Codegen

/-- The known texts are those of the counted variables, and no name that is used as it is counts as
a variable.
-/
structure Tracked (uses : Std.TreeMap String Nat) (texts : Std.TreeSet String) : Prop where
  mem_texts_iff : ∀ text, text ∈ texts ↔ ∃ name ∈ uses, Variable.luaText name = text
  counted : ∀ name ∈ uses, Variable.isVerbatim name = false

theorem Tracked.empty : Tracked {} {} := by
  constructor
  · simp
  · simp

/-- A use is added to both tables. -/
theorem Tracked.insert {uses : Std.TreeMap String Nat} {texts : Std.TreeSet String}
    (tracked : Tracked uses texts) {name : String} (free : Variable.isVerbatim name = false)
    (count : Nat)
    : Tracked (uses.insert name count) (texts.insert (Variable.luaText name)) where
  mem_texts_iff := by
    intro text
    simp only [Std.TreeSet.mem_insert, Std.TreeMap.mem_insert, Std.LawfulEqCmp.compare_eq_iff_eq,
      tracked.mem_texts_iff text]
    constructor
    · intro member
      rcases member with new | known
      · exact ⟨name, Or.inl rfl, new⟩
      · obtain ⟨other, known, text⟩ := known
        exact ⟨other, Or.inr known, text⟩
    · intro counted
      obtain ⟨other, member, text⟩ := counted
      rcases member with new | known
      · exact Or.inl (new ▸ text)
      · exact Or.inr ⟨other, known, text⟩
  counted := by
    intro other member
    rcases Std.TreeMap.mem_insert.mp member with new | known
    · rwa [← Std.LawfulEqCmp.compare_eq_iff_eq.mp new]
    · exact tracked.counted other known

/-- A property of the tables of variables holds in every state that code generation can get into if
it holds at the start and a use keeps it.
-/
theorem Reachable.variableTables (holds : Std.TreeMap String Nat → Std.TreeSet String → Prop)
    (start : holds {} {})
    (use
      : ∀ {uses texts name},
          holds uses texts
          → Variable.isVerbatim name = false
          → holds (uses.insert name (uses.getD name 0 + 1))
              (texts.insert (Variable.luaText name)))
    {state : State} (reachable : Reachable state)
    : holds state.uses state.luaVariables := by
  have kept : StepInvariant (State.Preserves fun uses texts _ => holds uses texts) := by
    refine preserves_invariant ?_ ?_
    · intro name before
      unfold useVariable
      split
      · exact id
      · rename_i counted
        intro earlier
        exact use earlier (Bool.eq_false_iff.mpr counted)
    · intro target before
      have run := route_apply target before
      split at run <;> rw [finish_of_ok run] <;> exact id
  obtain ⟨tiles, preserves⟩ := reachable.related kept
  exact preserves start

/-- In every state that code generation can get into, both tables are about the same variables. -/
theorem Reachable.tracked {state : State} (reachable : Reachable state)
    : Tracked state.uses state.luaVariables :=
  reachable.variableTables Tracked .empty (fun tracked counted => tracked.insert counted _)

/-- A name is written with its text in every state. -/
theorem useVariable_apply (name : String) (before : State)
    : useVariable name before
      = .ok (Variable.writtenText name)
          (if Variable.isVerbatim name then before else before.countUse name) := by
  unfold useVariable Variable.writtenText
  split <;> rfl

/-- A name that is not special is read as it is written. What is looked up is its text, which is not
special either.
-/
theorem readVariable_eq_useVariable {name : String} (plain : Variable.special? name = none)
    : readVariable name = useVariable name := by
  funext before
  have used := useVariable_apply name before
  rw [used]
  refine bind_eq_ok.mpr ⟨_, _, used, ?_⟩
  rw [readSpecial, Variable.special_writtenText plain]
  rfl

/-- A variable that is counted has the same text wherever it is read or written. -/
theorem readVariable_of_counted {name : String} (counted : Variable.isVerbatim name = false)
    (before : State)
    : useVariable name before = .ok (Variable.luaText name) (before.countUse name)
      ∧ readVariable name before = .ok (Variable.luaText name) (before.countUse name) := by
  have used : useVariable name before
      = .ok (Variable.luaText name) (before.countUse name) := by
    rw [useVariable_apply, Variable.writtenText_of_counted counted, counted]
    rfl
  refine ⟨used, ?_⟩
  rw [readVariable_eq_useVariable (Variable.special_of_counted counted), used]

/-- Names keep apart in generated code. Two names are written alike exactly if they are the same.
The text of a script variable begins with two underscores only if it begins with three, so it is
no name of a route and no other name that begins with two. A name that is not special is read as
it is written by assignments and counting.
-/
theorem variable_texts_keep_apart
    : (∀ (first second : String) (before other : State),
        ∃ text text' after after',
          useVariable first before = .ok text after
          ∧ useVariable second other = .ok text' after'
          ∧ (text = text' ↔ first = second))
      ∧ (∀ (name : String) (before : State),
          Variable.isVerbatim name = false
          → ∃ text after,
              useVariable name before = .ok text after
              ∧ (Text.startsWith text "__" = true → Text.startsWith text "___" = true)
              ∧ (∀ internal,
                  Text.startsWith internal "__" = true
                  → Text.startsWith internal "___" = false
                  → text ≠ internal)
              ∧ ∀ routed, Text.startsWith routed "__OPTTAG__" = true → text ≠ routed)
      ∧ ∀ (name : String) (before : State),
          Variable.special? name = none
          → ∃ text after,
              readVariable name before = .ok text after
              ∧ ∀ source write tags,
                  command source write tags (.inc name) before = .ok (some (text ++ " += 1")) after
                  ∧ command source write tags (.dec name) before
                    = .ok (some (text ++ " -= 1")) after
                  ∧ ∀ assignment value,
                      command source write tags (.assign assignment name value) before
                      = (do
                          let value ← expr write value
                          return some
                            (text ++ " " ++ assignment.symbol ++ " " ++ value)) after := by
  refine ⟨?_, ?_, ?_⟩
  · intro first second before other
    refine ⟨_, _, _, _, useVariable_apply first before, useVariable_apply second other, ?_⟩
    exact ⟨Variable.writtenText_injective, congrArg Variable.writtenText⟩
  · intro name before counted
    have shift
        : Text.startsWith (Variable.luaText name) "__" = true
          → Text.startsWith (Variable.luaText name) "___" = true :=
      Variable.startsWith_luaText
    refine ⟨_, _, (readVariable_of_counted counted before).1, shift, ?_, ?_⟩
    · rintro internal reserved short rfl
      rw [shift reserved] at short
      cases short
    · rintro routed lead rfl
      simp only [Text.startsWith, List.isPrefixOf_iff_prefix] at lead shift
      have reserved : Variable.reservedLead.toList <+: "__OPTTAG__".toList := by decide
      have short := List.prefix_of_prefix_length_le (shift (reserved.trans lead)) lead (by decide)
      revert short
      decide
  · intro name before plain
    have used := useVariable_apply name before
    refine ⟨_, _, by rw [readVariable_eq_useVariable plain, used], ?_⟩
    intro source write tags
    refine ⟨bind_eq_ok.mpr ⟨_, _, used, rfl⟩, bind_eq_ok.mpr ⟨_, _, used, rfl⟩, ?_⟩
    intro assignment value
    simp only [command, bind, EStateM.bind, used]

/-- A variable that is named like a route gets a name of its own, a name with a space and the field
of the global table that it stands for are told apart, and a field of the event that is not special
is counted up where it is read.
-/
theorem texts_of_routeLike
    : (∃ text after,
        useVariable "__OPTTAG__door_open" {} = .ok text after ∧ text ≠ "__OPTTAG__door_open")
      ∧ (∃ text text' after after',
          useVariable "a b" {} = .ok text after
          ∧ useVariable "_G[\"a b\"]" {} = .ok text' after'
          ∧ text ≠ text')
      ∧ ∃ text after,
          readVariable "event.score" {} = .ok text after
          ∧ command { name := "hub" } (block { name := "hub" }) {} (.inc "event.score") {}
            = .ok (some (text ++ " += 1")) after := by
  obtain ⟨distinct, reserved, read⟩ := variable_texts_keep_apart
  refine ⟨?_, ?_, ?_⟩
  · obtain ⟨text, after, run, -, -, apart⟩ := reserved "__OPTTAG__door_open" {} (by decide)
    exact ⟨text, after, run, apart _ (by decide)⟩
  · obtain ⟨text, text', after, after', run, run', same⟩ := distinct "a b" "_G[\"a b\"]" {} {}
    exact ⟨text, text', after, after', run, run', mt same.mp (by decide)⟩
  · obtain ⟨text, after, run, counted⟩ := read "event.score" {} (by decide +kernel)
    exact ⟨text, after, run, (counted _ _ _).1⟩

end TileLua.Codegen
