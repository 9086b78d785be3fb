import TileLua.Proofs.Codegen.Tour
import TileLua.Proofs.Codegen.VariableUses

/-! How often a variable is used.
The tour of a block tells how often each name is read or written there. A block that is compiled
adds that to the counts, and adds the texts of the names that it counts to the known texts; names
that are used as they are do not count. So a variable that has a count at all was used.
-/

namespace TileLua

/-- Whether a name is read or written at an occurrence. -/
def Occurrence.isUse (name : String) (occurrence : Occurrence) : Bool :=
  occurrence.visit = .read name || occurrence.visit = .write name

/-- The number of uses among occurrences that count for a name. -/
def usesIn (occurrences : List Occurrence) (name : String) : Nat :=
  if Variable.isVerbatim name then 0 else occurrences.countP (Occurrence.isUse name)

theorem usesIn_nil (name : String) : usesIn [] name = 0 := by
  simp [usesIn]

theorem usesIn_cons (first : Occurrence) (rest : List Occurrence) (name : String)
    : usesIn (first :: rest) name = usesIn [first] name + usesIn rest name := by
  unfold usesIn
  split
  · rfl
  · rw [← List.singleton_append, List.countP_append]

namespace Codegen

/-- A ledger after occurrences, as far as it is about variables: the counts are increased by the
uses, and the texts of the names with uses are added. A name without uses keeps its count or lack of
one.
-/
structure Ledger.Counts (before : Ledger) (uses : String → Nat) (after : Ledger) : Prop where
  uses_eq
    : ∀ name,
        after.uses[name]?
        = if uses name = 0 then before.uses[name]?
          else some (before.uses.getD name 0 + uses name)
  mem_texts_iff
    : ∀ text,
        text ∈ after.luaVariables
        ↔ text ∈ before.luaVariables ∨ ∃ name, uses name ≠ 0 ∧ Variable.luaText name = text

namespace Ledger

theorem Counts.of_no_uses {before after : Ledger} {uses : String → Nat}
    (unused : ∀ name, uses name = 0) (counts : after.uses = before.uses)
    (texts : after.luaVariables = before.luaVariables)
    : before.Counts uses after := by
  constructor
  · intro name
    rw [if_pos (unused name), counts]
  · intro text
    simp [unused, texts]

theorem Counts.trans {before middle after : Ledger} {first second : String → Nat}
    (left : before.Counts first middle) (right : middle.Counts second after)
    : before.Counts (fun name => first name + second name) after where
  uses_eq := by
    intro name
    rw [right.uses_eq name, Std.TreeMap.getD_eq_getD_getElem?, left.uses_eq name]
    by_cases none : first name = 0
    · simp [none, Std.TreeMap.getD_eq_getD_getElem?]
    · by_cases more : second name = 0
      · simp [none, more]
      · simp [none, more, Nat.add_assoc]
  mem_texts_iff := by
    intro text
    rw [right.mem_texts_iff text, left.mem_texts_iff text, or_assoc, ← exists_or]
    refine or_congr Iff.rfl (exists_congr fun name => ?_)
    rw [← or_and_right]
    refine and_congr ?_ Iff.rfl
    omega

/-- A use of a variable counts once for its name and for no other. -/
theorem use_counts (ledger : Ledger) {name : String} (counted : Variable.isVerbatim name = false)
    : ledger.Counts (fun other => if other = name then 1 else 0) (ledger.use name) where
  uses_eq := by
    intro other
    simp only [use, counted, Bool.false_eq_true, ↓reduceIte, Std.TreeMap.getElem?_insert,
      Std.LawfulEqCmp.compare_eq_iff_eq]
    by_cases same : name = other
    · simp [same]
    · simp [same, Ne.symm same]
  mem_texts_iff := by
    intro text
    simp only [use, counted, Bool.false_eq_true, ↓reduceIte, Std.TreeSet.mem_insert,
      Std.LawfulEqCmp.compare_eq_iff_eq]
    rw [or_comm]
    refine or_congr Iff.rfl ?_
    constructor
    · intro same
      exact ⟨name, by simp, same⟩
    · intro used
      obtain ⟨other, used, same⟩ := used
      by_cases equal : other = name
      · exact equal ▸ same
      · simp [equal] at used

theorem usesIn_use {name : String} {occurrence : Occurrence}
    (use : occurrence.visit = .read name ∨ occurrence.visit = .write name) (other : String)
    : usesIn [occurrence] other
      = if other = name ∧ Variable.isVerbatim name = false then 1 else 0 := by
  have isUse : occurrence.isUse other = decide (other = name) := by
    rcases use with visit | visit <;> simp [Occurrence.isUse, visit, eq_comm]
  by_cases same : other = name
  · subst other
    cases verbatim : Variable.isVerbatim name <;> simp [usesIn, isUse, verbatim]
  · simp [usesIn, isUse, same]

/-- An occurrence that uses a name enters the use. -/
theorem use_enters {name : String} {occurrence : Occurrence} (ledger : Ledger)
    (use : occurrence.visit = .read name ∨ occurrence.visit = .write name)
    : ledger.Counts (usesIn [occurrence]) (ledger.use name) := by
  cases verbatim : Variable.isVerbatim name with
  | false =>
      have uses : usesIn [occurrence] = fun other => if other = name then 1 else 0 := by
        funext other
        simp [usesIn_use use, verbatim]
      rw [uses]
      exact ledger.use_counts verbatim
  | true =>
      have same : ledger.use name = ledger := by simp [Ledger.use, verbatim]
      refine .of_no_uses ?_ (by rw [same]) (by rw [same])
      intro other
      simp [usesIn_use use, verbatim]

/-- An occurrence enters its uses. -/
theorem enter_counts (source : Script) (ledger : Ledger) (occurrence : Occurrence)
    : ledger.Counts (usesIn [occurrence]) (ledger.enter source occurrence) := by
  have reported (problem : Option Problem)
      : ((problem.map (ledger.report occurrence.location)).getD ledger).uses = ledger.uses
        ∧ ((problem.map (ledger.report occurrence.location)).getD ledger).luaVariables
          = ledger.luaVariables := by
    cases problem <;> exact ⟨rfl, rfl⟩
  cases visit : occurrence.visit with
  | read name =>
      simp only [enter, visit]
      exact ledger.use_enters (Or.inl visit)
  | write name =>
      simp only [enter, visit]
      exact ledger.use_enters (Or.inr visit)
  | _ =>
      simp only [enter, visit]
      refine .of_no_uses ?_ (reported _).1 (reported _).2
      intro name
      simp [usesIn, Occurrence.isUse, visit]

/-- Occurrences enter their uses, by induction over their list. -/
theorem foldl_counts (source : Script) (ledger : Ledger) (occurrences : List Occurrence)
    : ledger.Counts (usesIn occurrences) (occurrences.foldl (Ledger.enter source) ledger) := by
  induction occurrences generalizing ledger with
  | nil => exact .of_no_uses usesIn_nil rfl rfl
  | cons first rest ih =>
      rw [funext (usesIn_cons first rest)]
      exact (ledger.enter_counts source first).trans (ih _)

end Ledger

/-- Every variable with a count was used. -/
theorem Reachable.uses_pos {state : State} (reachable : Reachable state) {name : String}
    {count : Nat} (found : state.uses[name]? = some count)
    : 1 ≤ count := by
  refine reachable.variableTables
    (fun uses _ => ∀ (name : String) (count : Nat), uses[name]? = some count → 1 ≤ count)
    (by simp) ?_ name count found
  intro uses texts name earlier _ other count found
  rw [Std.TreeMap.getElem?_insert] at found
  split at found
  · cases found
    exact Nat.le_add_left 1 _
  · exact earlier other count found

/-- A block that is compiled adds to the count of each name the uses of it on the block's tour, and
leaves alone the names without uses there and those that are used as they are. It adds the texts of
the names that it counts to the known texts. So in every state that code generation can get into,
the known texts are those of the names with a count, and each count is at least one.
-/
theorem uses_follow_tours
    : (∀ (source : Script) (scope : Scope) (index : Nat) (before after : State) (text : String),
        block source scope index before = .ok text after
        → ∀ depth > source.blocks.length,
            (∀ name,
              after.uses[name]?
              = if usesIn (source.tour depth index) name = 0 then before.uses[name]?
                else some (before.uses.getD name 0 + usesIn (source.tour depth index) name))
            ∧ ∀ known,
                known ∈ after.luaVariables
                ↔ known ∈ before.luaVariables
                  ∨ ∃ name,
                      usesIn (source.tour depth index) name ≠ 0
                      ∧ Variable.luaText name = known)
      ∧ ∀ state,
          Reachable state
          → (∀ known,
              known ∈ state.luaVariables ↔ ∃ name ∈ state.uses, Variable.luaText name = known)
            ∧ ∀ (name : String) (count : Nat), state.uses[name]? = some count → 1 ≤ count := by
  refine ⟨?_, ?_⟩
  · intro source scope index before after text run depth deep
    have ledger := (blockWithin_enters source deep scope index).complete run
    have counts := before.ledger.foldl_counts source (source.tour depth index)
    rw [← ledger] at counts
    exact ⟨counts.uses_eq, counts.mem_texts_iff⟩
  · intro state reachable
    exact ⟨reachable.tracked.mem_texts_iff, fun _ _ => reachable.uses_pos⟩

/-- A script whose first block reaches the second one twice. An operand after the point of `name` is
never looked at, and a field of the event is used as it is.
-/
def recount : Script where
  name := "hub"
  blocks := [
    [.choose ⟨.equal, .get "x", .int 1⟩ 1 [.orElse 1],
      .assign .set "score"
        (.apply .name [.point (.get "x") (.get "y"), .value (.get "unread")])],
    [.inc "score", .assign .add "event.dx" (.get "score")]]

/-- The five uses of a variable are counted, and neither the operand nor the field is. -/
theorem uses_of_recount
    : ∃ text after,
        block recount .own 0 {} = .ok text after
        ∧ after.uses["score"]? = some 5
        ∧ after.uses["x"]? = some 2
        ∧ after.uses["unread"]? = none
        ∧ after.uses["event.dx"]? = none
        ∧ (∀ known,
            known ∈ after.luaVariables ↔ ∃ name ∈ after.uses, Variable.luaText name = known) := by
  obtain ⟨text, after, run⟩ : ∃ text after, block recount .own 0 {} = .ok text after :=
    exists_ok_of_succeeds (by decide +kernel)
  have counts := (uses_follow_tours.1 recount .own 0 {} after text run 3 (by decide)).1
  have reachable : Reachable (finish (block recount .own 0) {}) :=
    .after (.start {}) (.block recount .own 0)
  rw [finish_of_ok run] at reachable
  refine ⟨text, after, run, ?_, ?_, ?_, ?_, (uses_follow_tours.2 after reachable).1⟩
  · rw [counts]
    decide +kernel
  · rw [counts]
    decide +kernel
  · rw [counts]
    decide +kernel
  · rw [counts]
    decide +kernel

end Codegen

end TileLua
