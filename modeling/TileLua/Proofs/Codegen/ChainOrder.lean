import Mathlib.Data.List.Forall2
import TileLua.Proofs.Codegen.DelegatingHandler
import TileLua.Proofs.Codegen.FlatChains
import TileLua.Proofs.Syntax.Unambiguous

/-! The order of the continuations of an `if`.
Reading looks at the continuations one by one, whatever their order and nesting, and writing puts
them into one chain in the order of the export. A chain has its `else` last only if the export has
it so.
-/

namespace TileLua

open Decoding

-----------------------------------------------------------------------------------------
-- Continuations in an export
-----------------------------------------------------------------------------------------

mutual

/-- A continuation and those in it, each without the ones that are in it. -/
def Json.chain : Json → List Json
  | .arr (.str tag :: payload) =>
      if tag = "elseif" then
        match payload with
        | test :: body :: nested => .arr [.str tag, test, body] :: Json.chainOf nested
        | _ => [.arr (.str tag :: payload)]
      else [.arr (.str tag :: payload)]
  | value => [value]

def Json.chainOf : List Json → List Json
  | [] => []
  | first :: rest => first.chain ++ Json.chainOf rest

end

/-- The word that a continuation in an export starts with. -/
def Json.word : Json → String
  | .arr items => Json.tagText items
  | _ => ""

/-- The word that the text of a continuation starts with. -/
def Branch.word : Branch → String
  | .orElseIf _ _ _ => "elseif"
  | .orElse _ => "else"

theorem Json.chain_elseif (payload : List Json)
    : Json.chain (.arr (.str "elseif" :: payload))
      = .arr (.str "elseif" :: payload.take 2) :: Json.chainOf (payload.drop 2) := by
  rw [chain.eq_def]
  match payload with
  | [] => simp [chainOf]
  | [_] => simp [chainOf]
  | _ :: _ :: _ => simp

theorem Json.chain_of_not_elseif {value : Json}
    (other : ∀ payload, value ≠ .arr (.str "elseif" :: payload))
    : value.chain = [value] := by
  unfold chain
  split
  · rename_i tag payload
    rw [if_neg]
    intro same
    exact other payload (by rw [same])
  · rfl

/-- A condition and its block are the first two operands. -/
theorem guardOfJson_take (tag : String) (payload : List Json)
    : guardOfJson tag (payload.take 2) = guardOfJson tag payload := by
  simp [guardOfJson, operandAt]

theorem Branch.listOfJson_append (first second : List Json)
    : Branch.listOfJson (first ++ second)
      = do
          let head ← Branch.listOfJson first
          let tail ← Branch.listOfJson second
          return head ++ tail := by
  induction first with
  | nil =>
      rw [List.nil_append, listOfJson]
      exact (bind_pure _).symm
  | cons value rest ih =>
      rw [List.cons_append, listOfJson, listOfJson, ih]
      simp only [bind_assoc, pure_bind, List.cons_append]

/-- Continuations are read one by one. -/
theorem Branch.listOfJson_eq_ok {values : List Json} {trees : List Branch}
    : Branch.listOfJson values = .ok trees
      ↔ List.Forall₂ (fun value tree => Branch.ofJson value = .ok tree) values trees := by
  induction values generalizing trees with
  | nil =>
      rw [listOfJson, List.forall₂_nil_left_iff]
      exact ⟨fun read => by cases read; rfl, fun none => by rw [none]⟩
  | cons value rest ih =>
      simp only [listOfJson, bind_eq_ok, pure_eq_ok, List.forall₂_cons_left_iff, ih]
      constructor
      · intro read
        obtain ⟨tree, head, others, tail, rfl⟩ := read
        exact ⟨tree, others, head, tail, rfl⟩
      · intro read
        obtain ⟨tree, others, head, tail, rfl⟩ := read
        exact ⟨tree, head, others, tail, rfl⟩

/-- A continuation is read from an array that has its word for a tag. -/
theorem Branch.exists_of_ofJson {value : Json} {tree : Branch}
    (read : Branch.ofJson value = .ok tree)
    : ∃ payload, value = .arr (.str tree.word :: payload) := by
  rcases Branch.of_ofJson read with further | last
  · obtain ⟨payload, _, _, _, rfl, -, -, rfl⟩ := further
    exact ⟨payload, rfl⟩
  · obtain ⟨payload, _, _, rfl, -, -, rfl⟩ := last
    exact ⟨payload, rfl⟩

theorem Branch.words_of_ofJson {values : List Json} {trees : List Branch}
    (read : List.Forall₂ (fun value tree => Branch.ofJson value = .ok tree) values trees)
    : trees.map Branch.word = values.map Json.word := by
  induction read with
  | nil => rfl
  | cons head _ ih =>
      obtain ⟨payload, rfl⟩ := exists_of_ofJson head
      rw [List.map_cons, List.map_cons, ih, Json.word, Json.tagText]

/-- The flat chain is read from the continuations without their nesting, if this is so for each. -/
theorem Branch.listOfJson_chainOf_of_each {values : List Json}
    (each : ∀ value ∈ values,
      Branch.listOfJson value.chain = Branch.flatten <$> Branch.ofJson value)
    : Branch.listOfJson (Json.chainOf values)
      = Branch.flattenAll <$> Branch.listOfJson values := by
  induction values with
  | nil => rfl
  | cons value rest ih =>
      rw [Json.chainOf, listOfJson_append, listOfJson, each value List.mem_cons_self,
        ih (fun item member => each item (List.mem_cons_of_mem value member))]
      simp only [map_eq_pure_bind, bind_assoc, pure_bind, flattenAll]

/-- What is read from a continuation without its nesting is the flat chain, with the same defect if
there is one; by induction over the value.
-/
theorem Branch.listOfJson_chain (value : Json)
    : Branch.listOfJson value.chain = Branch.flatten <$> Branch.ofJson value := by
  induction value using Json.items_induction with
  | step value inner =>
    by_cases further : ∃ payload, value = .arr (.str "elseif" :: payload)
    · obtain ⟨payload, rfl⟩ := further
      have nested
          : Branch.listOfJson (Json.chainOf (payload.drop 2))
            = Branch.flattenAll <$> Branch.listOfJson (payload.drop 2) := by
        refine listOfJson_chainOf_of_each (fun item member => inner _ rfl item ?_)
        exact List.mem_cons_of_mem _ (List.mem_of_mem_drop member)
      have none : Branch.listOfJson ((payload.take 2).drop 2) = pure [] := by
        rw [List.drop_take_self]
        rfl
      rw [Json.chain_elseif, listOfJson, nested, ofJson_tagged, ofJson_tagged, if_pos rfl,
        if_pos rfl, guardOfJson_take, none]
      simp only [map_eq_pure_bind, bind_assoc, pure_bind, flatten]
    · rw [Json.chain_of_not_elseif (not_exists.mp further)]
      simp only [listOfJson]
      cases read : Branch.ofJson value with
      | error defect => rfl
      | ok tree =>
          obtain ⟨payload, shape⟩ := exists_of_ofJson read
          cases tree with
          | orElseIf test body nested => exact (further ⟨payload, shape⟩).elim
          | orElse body => rfl

theorem Branch.listOfJson_chainOf (values : List Json)
    : Branch.listOfJson (Json.chainOf values)
      = Branch.flattenAll <$> Branch.listOfJson values :=
  listOfJson_chainOf_of_each (fun value _ => listOfJson_chain value)

/-- Continuations can be read if each can, by induction over the list. -/
theorem Branch.exists_listOfJson_iff {values : List Json}
    : (∃ trees, Branch.listOfJson values = .ok trees)
      ↔ ∀ value ∈ values, ∃ tree, Branch.ofJson value = .ok tree := by
  induction values with
  | nil => exact ⟨fun _ => by simp, fun _ => ⟨[], rfl⟩⟩
  | cons value rest ih =>
      rw [List.forall_mem_cons, ← ih]
      simp only [listOfJson, bind_eq_ok, pure_eq_ok]
      constructor
      · intro read
        obtain ⟨_, tree, head, others, tail, -⟩ := read
        exact ⟨⟨tree, head⟩, others, tail⟩
      · intro read
        obtain ⟨⟨tree, head⟩, others, tail⟩ := read
        exact ⟨tree :: others, tree, head, others, tail, rfl⟩

/-- An `if` is read from its condition, its block and its continuations. -/
theorem Command.ofJson_if {payload : List Json} {tree : Command}
    : Command.ofJson? (.arr (.str "if" :: payload)) = .ok (some tree)
      ↔ ∃ test body continuations,
          tree = .choose test body continuations
          ∧ guardOfJson "if" payload = .ok (test, body)
          ∧ Branch.listOfJson (payload.drop 2) = .ok continuations := by
  rw [ofJson_tagged (by decide), map_eq_ok]
  simp only [ofTagged, String.reduceEq, ↓reduceIte, Option.some.injEq, exists_eq_right,
    bind_eq_ok, pure_eq_ok]
  constructor
  · intro read
    obtain ⟨⟨test, body⟩, guarded, continuations, listed, rfl⟩ := read
    exact ⟨test, body, continuations, rfl, guarded, listed⟩
  · intro read
    obtain ⟨test, body, continuations, rfl, guarded, listed⟩ := read
    exact ⟨(test, body), guarded, continuations, listed, rfl⟩

-----------------------------------------------------------------------------------------
-- Chains of words
-----------------------------------------------------------------------------------------

/-- There is one `else` at most, and it is the last word of its chain. -/
def Lua.ElseIsLast (words : List String) : Prop :=
  words.count "else" ≤ 1 ∧ ("else" ∈ words → words.getLast? = some "else")

instance : DecidablePred Lua.ElseIsLast :=
  fun _ => inferInstanceAs (Decidable (_ ∧ (_ → _)))

/-- An `else` is the only one and the last if nothing follows any. -/
theorem Lua.elseIsLast_iff {α : Type} {word : α → String} {chain : List α}
    : ElseIsLast (chain.map word)
      ↔ ∀ front arm back, chain = front ++ arm :: back → word arm = "else" → back = [] := by
  constructor
  · intro valid front arm back shape isElse
    obtain ⟨single, last⟩ := valid
    rw [shape, List.map_append, List.map_cons, isElse] at single last
    cases back with
    | nil => rfl
    | cons next rest =>
        have ending : ((next :: rest).map word).getLast? = some "else" := by
          simpa using last (by simp)
        have again := List.count_pos_iff.mpr (List.mem_of_getLast? ending)
        rw [List.count_append, List.count_cons_self] at single
        omega
  · intro ends
    by_cases present : "else" ∈ chain.map word
    · obtain ⟨arm, member, isElse⟩ := List.mem_map.mp present
      obtain ⟨front, back, rfl⟩ := List.append_of_mem member
      cases ends front arm back rfl isElse
      have absent : "else" ∉ front.map word := by
        intro earlier
        obtain ⟨other, inFront, isElse⟩ := List.mem_map.mp earlier
        obtain ⟨before, after, rfl⟩ := List.append_of_mem inFront
        simpa using ends before other (after ++ [arm]) (by simp) isElse
      rw [List.map_append, List.map_singleton, isElse]
      refine ⟨?_, fun _ => List.getLast?_concat⟩
      rw [List.count_append, List.count_eq_zero_of_not_mem absent, List.count_singleton_self]
    · refine ⟨?_, fun member => (present member).elim⟩
      rw [List.count_eq_zero_of_not_mem present]
      exact Nat.zero_le 1

-----------------------------------------------------------------------------------------
-- Written chains
-----------------------------------------------------------------------------------------

namespace Codegen

/-- The texts of a continuation at a depth, without those that it carries. -/
inductive ArmText (write : BlockWriter) (indent : Nat) : Branch → String → Prop
  | orElseIf {test body nested before middle after shown lines}
      (depth : before.indent = indent)
      (tested : condition write test before = .ok shown middle)
      (written : indented 1 (write .shared body) middle = .ok lines after)
      : ArmText write indent (.orElseIf test body nested)
          (marginOf indent ++ "elseif " ++ shown ++ " then\n" ++ lines)
  | orElse {body before after lines}
      (depth : before.indent = indent)
      (written : indented 1 (write .shared body) before = .ok lines after)
      : ArmText write indent (.orElse body) (marginOf indent ++ "else\n" ++ lines)

variable {script : Script} {write : BlockWriter}

theorem branch_eq_ok {arm : Branch} {before after : State} {text : String}
    (flat : arm.isFlat = true) (run : branch write arm before = .ok text after)
    : ArmText write before.indent arm text := by
  cases arm with
  | orElseIf test body nested =>
      cases List.isEmpty_iff.mp flat
      rw [branch] at run
      obtain ⟨margin, _, marginRun, run⟩ := bind_eq_ok.mp run
      obtain ⟨rfl, rfl⟩ := margin_eq_ok marginRun
      obtain ⟨shown, middle, tested, run⟩ := bind_eq_ok.mp run
      obtain ⟨lines, _, written, run⟩ := bind_eq_ok.mp run
      obtain ⟨_, _, nothing, run⟩ := bind_eq_ok.mp run
      rw [branches] at nothing
      obtain ⟨rfl, rfl⟩ := pure_eq_ok.mp nothing
      obtain ⟨rfl, -⟩ := pure_eq_ok.mp run
      rw [String.append_empty]
      exact .orElseIf rfl tested written
  | orElse body =>
      rw [branch] at run
      obtain ⟨margin, _, marginRun, run⟩ := bind_eq_ok.mp run
      obtain ⟨rfl, rfl⟩ := margin_eq_ok marginRun
      obtain ⟨lines, _, written, run⟩ := bind_eq_ok.mp run
      obtain ⟨rfl, -⟩ := pure_eq_ok.mp run
      exact .orElse rfl written

/-- The text of a flat chain is that of its continuations, by induction over the chain. -/
theorem branches_eq_ok (script : Script)
    (blocks : ∀ scope index, Keeps State.Grown (write scope index))
    {arms : List Branch} (flat : ∀ arm ∈ arms, arm.isFlat = true) {before after : State}
    {text : String} (run : branches write arms before = .ok text after)
    : ∃ texts,
        text = String.join texts ∧ List.Forall₂ (ArmText write before.indent) arms texts := by
  induction arms generalizing before after text with
  | nil =>
      rw [branches] at run
      obtain ⟨rfl, -⟩ := pure_eq_ok.mp run
      exact ⟨[], rfl, .nil⟩
  | cons arm rest ih =>
      rw [branches_cons] at run
      obtain ⟨head, middle, headRun, run⟩ := bind_eq_ok.mp run
      obtain ⟨tail, _, tailRun, run⟩ := bind_eq_ok.mp run
      obtain ⟨rfl, -⟩ := pure_eq_ok.mp run
      have grown := ((grownLogic script write blocks).continuations.1 arm).of_ok headRun
      obtain ⟨texts, rfl, others⟩ := ih (fun other member => flat other (.tail arm member)) tailRun
      rw [grown.indent] at others
      refine ⟨head :: texts, by simp, .cons ?_ others⟩
      exact branch_eq_ok (flat arm (.head rest)) headRun

/-- The text of an `if` is that of its condition and its block, and the flat chain. -/
theorem choose_eq_ok (blocks : ∀ scope index, Keeps State.Grown (write scope index))
    {tags : Annotations} {test : Condition} {body : Nat} {continuations : List Branch}
    {before after : State} {text : Option String}
    (run : command script write tags (.choose test body continuations) before = .ok text after)
    : ∃ shown lines texts,
        text
          = some
              ("if " ++ shown ++ " then\n" ++ lines ++ String.join texts
                ++ marginOf before.indent ++ "end")
        ∧ List.Forall₂ (ArmText write before.indent) (Branch.flattenAll continuations) texts := by
  rw [command] at run
  obtain ⟨shown, tested, testRun, run⟩ := bind_eq_ok.mp run
  obtain ⟨lines, middle, bodyRun, run⟩ := bind_eq_ok.mp run
  obtain ⟨chain, last, chainRun, run⟩ := bind_eq_ok.mp run
  obtain ⟨margin, _, marginRun, run⟩ := bind_eq_ok.mp run
  obtain ⟨rfl, rfl⟩ := margin_eq_ok marginRun
  obtain ⟨rfl, -⟩ := pure_eq_ok.mp run
  have logic := grownLogic script write blocks
  have testGrown := (logic.condition test).of_ok testRun
  have bodyGrown := (indented_grown 1 (blocks .shared body)).of_ok bodyRun
  have chainGrown := (logic.continuations.2 continuations).of_ok chainRun
  have depth : middle.indent = before.indent := bodyGrown.indent.trans testGrown.indent
  rw [← (branches_flatten write).2] at chainRun
  obtain ⟨texts, rfl, each⟩ :=
    branches_eq_ok script blocks (Branch.isFlat_of_mem_flatten.2 continuations) chainRun
  rw [depth] at each
  exact ⟨shown, lines, texts, by rw [chainGrown.indent, depth], each⟩

/-- An `if` is accepted if its condition and block can be read, and each of its continuations on its
own, in whatever order they are and however they are nested. Its text is the chain of all
continuations in the order of the export, so an `else` is the only one and the last exactly if
nothing follows any `else` in the export.
-/
theorem accepted_chain_has_else_last_iff (payload : List Json)
    : let listed := Json.chainOf (payload.drop 2)
      ((∃ tree, Command.ofJson? (.arr (.str "if" :: payload)) = .ok (some tree))
        ↔ (∃ guard, guardOfJson "if" payload = .ok guard)
          ∧ ∀ value ∈ listed, ∃ arm, Branch.ofJson value = .ok arm)
      ∧ ∀ tree,
          Command.ofJson? (.arr (.str "if" :: payload)) = .ok (some tree)
          → ∃ test body continuations,
              tree = .choose test body continuations
              ∧ guardOfJson "if" payload = .ok (test, body)
              ∧ List.Forall₂ (fun value arm => Branch.ofJson value = .ok arm) listed
                  (Branch.flattenAll continuations)
              ∧ (∀ script depth tags before text after,
                  command script (blockWithin script depth) tags tree before = .ok text after
                  → ∃ shown lines texts,
                      text
                        = some
                            ("if " ++ shown ++ " then\n" ++ lines ++ String.join texts
                              ++ marginOf before.indent ++ "end")
                      ∧ List.Forall₂ (ArmText (blockWithin script depth) before.indent)
                          (Branch.flattenAll continuations) texts)
              ∧ (Branch.flattenAll continuations).map Branch.word = listed.map Json.word
              ∧ (Lua.ElseIsLast ((Branch.flattenAll continuations).map Branch.word)
                  ↔ ∀ front value back,
                      listed = front ++ value :: back → value.word = "else" → back = []) := by
  dsimp only
  refine ⟨?_, ?_⟩
  · rw [← Branch.exists_listOfJson_iff, Branch.listOfJson_chainOf]
    simp only [map_eq_ok, Command.ofJson_if]
    constructor
    · intro accepted
      obtain ⟨_, test, body, continuations, -, guarded, found⟩ := accepted
      exact ⟨⟨_, guarded⟩, _, continuations, found, rfl⟩
    · intro readable
      obtain ⟨⟨⟨test, body⟩, guarded⟩, _, continuations, found, -⟩ := readable
      exact ⟨_, test, body, continuations, rfl, guarded, found⟩
  · intro tree read
    obtain ⟨test, body, continuations, rfl, guarded, found⟩ := Command.ofJson_if.mp read
    have flat
        : Branch.listOfJson (Json.chainOf (payload.drop 2))
          = .ok (Branch.flattenAll continuations) := by
      rw [Branch.listOfJson_chainOf, found]
      rfl
    have arms := Branch.listOfJson_eq_ok.mp flat
    have words := Branch.words_of_ofJson arms
    refine ⟨test, body, continuations, rfl, guarded, arms, ?_, words, ?_⟩
    · intro script depth tags before text after run
      exact choose_eq_ok (blockWithin_grown script depth) run
    · rw [words]
      exact Lua.elseIsLast_iff

/-- An `if` with an `else` that is nested in the first continuation, before the second. -/
def overtakenElse : Command :=
  let test : Condition := ⟨.equal, .get "x", .int 1⟩
  .choose test 0 [.orElseIf test 1 [.orElse 2], .orElseIf test 3 []]

/-- The operands of that `if` in an export. -/
def overtakenPayload : List Json :=
  let test : Json := .arr [.str "eq", .str "x", .int 1]
  [test, blockToJson 0,
    .arr [.str "elseif", test, blockToJson 1, .arr [.str "else", blockToJson 2]],
    .arr [.str "elseif", test, blockToJson 3]]

def overtakenScript : Script where
  name := "hub"
  blocks := [[], [], [], []]

/-- The `else` before the last continuation is accepted, and written where it is. -/
theorem nested_else_is_overtaken
    : ∃ text after shown lines first second third,
        Command.ofJson? (.arr (.str "if" :: overtakenPayload)) = .ok (some overtakenElse)
        ∧ command overtakenScript (blockWithin overtakenScript 1) {} overtakenElse {}
          = .ok (some text) after
        ∧ text
          = "if " ++ shown ++ " then\n" ++ lines
              ++ ("  elseif " ++ first ++ "  else\n" ++ second ++ "  elseif " ++ third)
              ++ "  end"
        ∧ (Json.chainOf (overtakenPayload.drop 2)).map Json.word = ["elseif", "else", "elseif"]
        ∧ ¬ Lua.ElseIsLast ["elseif", "else", "elseif"] := by
  have accepted
      : Command.ofJson? (.arr (.str "if" :: overtakenPayload)) = .ok (some overtakenElse) := by
    rfl
  have success
      : succeeds (command overtakenScript (blockWithin overtakenScript 1) {} overtakenElse) {}
        = true := by
    decide +kernel
  obtain ⟨text, after, run⟩ := exists_ok_of_succeeds success
  obtain ⟨-, each⟩ := accepted_chain_has_else_last_iff overtakenPayload
  obtain ⟨test, body, continuations, same, -, -, written, words, -⟩ := each _ accepted
  obtain ⟨shown, lines, texts, rfl, arms⟩ := written _ _ _ _ _ _ run
  cases same
  obtain ⟨_, _, first, others, rfl⟩ := List.forall₂_cons_left_iff.mp arms
  obtain ⟨_, _, second, rest, rfl⟩ := List.forall₂_cons_left_iff.mp others
  obtain ⟨_, _, third, none, rfl⟩ := List.forall₂_cons_left_iff.mp rest
  cases List.forall₂_nil_left_iff.mp none
  cases first with
  | @orElseIf _ _ _ _ _ _ firstTest firstLines =>
    cases second with
    | @orElse _ _ _ elseLines =>
      cases third with
      | @orElseIf _ _ _ _ _ _ lastTest lastLines =>
        have margin : marginOf (State.indent {}) = "  " := by decide
        refine ⟨_, after, shown, lines, firstTest ++ " then\n" ++ firstLines, elseLines,
          lastTest ++ " then\n" ++ lastLines, accepted, run, ?_, words.symm, by decide⟩
        simp [margin, ← String.toList_inj]

end Codegen

end TileLua
