import TileLua.Script.Basic

/-! Reading an export, taken apart step by step.
Reading succeeds through the parts that are read, and an operand is read from its place.
-/

namespace TileLua

namespace Decoding

variable {α β : Type}

/-- A sequence of reading steps succeeds exactly if both parts do. -/
theorem bind_eq_ok {result : Except Defect α} {next : α → Except Defect β} {value : β}
    : (result >>= next) = .ok value ↔ ∃ first, result = .ok first ∧ next first = .ok value := by
  cases result with
  | ok first =>
      constructor
      · intro read
        exact ⟨first, rfl, read⟩
      · intro steps
        obtain ⟨_, same, read⟩ := steps
        cases same
        exact read
  | error defect =>
      constructor
      · intro read
        cases read
      · intro steps
        obtain ⟨_, same, -⟩ := steps
        cases same

theorem map_eq_ok {result : Except Defect α} {make : α → β} {value : β}
    : (make <$> result) = .ok value ↔ ∃ first, result = .ok first ∧ make first = value := by
  cases result with
  | ok first => simp [Functor.map, Except.map]
  | error defect => simp [Functor.map, Except.map]

theorem pure_eq_ok {first second : α}
    : (pure first : Except Defect α) = .ok second ↔ first = second := by
  simp [pure, Except.pure]

end Decoding

open Decoding

-----------------------------------------------------------------------------------------
-- Operands
-----------------------------------------------------------------------------------------

theorem operandAt_eq_ok {tag : String} {payload : List Json} {index : Nat} {value : Json}
    : operandAt tag payload index = .ok value ↔ payload[index]? = some value := by
  unfold operandAt
  cases payload[index]? <;> simp

theorem indexAt_eq_ok {tag : String} {payload : List Json} {index number : Nat}
    : indexAt tag payload index = .ok number
      ↔ ∃ value, payload[index]? = some value ∧ value.asIndex? = some number := by
  rw [indexAt, bind_eq_ok]
  constructor
  · intro steps
    obtain ⟨value, found, read⟩ := steps
    rw [operandAt_eq_ok] at found
    refine ⟨value, found, ?_⟩
    cases known : value.asIndex? with
    | none =>
        rw [known] at read
        cases read
    | some other =>
        rw [known] at read
        cases pure_eq_ok.mp read
        rfl
  · intro place
    obtain ⟨value, found, known⟩ := place
    refine ⟨value, operandAt_eq_ok.mpr found, ?_⟩
    rw [known]
    rfl

-----------------------------------------------------------------------------------------
-- Tagged arrays
-----------------------------------------------------------------------------------------

/-- An expression with a tag is read as its tag says. -/
theorem Expr.ofJson_tagged (tag : String) (payload : List Json)
    : Expr.ofJson (.arr (.str tag :: payload))
      = if tag = "get" then return .get (← nameAt tag payload 0)
        else if tag = "optimized-id" then Expr.tileOfJson tag payload
        else if tag = "format" then return .format (← Expr.listOfJson payload)
        else if tag = "embed" then return .embed (← Expr.ofJson (← operandAt tag payload 0))
        else if tag = "block" then return .block (← indexAt tag payload 0)
        else match Builtin.ofWord? tag with
          | some builtin => return .apply builtin (← Operand.listOfJson payload)
          | none => return .unknown tag := by
  cases payload with
  | nil =>
      simp only [Expr.ofJson]
      rfl
  | cons first rest =>
      simp only [Expr.ofJson]
      rfl

/-- Operands are read one after the other. -/
theorem Operand.listOfJson_cons (value : Json) (rest : List Json)
    : Operand.listOfJson (value :: rest)
      = do
          let operand ← Operand.ofJson value
          return operand :: (← Operand.listOfJson rest) := by
  cases value with
  | arr items =>
      cases items with
      | nil => rfl
      | cons head payload =>
          cases head with
          | str tag =>
              simp only [Operand.listOfJson, Operand.ofJson]
              split
              · rfl
              · split <;> rfl
          | _ => rfl
  | _ => rfl

/-- A continuation with a tag is read as its tag says. -/
theorem Branch.ofJson_tagged (tag : String) (payload : List Json)
    : Branch.ofJson (.arr (.str tag :: payload))
      = if tag = "elseif" then do
          let (condition, body) ← guardOfJson tag payload
          return .orElseIf condition body (← Branch.listOfJson (payload.drop 2))
        else if tag = "else" then
          return .orElse (← blockIndexOfJson (← operandAt tag payload 0))
        else .error (.unknownContinuation tag) := by
  cases payload with
  | nil =>
      simp only [Branch.ofJson]
      rfl
  | cons first rest =>
      cases rest with
      | nil =>
          simp only [Branch.ofJson]
          rfl
      | cons second rest =>
          simp only [Branch.ofJson]
          rfl

/-- What a continuation is read from: an `elseif` with its own continuations, or an `else`. -/
theorem Branch.of_ofJson {value : Json} {tree : Branch} (read : Branch.ofJson value = .ok tree)
    : (∃ payload test body nested,
        value = .arr (.str "elseif" :: payload)
        ∧ guardOfJson "elseif" payload = .ok (test, body)
        ∧ Branch.listOfJson (payload.drop 2) = .ok nested
        ∧ tree = .orElseIf test body nested)
      ∨ ∃ payload item body,
          value = .arr (.str "else" :: payload)
          ∧ operandAt "else" payload 0 = .ok item
          ∧ blockIndexOfJson item = .ok body
          ∧ tree = .orElse body := by
  by_cases tagged : ∃ tag payload, value = .arr (.str tag :: payload)
  · obtain ⟨tag, payload, rfl⟩ := tagged
    rw [Branch.ofJson_tagged] at read
    split at read
    · rename_i isFurther
      subst isFurther
      obtain ⟨⟨test, body⟩, guarded, read⟩ := bind_eq_ok.mp read
      obtain ⟨nested, found, read⟩ := bind_eq_ok.mp read
      cases pure_eq_ok.mp read
      exact Or.inl ⟨payload, test, body, nested, rfl, guarded, found, rfl⟩
    · split at read
      · rename_i isLast
        subst isLast
        obtain ⟨item, placed, read⟩ := bind_eq_ok.mp read
        obtain ⟨body, found, read⟩ := bind_eq_ok.mp read
        cases pure_eq_ok.mp read
        exact Or.inr ⟨payload, item, body, rfl, placed, found, rfl⟩
      · cases read
  · simp only [not_exists] at tagged
    unfold Branch.ofJson at read
    split at read
    · exact (tagged _ _ rfl).elim
    · cases read
    · cases read

-----------------------------------------------------------------------------------------
-- Scripts
-----------------------------------------------------------------------------------------

/-- The blocks in the object of a script. -/
def Script.blocksOf (name : String) (object : Json) : Except Defect (List Block) :=
  match object.get? "__blocks" with
  | some (.arr blocks) => blocksOfJson name 0 blocks
  | _ => .ok []

/-- The comments in the object of a script. -/
def Script.commentsOf (object : Json) : List String :=
  match object.get? "__comments" with
  | some (.arr comments) => comments.map commentOfJson
  | _ => []

/-- A script is read from its blocks, its comments and its handlers. -/
theorem Script.ofJson_obj (name : String) (members : List (String × Json))
    : ofJson name (.obj members)
      = do
          let blocks ← blocksOf name (.obj members)
          let handlers ← handlersOfJson (Json.obj members).entries
          return { name, handlers, blocks, comments := commentsOf (.obj members) } := by
  rw [ofJson, blocksOf]
  cases (Json.obj members).get? "__blocks" with
  | none => rfl
  | some found => cases found <;> rfl

/-- The handlers of a script are its members that are events, in order; by induction over the
members.
-/
theorem Script.handlersOfJson_events {members : List (String × Json)} {handlers : List Handler}
    (read : handlersOfJson members = .ok handlers)
    : handlers.map Handler.event
      = (members.map Prod.fst).filter (fun name => !Text.startsWith name "__") := by
  induction members generalizing handlers with
  | nil =>
      cases read
      rfl
  | cons member rest ih =>
      obtain ⟨name, value⟩ := member
      rw [handlersOfJson] at read
      split at read
      · rename_i hidden
        rw [List.map_cons, List.filter_cons_of_neg (by simp [hidden])]
        exact ih read
      · rename_i shown
        obtain ⟨block, -, read⟩ := bind_eq_ok.mp read
        obtain ⟨others, tail, read⟩ := bind_eq_ok.mp read
        cases pure_eq_ok.mp read
        rw [List.map_cons, List.map_cons, List.filter_cons_of_pos (by simp [shown]), ih tail]

theorem Json.keys_sorted (value : Json)
    : (value.entries.map Prod.fst).Pairwise (· < ·) := by
  rw [List.pairwise_map]
  refine Std.TreeMap.ordered_keys_toList.imp ?_
  intro first second less
  exact compareOfLessAndEq_eq_lt.mp less

/-- The events of a script are in order, each of them once. -/
theorem Script.events_sorted {name : String} {data : Json} {script : Script}
    (read : ofJson name data = .ok script)
    : script.events.Pairwise (· < ·) := by
  cases data with
  | obj members =>
      rw [ofJson_obj] at read
      obtain ⟨blocks, -, read⟩ := bind_eq_ok.mp read
      obtain ⟨handlers, found, read⟩ := bind_eq_ok.mp read
      cases pure_eq_ok.mp read
      rw [events, handlersOfJson_events found]
      exact (Json.keys_sorted (.obj members)).filter _
  | null =>
      cases read
      exact .nil
  | _ => cases read

end TileLua
