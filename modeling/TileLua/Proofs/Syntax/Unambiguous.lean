import TileLua.Proofs.Json.CompactTexts
import TileLua.Proofs.Syntax.Encoding

/-! Whatever is read from an export is admissible, so the written form of a tree is unambiguous.
The only trees that need an argument are those with an unknown tag. A tag that is a text is unknown
because none of the known ones matched; any other tag is the JSON text of a value, and no known tag
looks like one.
-/

namespace TileLua

open Decoding

-----------------------------------------------------------------------------------------
-- Tags that are no texts
-----------------------------------------------------------------------------------------

/-- What leads an array is not taken for a word if it is no text. -/
theorem Json.tagText_not_mem {items : List Json} {words : List String}
    (untagged : ∀ tag payload, items ≠ .str tag :: payload)
    (plain : ∀ word ∈ words, word ≠ "" ∧ looksLikeValue word = false)
    : tagText items ∉ words := by
  intro known
  obtain ⟨nonempty, other⟩ := plain _ known
  cases items with
  | nil => exact nonempty rfl
  | cons head payload =>
      have noText : head.asText? = none := by
        cases head with
        | str tag => exact (untagged tag payload rfl).elim
        | _ => rfl
      have shown : tagText (head :: payload) = head.compact := by
        cases head with
        | str tag => cases noText
        | _ => rfl
      rw [shown, looksLikeValue_compact noText] at other
      cases other

theorem Expr.tags_plain : ∀ tag ∈ tags, tag ≠ "" ∧ Json.looksLikeValue tag = false := by
  decide

theorem Operand.shapeTags_plain
    : ∀ tag ∈ shapeTags, tag ≠ "" ∧ Json.looksLikeValue tag = false := by
  decide

theorem Command.tags_plain : ∀ tag ∈ tags, tag ≠ "" ∧ Json.looksLikeValue tag = false := by
  decide

/-- A property holds of every value if it holds of an array whenever it holds of its items. -/
theorem Json.items_induction {holds : Json → Prop}
    (step : ∀ value, (∀ items, value = .arr items → ∀ item ∈ items, holds item) → holds value)
    (value : Json)
    : holds value := by
  apply step
  intro items same item member
  have smaller : sizeOf item < sizeOf value := by
    have inside := List.sizeOf_lt_of_mem member
    rw [same, arr.sizeOf_spec]
    omega
  exact items_induction step item
termination_by sizeOf value

-----------------------------------------------------------------------------------------
-- Expressions
-----------------------------------------------------------------------------------------

theorem Expr.ofJson_untagged {items : List Json}
    (untagged : ∀ tag payload, items ≠ .str tag :: payload)
    : Expr.ofJson (.arr items) = .ok (.unknown (Json.tagText items)) := by
  cases items with
  | nil => rfl
  | cons head payload =>
      cases head with
      | str tag => exact (untagged tag payload rfl).elim
      | _ => rfl

/-- What is read from anything but a tagged array needs no look at its parts. -/
theorem Expr.isAdmissible_of_untagged {value : Json} {tree : Expr}
    (untagged : ∀ tag payload, value ≠ .arr (.str tag :: payload))
    (read : Expr.ofJson value = .ok tree)
    : tree.isAdmissible = true ∧ tree.isShape = false := by
  have unknown {word : String} (other : word ∉ tags) (noShape : word ∉ Operand.shapeTags)
      : (Expr.unknown word).isAdmissible = true ∧ (Expr.unknown word).isShape = false := by
    simp [isAdmissible, isShape, other, noShape]
  cases value with
  | null | float _ | str _ =>
      cases read
      exact ⟨rfl, rfl⟩
  | bool value =>
      cases read
      cases value
      · exact unknown (by decide) (by decide)
      · exact unknown (by decide) (by decide)
  | int value =>
      cases read
      unfold Expr.ofInt
      cases (Json.int value).asWord? <;> exact ⟨rfl, rfl⟩
  | arr items =>
      have leading : ∀ tag payload, items ≠ .str tag :: payload := by
        intro tag payload same
        exact untagged tag payload (congrArg Json.arr same)
      rw [Expr.ofJson_untagged leading] at read
      cases read
      exact unknown (Json.tagText_not_mem leading tags_plain)
        (Json.tagText_not_mem leading Operand.shapeTags_plain)
  | obj members =>
      cases read
      exact unknown (by decide) (by decide)

/-- What a tagged array can be read as, with the parts that are read for it. -/
inductive Expr.ReadTagged (tag : String) (payload : List Json) : Expr → Prop
  | get (name : String) : ReadTagged tag payload (.get name)
  | tile (id : Int64) (name : String) : ReadTagged tag payload (.tile id name)
  | format {parts : List Expr} (found : Expr.listOfJson payload = .ok parts)
    : ReadTagged tag payload (.format parts)
  | embed {item : Json} {content : Expr} (member : item ∈ payload)
    (found : Expr.ofJson item = .ok content)
    : ReadTagged tag payload (.embed content)
  | block (index : Nat) : ReadTagged tag payload (.block index)
  | apply (builtin : Builtin) {operands : List Operand}
    (found : Operand.listOfJson payload = .ok operands)
    : ReadTagged tag payload (.apply builtin operands)
  | unknown (unlisted : tag ∉ tags) : ReadTagged tag payload (.unknown tag)

/-- Reading a tagged array, one case for each form. -/
theorem Expr.readTagged_of_ofJson {tag : String} {payload : List Json} {tree : Expr}
    (read : Expr.ofJson (.arr (.str tag :: payload)) = .ok tree)
    : ReadTagged tag payload tree := by
  by_cases form : tag ∈ formTags
  · simp only [formTags, List.mem_cons, List.not_mem_nil, or_false] at form
    rcases form with rfl | rfl | rfl | rfl | rfl
      <;> simp only [Expr.ofJson_tagged, String.reduceEq, ↓reduceIte] at read
    · obtain ⟨name, -, read⟩ := bind_eq_ok.mp read
      cases pure_eq_ok.mp read
      exact .get name
    · obtain ⟨value, -, read⟩ := bind_eq_ok.mp read
      cases known : value.asWord? with
      | none =>
          rw [known] at read
          cases read
      | some id =>
          rw [known] at read
          obtain ⟨name, -, read⟩ := bind_eq_ok.mp read
          cases pure_eq_ok.mp read
          exact .tile id name
    · obtain ⟨parts, found, read⟩ := bind_eq_ok.mp read
      cases pure_eq_ok.mp read
      exact .format found
    · obtain ⟨item, place, read⟩ := bind_eq_ok.mp read
      obtain ⟨content, found, read⟩ := bind_eq_ok.mp read
      cases pure_eq_ok.mp read
      exact .embed (List.mem_of_getElem? (operandAt_eq_ok.mp place)) found
    · obtain ⟨index, -, read⟩ := bind_eq_ok.mp read
      cases pure_eq_ok.mp read
      exact .block index
  · rw [Expr.ofJson_of_not_form form] at read
    cases known : Builtin.ofWord? tag with
    | some builtin =>
        rw [known] at read
        obtain ⟨operands, found, read⟩ := bind_eq_ok.mp read
        cases pure_eq_ok.mp read
        exact .apply builtin found
    | none =>
        rw [known] at read
        cases pure_eq_ok.mp read
        have unlisted := find_word_eq_none.mp known
        refine .unknown ?_
        rw [tags, List.mem_append, not_or]
        exact ⟨form, unlisted⟩

/-- An expression is not taken for a point or an area unless it was tagged as one. -/
theorem Expr.isShape_of_ofJson {value : Json} {tree : Expr}
    (noShape : ∀ tag payload, value = .arr (.str tag :: payload) → tag ∉ Operand.shapeTags)
    (read : Expr.ofJson value = .ok tree)
    : tree.isShape = false := by
  by_cases tagged : ∃ tag payload, value = .arr (.str tag :: payload)
  · obtain ⟨tag, payload, rfl⟩ := tagged
    cases readTagged_of_ofJson read with
    | unknown => simpa [isShape] using noShape tag payload rfl
    | _ => rfl
  · simp only [not_exists] at tagged
    exact (isAdmissible_of_untagged tagged read).2

/-- Whether reading a value, as an expression or as an operand, gives admissible trees only. -/
structure Json.ReadsAdmissible (value : Json) : Prop where
  expr : ∀ tree, Expr.ofJson value = .ok tree → tree.isAdmissible = true
  operand : ∀ operand, Operand.ofJson value = .ok operand → operand.isAdmissible = true

theorem Expr.areAdmissible_of_listOfJson {values : List Json} {trees : List Expr}
    (each : ∀ value ∈ values, value.ReadsAdmissible)
    (read : Expr.listOfJson values = .ok trees)
    : Expr.areAdmissible trees = true := by
  induction values generalizing trees with
  | nil =>
      cases read
      rfl
  | cons value rest ih =>
      obtain ⟨first, head, read⟩ := bind_eq_ok.mp read
      obtain ⟨others, tail, read⟩ := bind_eq_ok.mp read
      cases pure_eq_ok.mp read
      rw [Expr.areAdmissible, Bool.and_eq_true]
      exact ⟨(each value List.mem_cons_self).expr first head,
        ih (fun item member => each item (List.mem_cons_of_mem value member)) tail⟩

theorem Operand.areAdmissible_of_listOfJson {values : List Json} {operands : List Operand}
    (each : ∀ value ∈ values, value.ReadsAdmissible)
    (read : Operand.listOfJson values = .ok operands)
    : Operand.areAdmissible operands = true := by
  induction values generalizing operands with
  | nil =>
      cases read
      rfl
  | cons value rest ih =>
      rw [Operand.listOfJson_cons] at read
      obtain ⟨first, head, read⟩ := bind_eq_ok.mp read
      obtain ⟨others, tail, read⟩ := bind_eq_ok.mp read
      cases pure_eq_ok.mp read
      rw [Operand.areAdmissible, Bool.and_eq_true]
      exact ⟨(each value List.mem_cons_self).operand first head,
        ih (fun item member => each item (List.mem_cons_of_mem value member)) tail⟩

theorem Expr.isAdmissible_of_tagged {tag : String} {payload : List Json} {tree : Expr}
    (each : ∀ item ∈ payload, item.ReadsAdmissible)
    (read : Expr.ofJson (.arr (.str tag :: payload)) = .ok tree)
    : tree.isAdmissible = true := by
  cases readTagged_of_ofJson read with
  | get | tile | block => rfl
  | format found =>
      rw [isAdmissible]
      exact areAdmissible_of_listOfJson each found
  | embed member found =>
      rw [isAdmissible]
      exact (each _ member).expr _ found
  | apply builtin found =>
      rw [isAdmissible]
      exact Operand.areAdmissible_of_listOfJson each found
  | unknown unlisted => simpa [isAdmissible] using unlisted

theorem Operand.isAdmissible_of_point {payload : List Json} {operand : Operand}
    (each : ∀ item ∈ payload, item.ReadsAdmissible)
    (read : Operand.pointOfJson payload = .ok operand)
    : operand.isAdmissible = true := by
  rcases payload with _ | ⟨x, _ | ⟨y, rest⟩⟩
  · cases read
  · obtain ⟨_, _, read⟩ := bind_eq_ok.mp read
    cases read
  · obtain ⟨left, foundLeft, read⟩ := bind_eq_ok.mp read
    obtain ⟨top, foundTop, read⟩ := bind_eq_ok.mp read
    cases pure_eq_ok.mp read
    rw [isAdmissible, Bool.and_eq_true]
    exact ⟨(each x (by simp)).expr left foundLeft, (each y (by simp)).expr top foundTop⟩

theorem Operand.isAdmissible_of_area {payload : List Json} {operand : Operand}
    (each : ∀ item ∈ payload, item.ReadsAdmissible)
    (read : Operand.areaOfJson payload = .ok operand)
    : operand.isAdmissible = true := by
  rcases payload with _ | ⟨x, _ | ⟨y, _ | ⟨width, rest⟩⟩⟩
  · cases read
  · obtain ⟨_, _, read⟩ := bind_eq_ok.mp read
    cases read
  · obtain ⟨_, _, read⟩ := bind_eq_ok.mp read
    obtain ⟨_, _, read⟩ := bind_eq_ok.mp read
    cases read
  · rw [areaOfJson] at read
    obtain ⟨left, foundLeft, read⟩ := bind_eq_ok.mp read
    obtain ⟨top, foundTop, read⟩ := bind_eq_ok.mp read
    obtain ⟨extent, foundExtent, read⟩ := bind_eq_ok.mp read
    have corner := (each x (by simp)).expr left foundLeft
    have side := (each y (by simp)).expr top foundTop
    have across := (each width (by simp)).expr extent foundExtent
    rcases rest with _ | ⟨height, rest⟩
    · cases pure_eq_ok.mp read
      simp only [isAdmissible, corner, side, across, Bool.and_self]
    · obtain ⟨depth, foundDepth, read⟩ := bind_eq_ok.mp read
      have down := (each height (by simp)).expr depth foundDepth
      cases pure_eq_ok.mp read
      simp only [isAdmissible, corner, side, across, down, Bool.and_self]

/-- An operand that is no point and no area is an expression that is not taken for one. -/
theorem Operand.isAdmissible_of_value {value : Json} {operand : Operand}
    (whole : ∀ tree, Expr.ofJson value = .ok tree → tree.isAdmissible = true)
    (noShape : ∀ tag payload, value = .arr (.str tag :: payload) → tag ∉ shapeTags)
    (read : Operand.value <$> Expr.ofJson value = .ok operand)
    : operand.isAdmissible = true := by
  obtain ⟨tree, found, rfl⟩ := map_eq_ok.mp read
  rw [isAdmissible, whole tree found, Expr.isShape_of_ofJson noShape found]
  rfl

/-- Reading gives admissible expressions and operands only, by induction over the value. -/
theorem Json.readsAdmissible (value : Json) : value.ReadsAdmissible := by
  -- Operands go along with expressions, since a function is an expression with operands.
  induction value using Json.items_induction with
  | step value inner =>
    by_cases tagged : ∃ tag payload, value = .arr (.str tag :: payload)
    · obtain ⟨tag, payload, rfl⟩ := tagged
      have each : ∀ item ∈ payload, item.ReadsAdmissible := by
        intro item member
        exact inner _ rfl item (List.mem_cons_of_mem _ member)
      have whole : ∀ tree, Expr.ofJson (.arr (.str tag :: payload)) = .ok tree
          → tree.isAdmissible = true := by
        intro tree read
        exact Expr.isAdmissible_of_tagged each read
      refine ⟨whole, ?_⟩
      intro operand read
      rw [Operand.ofJson] at read
      split at read
      · exact Operand.isAdmissible_of_point each read
      · split at read
        · exact Operand.isAdmissible_of_area each read
        · rename_i noPoint noArea
          refine Operand.isAdmissible_of_value whole ?_ read
          intro other rest same
          cases same
          simp [Operand.shapeTags, noPoint, noArea]
    · simp only [not_exists] at tagged
      have whole : ∀ tree, Expr.ofJson value = .ok tree → tree.isAdmissible = true := by
        intro tree read
        exact (Expr.isAdmissible_of_untagged tagged read).1
      refine ⟨whole, ?_⟩
      intro operand read
      have plain : Operand.ofJson value = Operand.value <$> Expr.ofJson value := by
        unfold Operand.ofJson
        split
        · exact (tagged _ _ rfl).elim
        · rfl
      rw [plain] at read
      refine Operand.isAdmissible_of_value whole ?_ read
      intro tag payload same
      exact (tagged tag payload same).elim

-----------------------------------------------------------------------------------------
-- Commands
-----------------------------------------------------------------------------------------

/-- Only a text is read as one. -/
theorem Expr.isBareToken_of_ofJson {value : Json} {tree : Expr} (noText : value.asText? = none)
    (read : Expr.ofJson value = .ok tree)
    : tree.isBareToken = false := by
  cases value with
  | null | float _ | obj _ | bool _ =>
      cases read
      rfl
  | str text => cases noText
  | int value =>
      cases read
      unfold Expr.ofInt
      cases (Json.int value).asWord? <;> rfl
  | arr items =>
      by_cases tagged : ∃ tag payload, items = .str tag :: payload
      · obtain ⟨tag, payload, rfl⟩ := tagged
        cases readTagged_of_ofJson read <;> rfl
      · simp only [not_exists] at tagged
        rw [Expr.ofJson_untagged tagged] at read
        cases read
        rfl

theorem Condition.isAdmissible_of_left {value : Json} {tree : Expr}
    (read : leftOfJson value = .ok tree)
    : tree.isAdmissible = true ∧ tree.isBareToken = false := by
  cases value with
  | str text =>
      cases read
      split
      · exact ⟨rfl, rfl⟩
      · rename_i noToken
        exact ⟨rfl, Bool.eq_false_iff.mpr noToken⟩
  | _ => exact ⟨(Json.readsAdmissible _).expr _ read, Expr.isBareToken_of_ofJson rfl read⟩

theorem Condition.isAdmissible_of_ofJson {value : Json} {condition : Condition}
    (read : Condition.ofJson value = .ok condition)
    : condition.isAdmissible = true := by
  cases value with
  | arr items =>
      rw [Condition.ofJson] at read
      cases known : Comparison.ofTag? (Json.tagText items) with
      | none =>
          simp only [known] at read
          cases read
      | some comparison =>
          simp only [known] at read
          obtain ⟨_, -, read⟩ := bind_eq_ok.mp read
          obtain ⟨left, foundLeft, read⟩ := bind_eq_ok.mp read
          obtain ⟨item, -, read⟩ := bind_eq_ok.mp read
          obtain ⟨right, foundRight, read⟩ := bind_eq_ok.mp read
          cases pure_eq_ok.mp read
          have plain := isAdmissible_of_left foundLeft
          rw [isAdmissible, plain.1, plain.2, item.readsAdmissible.expr right foundRight]
          rfl
  | _ => cases read

theorem isAdmissible_of_guardOfJson {tag : String} {payload : List Json} {condition : Condition}
    {body : Nat} (read : guardOfJson tag payload = .ok (condition, body))
    : condition.isAdmissible = true := by
  obtain ⟨_, -, read⟩ := bind_eq_ok.mp read
  obtain ⟨_, found, read⟩ := bind_eq_ok.mp read
  obtain ⟨_, -, read⟩ := bind_eq_ok.mp read
  obtain ⟨_, -, read⟩ := bind_eq_ok.mp read
  cases pure_eq_ok.mp read
  exact Condition.isAdmissible_of_ofJson found

theorem Branch.areAdmissible_of_each {values : List Json} {branches : List Branch}
    (each : ∀ value ∈ values, ∀ branch, Branch.ofJson value = .ok branch
      → branch.isAdmissible = true)
    (read : Branch.listOfJson values = .ok branches)
    : Branch.areAdmissible branches = true := by
  induction values generalizing branches with
  | nil =>
      cases read
      rfl
  | cons value rest ih =>
      obtain ⟨first, head, read⟩ := bind_eq_ok.mp read
      obtain ⟨others, tail, read⟩ := bind_eq_ok.mp read
      cases pure_eq_ok.mp read
      rw [areAdmissible, Bool.and_eq_true]
      exact ⟨each value List.mem_cons_self first head,
        ih (fun item member => each item (List.mem_cons_of_mem value member)) tail⟩

/-- Continuations are read as admissible ones, by induction over their nesting. -/
theorem Branch.isAdmissible_of_ofJson (value : Json)
    : ∀ branch, Branch.ofJson value = .ok branch → branch.isAdmissible = true := by
  induction value using Json.items_induction with
  | step value inner =>
    intro branch read
    rcases Branch.of_ofJson read with further | last
    · obtain ⟨payload, test, body, nested, rfl, guarded, found, rfl⟩ := further
      rw [isAdmissible, Bool.and_eq_true]
      refine ⟨isAdmissible_of_guardOfJson guarded, areAdmissible_of_each ?_ found⟩
      intro item member
      exact inner _ rfl item (List.mem_cons_of_mem _ (List.mem_of_mem_drop member))
    · obtain ⟨_, _, _, -, -, -, rfl⟩ := last
      rfl

theorem Callee.isAdmissible_of_ofJson {value : Json} {callee : Callee}
    (read : Callee.ofJson value = .ok callee)
    : callee.isAdmissible = true := by
  have computed {value : Json} (noText : value.asText? = none)
      (read : Callee.computed <$> Expr.ofJson value = .ok callee)
      : callee.isAdmissible = true := by
    obtain ⟨event, found, rfl⟩ := map_eq_ok.mp read
    rw [isAdmissible, value.readsAdmissible.expr event found,
      Expr.isBareToken_of_ofJson noText found]
    rfl
  cases value with
  | str text =>
      cases read
      split
      · rename_i token
        exact token
      · rename_i noToken
        simp [isAdmissible, Expr.isAdmissible, Expr.isBareToken, noToken]
  | _ => exact computed rfl read

theorem Command.isAdmissible_of_random {payload : List Json} {command : Command}
    (read : randomOfJson payload = .ok command)
    : command.isAdmissible = true := by
  unfold randomOfJson at read
  split at read
  · obtain ⟨low, foundLow, read⟩ := bind_eq_ok.mp read
    cases pure_eq_ok.mp read
    rw [isAdmissible]
    exact (Json.readsAdmissible _).expr low foundLow
  · obtain ⟨low, foundLow, read⟩ := bind_eq_ok.mp read
    obtain ⟨high, foundHigh, read⟩ := bind_eq_ok.mp read
    cases pure_eq_ok.mp read
    rw [isAdmissible, Bool.and_eq_true]
    exact ⟨(Json.readsAdmissible _).expr low foundLow, (Json.readsAdmissible _).expr high foundHigh⟩
  · cases read

/-- A tag that is no assignment gives an admissible command, one case for each form. -/
theorem Command.isAdmissible_of_ofTagged {tag : String} {payload : List Json} {command : Command}
    (other : tag ∉ Assignment.all.map Assignment.tag)
    (read : ofTagged tag payload = .ok command)
    : command.isAdmissible = true := by
  by_cases form : tag ∈ formTags
  · simp only [formTags, List.mem_cons, List.not_mem_nil, or_false] at form
    rcases form with rfl | rfl | rfl | rfl | rfl | rfl | rfl | rfl | rfl | rfl | rfl | rfl | rfl
      <;> simp only [ofTagged, String.reduceEq, ↓reduceIte] at read
    · cases read
      rfl
    · cases read
      rfl
    · obtain ⟨_, -, read⟩ := bind_eq_ok.mp read
      cases pure_eq_ok.mp read
      rfl
    · obtain ⟨_, -, read⟩ := bind_eq_ok.mp read
      cases pure_eq_ok.mp read
      rfl
    · exact isAdmissible_of_random read
    · obtain ⟨⟨condition, body⟩, guarded, read⟩ := bind_eq_ok.mp read
      obtain ⟨branches, found, read⟩ := bind_eq_ok.mp read
      cases pure_eq_ok.mp read
      rw [isAdmissible, Bool.and_eq_true]
      exact ⟨isAdmissible_of_guardOfJson guarded,
        Branch.areAdmissible_of_each (fun item _ => Branch.isAdmissible_of_ofJson item) found⟩
    · split at read
      · cases read
      · obtain ⟨⟨condition, body⟩, guarded, read⟩ := bind_eq_ok.mp read
        cases pure_eq_ok.mp read
        exact isAdmissible_of_guardOfJson guarded
    · obtain ⟨_, -, read⟩ := bind_eq_ok.mp read
      obtain ⟨callee, found, read⟩ := bind_eq_ok.mp read
      cases pure_eq_ok.mp read
      exact Callee.isAdmissible_of_ofJson found
    · obtain ⟨item, -, read⟩ := bind_eq_ok.mp read
      obtain ⟨event, found, read⟩ := bind_eq_ok.mp read
      cases pure_eq_ok.mp read
      exact item.readsAdmissible.expr event found
    · obtain ⟨item, -, read⟩ := bind_eq_ok.mp read
      obtain ⟨target, found, read⟩ := bind_eq_ok.mp read
      cases pure_eq_ok.mp read
      exact item.readsAdmissible.expr target found
    · obtain ⟨item, -, read⟩ := bind_eq_ok.mp read
      obtain ⟨target, found, read⟩ := bind_eq_ok.mp read
      obtain ⟨operands, others, read⟩ := bind_eq_ok.mp read
      cases pure_eq_ok.mp read
      rw [isAdmissible, Bool.and_eq_true]
      exact ⟨item.readsAdmissible.operand target found,
        Operand.areAdmissible_of_listOfJson (fun item _ => item.readsAdmissible) others⟩
    · obtain ⟨_, -, read⟩ := bind_eq_ok.mp read
      cases pure_eq_ok.mp read
      rfl
    · obtain ⟨_, -, read⟩ := bind_eq_ok.mp read
      cases pure_eq_ok.mp read
      rfl
  · rw [ofTagged_of_not_form form] at read
    cases known : Verb.ofWord? tag with
    | some verb =>
        rw [known] at read
        obtain ⟨operands, found, read⟩ := bind_eq_ok.mp read
        cases pure_eq_ok.mp read
        rw [isAdmissible]
        exact Operand.areAdmissible_of_listOfJson (fun item _ => item.readsAdmissible) found
    | none =>
        rw [known] at read
        cases read
        have unlisted := find_word_eq_none.mp known
        simp [isAdmissible, tags, other, form, unlisted]

/-- Commands are read as admissible ones. -/
theorem Command.isAdmissible_of_ofJson {value : Json} {command : Command}
    (read : Command.ofJson? value = .ok (some command))
    : command.isAdmissible = true := by
  unfold Command.ofJson? at read
  split at read
  · rename_i tag payload
    cases known : Assignment.ofTag? tag with
    | some assignment =>
        rw [known] at read
        obtain ⟨target, -, read⟩ := bind_eq_ok.mp read
        obtain ⟨item, -, read⟩ := bind_eq_ok.mp read
        obtain ⟨content, found, read⟩ := bind_eq_ok.mp read
        cases pure_eq_ok.mp read
        exact item.readsAdmissible.expr content found
    | none =>
        rw [known] at read
        obtain ⟨_, found, same⟩ := map_eq_ok.mp read
        cases same
        exact isAdmissible_of_ofTagged (find_word_eq_none.mp known) found
  · rename_i items untagged
    cases read
    have unknown : Json.tagText items ∉ tags := Json.tagText_not_mem untagged tags_plain
    simp [isAdmissible, unknown]
  · cases read

-----------------------------------------------------------------------------------------
-- Unambiguous encodings
-----------------------------------------------------------------------------------------

/-- Trees are written unambiguously: the admissible ones are those that can be read, each of them is
read back from what is written for it, and no two of them are written alike.
-/
structure Unambiguous {α : Type} (reads : Json → α → Prop) (write : α → Json)
    (isAdmissible : α → Bool) : Prop where
  read_back : ∀ tree, isAdmissible tree = true → reads (write tree) tree
  admissible_of_read : ∀ value tree, reads value tree → isAdmissible tree = true
  reread : ∀ value tree, reads value tree → reads (write tree) tree
  write_injective : ∀ first second, isAdmissible first = true → isAdmissible second = true
    → write first = write second → first = second

/-- A value is read as one tree at most, so reading back tells trees apart. -/
theorem Unambiguous.of_read_back {α : Type} {reads : Json → α → Prop} {write : α → Json}
    {isAdmissible : α → Bool}
    (functional : ∀ value first second, reads value first → reads value second → first = second)
    (read_back : ∀ tree, isAdmissible tree = true → reads (write tree) tree)
    (admissible_of_read : ∀ value tree, reads value tree → isAdmissible tree = true)
    : Unambiguous reads write isAdmissible where
  read_back := read_back
  admissible_of_read := admissible_of_read
  reread := by
    intro value tree read
    exact read_back tree (admissible_of_read value tree read)
  write_injective := by
    intro first second admissible admissible' same
    have read := read_back first admissible
    rw [same] at read
    exact functional _ first second read (read_back second admissible')

/-- Expressions, call operands, conditions, continuations and commands are written unambiguously. -/
theorem trees_are_unambiguous
    : Unambiguous (fun value tree => Expr.ofJson value = .ok tree) Expr.toJson Expr.isAdmissible
      ∧ Unambiguous (fun value operand => Operand.ofJson value = .ok operand) Operand.toJson
          Operand.isAdmissible
      ∧ Unambiguous (fun value condition => Condition.ofJson value = .ok condition)
          Condition.toJson Condition.isAdmissible
      ∧ Unambiguous (fun value branch => Branch.ofJson value = .ok branch) Branch.toJson
          Branch.isAdmissible
      ∧ Unambiguous (fun value command => Command.ofJson? value = .ok (some command))
          Command.toJson Command.isAdmissible := by
  have unique {α : Type} {result : Except Defect α} {first second : α}
      (read : result = .ok first) (read' : result = .ok second)
      : first = second :=
    Except.ok.inj (read.symm.trans read')
  refine ⟨?_, ?_, ?_, ?_, ?_⟩
  · exact Unambiguous.of_read_back (fun _ _ _ => unique) Expr.ofJson_toJson
      (fun value => value.readsAdmissible.expr)
  · exact Unambiguous.of_read_back (fun _ _ _ => unique) Operand.ofJson_toJson
      (fun value => value.readsAdmissible.operand)
  · exact Unambiguous.of_read_back (fun _ _ _ => unique)
      (fun _ => Condition.ofJson_toJson) (fun _ _ => Condition.isAdmissible_of_ofJson)
  · exact Unambiguous.of_read_back (fun _ _ _ => unique) Branch.ofJson_toJson
      Branch.isAdmissible_of_ofJson
  · exact Unambiguous.of_read_back
      (fun _ _ _ read read' => Option.some.inj (unique read read'))
      (fun _ => Command.ofJson_toJson) (fun _ _ => Command.isAdmissible_of_ofJson)

-- Without admissibility, two commands can be written alike.
example : (Command.unknown "done").toJson = Command.done.toJson := rfl

/-- A command in which tags and texts mean different things by their place: a text that is no token
on the left of a condition, a text that is one on the right, and a continuation of a
continuation.
-/
def nestedChoice : Command :=
  .choose { comparison := .less, left := .str "two words", right := .str "token" } 0
    [.orElseIf { comparison := .equal, left := .get "xy", right := .unknown "xy" } 1
      [.orElse 2],
     .orElse 3]

/-- A command whose operands are a point, an area and an expression with a tag of no place. -/
def placedOperands : Command :=
  .perform .say
    [.point (.unknown "rect") (.int 3), .area .nil (.str "rect") (.float 0.5) none,
     .value (.apply .floor [.value (.unknown "say")])]

theorem placed_trees_read_back
    : Command.ofJson? nestedChoice.toJson = .ok (some nestedChoice)
      ∧ Command.ofJson? placedOperands.toJson = .ok (some placedOperands) :=
  ⟨trees_are_unambiguous.2.2.2.2.read_back nestedChoice (by decide),
    trees_are_unambiguous.2.2.2.2.read_back placedOperands (by decide)⟩

end TileLua
