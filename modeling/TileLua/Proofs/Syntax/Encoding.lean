import TileLua.Proofs.Syntax.Reading

/-! The trees of scripts as an export writes them, and which of them can be read back.
What a tag or a text means depends on where it stands: points and areas are call operands only, and
a bare token is a variable on the left of a condition and an event in a call. A tree is admissible
if no unknown tag and no text in it would be known in its place as something else. Admissible trees
are read back from what is written for them.
-/

namespace TileLua

open Decoding

-----------------------------------------------------------------------------------------
-- Words and tags
-----------------------------------------------------------------------------------------

theorem Comparison.ofTag_tag (comparison : Comparison)
    : ofTag? comparison.tag = some comparison := by
  cases comparison <;> rfl

theorem Assignment.ofTag_tag (assignment : Assignment)
    : ofTag? assignment.tag = some assignment := by
  cases assignment <;> rfl

theorem Verb.ofWord_word (verb : Verb) : ofWord? verb.word = some verb := by
  cases verb <;> rfl

theorem Builtin.ofWord_word (builtin : Builtin) : ofWord? builtin.word = some builtin := by
  cases builtin <;> rfl

/-- A word is that of nothing exactly if it is not listed. -/
theorem find_word_eq_none {α : Type} {all : List α} {word : α → String} {other : String}
    : all.find? (fun item => word item == other) = none ↔ other ∉ all.map word := by
  rw [List.find?_eq_none]
  constructor
  · intro differ listed
    obtain ⟨item, member, same⟩ := List.mem_map.mp listed
    exact differ item member (beq_iff_eq.mpr same)
  · intro unlisted item member same
    exact unlisted (List.mem_map.mpr ⟨item, member, eq_of_beq same⟩)

/-- The tags of expressions that are no functions. -/
def Expr.formTags : List String :=
  ["get", "optimized-id", "format", "embed", "block"]

/-- The tags that are known where an expression stands. -/
def Expr.tags : List String :=
  formTags ++ Builtin.all.map Builtin.word

/-- The tags of call operands that are no expressions. -/
def Operand.shapeTags : List String :=
  ["xy", "rect"]

/-- The tags of commands that are neither assignments nor built-in verbs. -/
def Command.formTags : List String :=
  ["_", "done", "inc", "dec", "random", "if", "while", "call", "emit", "mimic", "tell", "#", "#$"]

/-- The tags that are known where a command stands. -/
def Command.tags : List String :=
  Assignment.all.map Assignment.tag ++ formTags ++ Verb.all.map Verb.word

-----------------------------------------------------------------------------------------
-- Writing
-----------------------------------------------------------------------------------------

/-- A reference to a block. -/
def blockToJson (index : Nat) : Json :=
  .arr [.str "block", .int index]

mutual

/-- An expression as it is written. Literals stand for themselves. -/
def Expr.toJson : Expr → Json
  | .str text => .str text
  | .int value => .int value.toInt
  | .float value => .float value
  | .nil => .null
  | .get name => .arr [.str "get", .str name]
  | .tile id name => .arr [.str "optimized-id", .int id.toInt, .str name]
  | .format parts => .arr (.str "format" :: Expr.listToJson parts)
  | .embed content => .arr [.str "embed", content.toJson]
  | .apply builtin operands => .arr (.str builtin.word :: Operand.listToJson operands)
  | .block index => blockToJson index
  | .unknown tag => .arr [.str tag]

def Expr.listToJson : List Expr → List Json
  | [] => []
  | first :: rest => first.toJson :: Expr.listToJson rest

/-- A call operand as it is written. -/
def Operand.toJson : Operand → Json
  | .point x y => .arr [.str "xy", x.toJson, y.toJson]
  | .area x y width none => .arr [.str "rect", x.toJson, y.toJson, width.toJson]
  | .area x y width (some height) =>
      .arr [.str "rect", x.toJson, y.toJson, width.toJson, height.toJson]
  | .value content => content.toJson

def Operand.listToJson : List Operand → List Json
  | [] => []
  | first :: rest => first.toJson :: Operand.listToJson rest

end

/-- A condition as it is written. -/
def Condition.toJson (condition : Condition) : Json :=
  .arr [.str condition.comparison.tag, condition.left.toJson, condition.right.toJson]

mutual

/-- A continuation of an `if` as it is written. -/
def Branch.toJson : Branch → Json
  | .orElseIf condition body branches =>
      .arr (.str "elseif" :: condition.toJson :: blockToJson body :: Branch.listToJson branches)
  | .orElse body => .arr [.str "else", blockToJson body]

def Branch.listToJson : List Branch → List Json
  | [] => []
  | first :: rest => first.toJson :: Branch.listToJson rest

end

/-- What a call names as it is written. -/
def Callee.toJson : Callee → Json
  | .name event => .str event
  | .computed event => event.toJson

/-- A command as it is written. -/
def Command.toJson : Command → Json
  | .blank => .arr [.str "_"]
  | .done => .arr [.str "done"]
  | .assign assignment target value =>
      .arr [.str assignment.tag, .str target, value.toJson]
  | .inc name => .arr [.str "inc", .str name]
  | .dec name => .arr [.str "dec", .str name]
  | .random low none => .arr [.str "random", low.toJson]
  | .random low (some high) => .arr [.str "random", low.toJson, high.toJson]
  | .choose condition body branches =>
      .arr (.str "if" :: condition.toJson :: blockToJson body :: Branch.listToJson branches)
  | .repeatWhile condition body => .arr [.str "while", condition.toJson, blockToJson body]
  | .call callee => .arr [.str "call", callee.toJson]
  | .emit event => .arr [.str "emit", event.toJson]
  | .mimic target => .arr [.str "mimic", target.toJson]
  | .tell target rest => .arr (.str "tell" :: target.toJson :: Operand.listToJson rest)
  | .perform verb operands => .arr (.str verb.word :: Operand.listToJson operands)
  | .comment index false => .arr [.str "#", .int index]
  | .comment index true => .arr [.str "#$", .int index]
  | .unknown tag => .arr [.str tag]

-----------------------------------------------------------------------------------------
-- Admissible trees
-----------------------------------------------------------------------------------------

/-- Whether an expression would be taken for a point or an area where a call operand stands. -/
def Expr.isShape : Expr → Bool
  | .unknown tag => Operand.shapeTags.contains tag
  | _ => false

/-- Whether an expression is a text that is a single token. -/
def Expr.isBareToken : Expr → Bool
  | .str text => Lua.isToken text
  | _ => false

mutual

/-- Whether no unknown tag in an expression is known where it stands. -/
def Expr.isAdmissible : Expr → Bool
  | .str _ => true
  | .int _ => true
  | .float _ => true
  | .nil => true
  | .get _ => true
  | .tile _ _ => true
  | .format parts => Expr.areAdmissible parts
  | .embed content => content.isAdmissible
  | .apply _ operands => Operand.areAdmissible operands
  | .block _ => true
  | .unknown tag => !Expr.tags.contains tag

def Expr.areAdmissible : List Expr → Bool
  | [] => true
  | first :: rest => first.isAdmissible && Expr.areAdmissible rest

/-- Whether no unknown tag in a call operand is known where it stands. -/
def Operand.isAdmissible : Operand → Bool
  | .point x y => x.isAdmissible && y.isAdmissible
  | .area x y width none => x.isAdmissible && y.isAdmissible && width.isAdmissible
  | .area x y width (some height) =>
      x.isAdmissible && y.isAdmissible && width.isAdmissible && height.isAdmissible
  | .value content => content.isAdmissible && !content.isShape

def Operand.areAdmissible : List Operand → Bool
  | [] => true
  | first :: rest => first.isAdmissible && Operand.areAdmissible rest

end

/-- Whether a condition is admissible: on its left, a bare token would be a variable. -/
def Condition.isAdmissible (condition : Condition) : Bool :=
  condition.left.isAdmissible && !condition.left.isBareToken && condition.right.isAdmissible

mutual

def Branch.isAdmissible : Branch → Bool
  | .orElseIf condition _ branches => condition.isAdmissible && Branch.areAdmissible branches
  | .orElse _ => true

def Branch.areAdmissible : List Branch → Bool
  | [] => true
  | first :: rest => first.isAdmissible && Branch.areAdmissible rest

end

/-- Whether what a call names is admissible: a bare token is the event itself, and nothing else
is.
-/
def Callee.isAdmissible : Callee → Bool
  | .name event => Lua.isToken event
  | .computed event => event.isAdmissible && !event.isBareToken

/-- Whether a command is admissible. -/
def Command.isAdmissible : Command → Bool
  | .blank => true
  | .done => true
  | .assign _ _ value => value.isAdmissible
  | .inc _ => true
  | .dec _ => true
  | .random low none => low.isAdmissible
  | .random low (some high) => low.isAdmissible && high.isAdmissible
  | .choose condition _ branches => condition.isAdmissible && Branch.areAdmissible branches
  | .repeatWhile condition _ => condition.isAdmissible
  | .call callee => callee.isAdmissible
  | .emit event => event.isAdmissible
  | .mimic target => target.isAdmissible
  | .tell target rest => target.isAdmissible && Operand.areAdmissible rest
  | .perform _ operands => Operand.areAdmissible operands
  | .comment _ _ => true
  | .unknown tag => !Command.tags.contains tag

-----------------------------------------------------------------------------------------
-- Reading expressions back
-----------------------------------------------------------------------------------------

theorem Json.asWord_toInt (word : Int64) : (Json.int word.toInt).asWord? = some word := by
  rw [Json.asWord?, if_pos ⟨word.minValue_le_toInt, word.toInt_le⟩, Int64.ofInt_toInt]

theorem Json.asIndex_natCast (index : Nat) : (Json.int index).asIndex? = some index := by
  rw [Json.asIndex?, if_pos (Int.natCast_nonneg index), Int.toNat_natCast]

theorem indexAt_natCast (tag : String) (index : Nat) (rest : List Json)
    : indexAt tag (.int index :: rest) 0 = .ok index :=
  indexAt_eq_ok.mpr ⟨_, rfl, Json.asIndex_natCast index⟩

/-- A tag of no form is that of a function, or unknown. -/
theorem Expr.ofJson_of_not_form {tag : String} (other : tag ∉ formTags) (payload : List Json)
    : Expr.ofJson (.arr (.str tag :: payload))
      = match Builtin.ofWord? tag with
        | some builtin => return .apply builtin (← Operand.listOfJson payload)
        | none => return .unknown tag := by
  simp only [formTags, List.mem_cons, List.not_mem_nil, or_false, not_or] at other
  obtain ⟨get, tile, format, embed, block⟩ := other
  cases known : Builtin.ofWord? tag
    <;> simp only [Expr.ofJson_tagged, get, tile, format, embed, block, known, ↓reduceIte]

theorem Expr.ofJson_word (builtin : Builtin) (payload : List Json)
    : Expr.ofJson (.arr (.str builtin.word :: payload))
      = return .apply builtin (← Operand.listOfJson payload) := by
  have other : builtin.word ∉ formTags := by cases builtin <;> decide
  rw [ofJson_of_not_form other, builtin.ofWord_word]

theorem Expr.ofJson_of_unknown {tag : String} (unknown : tag ∉ tags) (payload : List Json)
    : Expr.ofJson (.arr (.str tag :: payload)) = .ok (.unknown tag) := by
  rw [tags, List.mem_append, not_or] at unknown
  rw [ofJson_of_not_form unknown.1, Builtin.ofWord?, find_word_eq_none.mpr unknown.2]
  rfl

/-- An expression that would not be taken for a point or an area is read as an operand. -/
theorem Operand.ofJson_expr {content : Expr} (plain : content.isShape = false)
    : Operand.ofJson content.toJson = Operand.value <$> Expr.ofJson content.toJson := by
  have tagged {tag : String} (other : tag ∉ shapeTags) (payload : List Json)
      : Operand.ofJson (.arr (.str tag :: payload))
        = Operand.value <$> Expr.ofJson (.arr (.str tag :: payload)) := by
    simp only [shapeTags, List.mem_cons, List.not_mem_nil, or_false, not_or] at other
    rw [Operand.ofJson, if_neg other.1, if_neg other.2]
  cases content with
  | get name => exact tagged (by decide) _
  | tile id name => exact tagged (by decide) _
  | format parts => exact tagged (by decide) _
  | embed content => exact tagged (by decide) _
  | apply builtin operands => exact tagged (by cases builtin <;> decide) _
  | block index => exact tagged (by decide) _
  | unknown tag => exact tagged (by simpa [Expr.isShape] using plain) _
  | _ => rfl

mutual

/-- Admissible expressions are read back, by induction over the trees. -/
theorem Expr.ofJson_toJson
    : ∀ tree : Expr, tree.isAdmissible = true → Expr.ofJson tree.toJson = .ok tree
  | .str _, _ => by simp only [Expr.toJson, Expr.ofJson]
  | .int value, _ => by simp only [Expr.toJson, Expr.ofJson, Expr.ofInt, Json.asWord_toInt]
  | .float _, _ => by simp only [Expr.toJson, Expr.ofJson]
  | .nil, _ => by simp only [Expr.toJson, Expr.ofJson]
  | .get name, _ => by
      simp only [Expr.toJson, Expr.ofJson_tagged, ↓reduceIte]
      rfl
  | .tile id name, _ => by
      simp only [Expr.toJson, Expr.ofJson_tagged, String.reduceEq, ↓reduceIte, Expr.tileOfJson]
      exact bind_eq_ok.mpr ⟨_, rfl, by simp only [Json.asWord_toInt]; rfl⟩
  | .format parts, admissible => by
      simp only [Expr.isAdmissible] at admissible
      simp only [Expr.toJson, Expr.ofJson_tagged, String.reduceEq, ↓reduceIte,
        Expr.listOfJson_listToJson parts admissible]
      rfl
  | .embed content, admissible => by
      simp only [Expr.isAdmissible] at admissible
      simp only [Expr.toJson, Expr.ofJson_tagged, String.reduceEq, ↓reduceIte]
      have read := Expr.ofJson_toJson content admissible
      exact bind_eq_ok.mpr ⟨_, rfl, bind_eq_ok.mpr ⟨_, read, rfl⟩⟩
  | .apply builtin operands, admissible => by
      simp only [Expr.isAdmissible] at admissible
      rw [Expr.toJson, Expr.ofJson_word, Operand.listOfJson_listToJson operands admissible]
      rfl
  | .block index, _ => by
      simp only [Expr.toJson, blockToJson, Expr.ofJson_tagged, String.reduceEq, ↓reduceIte,
        indexAt_natCast]
      rfl
  | .unknown tag, admissible => by
      simp only [Expr.isAdmissible] at admissible
      exact Expr.ofJson_of_unknown (by simpa using admissible) []

theorem Expr.listOfJson_listToJson
    : ∀ trees : List Expr,
        Expr.areAdmissible trees = true → Expr.listOfJson (Expr.listToJson trees) = .ok trees
  | [], _ => by simp only [Expr.listToJson, Expr.listOfJson]
  | first :: rest, admissible => by
      simp only [Expr.areAdmissible, Bool.and_eq_true] at admissible
      simp only [Expr.listToJson, Expr.listOfJson, Expr.ofJson_toJson first admissible.1,
        Expr.listOfJson_listToJson rest admissible.2]
      rfl

theorem Operand.ofJson_toJson
    : ∀ operand : Operand, operand.isAdmissible = true → Operand.ofJson operand.toJson = .ok operand
  | .point x y, admissible => by
      simp only [Operand.isAdmissible, Bool.and_eq_true] at admissible
      simp only [Operand.toJson, Operand.ofJson, ↓reduceIte, Operand.pointOfJson,
        Expr.ofJson_toJson x admissible.1, Expr.ofJson_toJson y admissible.2]
      rfl
  | .area x y width none, admissible => by
      simp only [Operand.isAdmissible, Bool.and_eq_true] at admissible
      simp only [Operand.toJson, Operand.ofJson, String.reduceEq, ↓reduceIte, Operand.areaOfJson,
        Expr.ofJson_toJson x admissible.1.1, Expr.ofJson_toJson y admissible.1.2,
        Expr.ofJson_toJson width admissible.2]
      rfl
  | .area x y width (some height), admissible => by
      simp only [Operand.isAdmissible, Bool.and_eq_true] at admissible
      simp only [Operand.toJson, Operand.ofJson, String.reduceEq, ↓reduceIte, Operand.areaOfJson,
        Expr.ofJson_toJson x admissible.1.1.1, Expr.ofJson_toJson y admissible.1.1.2,
        Expr.ofJson_toJson width admissible.1.2, Expr.ofJson_toJson height admissible.2]
      rfl
  | .value content, admissible => by
      simp only [Operand.isAdmissible, Bool.and_eq_true, Bool.not_eq_true'] at admissible
      rw [Operand.toJson, Operand.ofJson_expr admissible.2, Expr.ofJson_toJson content admissible.1]
      rfl

theorem Operand.listOfJson_listToJson
    : ∀ operands : List Operand,
        Operand.areAdmissible operands = true
        → Operand.listOfJson (Operand.listToJson operands) = .ok operands
  | [], _ => by simp only [Operand.listToJson, Operand.listOfJson]
  | first :: rest, admissible => by
      simp only [Operand.areAdmissible, Bool.and_eq_true] at admissible
      rw [Operand.listToJson, Operand.listOfJson_cons, Operand.ofJson_toJson first admissible.1,
        Operand.listOfJson_listToJson rest admissible.2]
      rfl

end

-----------------------------------------------------------------------------------------
-- Reading commands back
-----------------------------------------------------------------------------------------

theorem blockIndexOfJson_blockToJson (index : Nat)
    : blockIndexOfJson (blockToJson index) = .ok index := by
  rw [blockToJson, blockIndexOfJson, if_pos rfl, indexAt_natCast]

/-- On the left of a condition, all but bare tokens are expressions like elsewhere. -/
theorem Condition.leftOfJson_toJson {tree : Expr} (admissible : tree.isAdmissible = true)
    (noToken : tree.isBareToken = false)
    : leftOfJson tree.toJson = .ok tree := by
  cases tree with
  | str text =>
      rw [Expr.isBareToken] at noToken
      simp only [Expr.toJson, leftOfJson, noToken, Bool.false_eq_true, ↓reduceIte]
  | _ => exact Expr.ofJson_toJson _ admissible

theorem Condition.ofJson_toJson {condition : Condition} (admissible : condition.isAdmissible = true)
    : Condition.ofJson condition.toJson = .ok condition := by
  simp only [isAdmissible, Bool.and_eq_true, Bool.not_eq_true'] at admissible
  obtain ⟨⟨left, noToken⟩, right⟩ := admissible
  simp only [toJson, Condition.ofJson, Json.tagText, Comparison.ofTag_tag]
  refine bind_eq_ok.mpr ⟨_, rfl, bind_eq_ok.mpr ⟨_, leftOfJson_toJson left noToken, ?_⟩⟩
  exact bind_eq_ok.mpr ⟨_, rfl, bind_eq_ok.mpr ⟨_, Expr.ofJson_toJson _ right, rfl⟩⟩

theorem guardOfJson_toJson (tag : String) {condition : Condition}
    (admissible : condition.isAdmissible = true) (body : Nat) (rest : List Json)
    : guardOfJson tag (condition.toJson :: blockToJson body :: rest) = .ok (condition, body) := by
  refine bind_eq_ok.mpr ⟨_, rfl, bind_eq_ok.mpr ⟨_, Condition.ofJson_toJson admissible, ?_⟩⟩
  exact bind_eq_ok.mpr ⟨_, rfl, bind_eq_ok.mpr ⟨_, blockIndexOfJson_blockToJson body, rfl⟩⟩

mutual

/-- Admissible continuations are read back, by induction over their nesting. -/
theorem Branch.ofJson_toJson
    : ∀ branch : Branch, branch.isAdmissible = true → Branch.ofJson branch.toJson = .ok branch
  | .orElseIf condition body branches, admissible => by
      simp only [Branch.isAdmissible, Bool.and_eq_true] at admissible
      rw [Branch.toJson, Branch.ofJson_tagged, if_pos rfl]
      refine bind_eq_ok.mpr ⟨_, guardOfJson_toJson _ admissible.1 body _, ?_⟩
      exact bind_eq_ok.mpr ⟨_, Branch.listOfJson_listToJson branches admissible.2, rfl⟩
  | .orElse body, _ => by
      simp only [Branch.toJson, Branch.ofJson_tagged, String.reduceEq, ↓reduceIte]
      exact bind_eq_ok.mpr ⟨_, rfl, bind_eq_ok.mpr ⟨_, blockIndexOfJson_blockToJson body, rfl⟩⟩

theorem Branch.listOfJson_listToJson
    : ∀ branches : List Branch,
        Branch.areAdmissible branches = true
        → Branch.listOfJson (Branch.listToJson branches) = .ok branches
  | [], _ => by simp only [Branch.listToJson, Branch.listOfJson]
  | first :: rest, admissible => by
      simp only [Branch.areAdmissible, Bool.and_eq_true] at admissible
      simp only [Branch.listToJson, Branch.listOfJson, Branch.ofJson_toJson first admissible.1,
        Branch.listOfJson_listToJson rest admissible.2]
      rfl

end

theorem Callee.ofJson_toJson {callee : Callee} (admissible : callee.isAdmissible = true)
    : Callee.ofJson callee.toJson = .ok callee := by
  cases callee with
  | name event =>
      rw [isAdmissible] at admissible
      simp only [toJson, Callee.ofJson, admissible, ↓reduceIte]
  | computed event =>
      simp only [isAdmissible, Bool.and_eq_true, Bool.not_eq_true'] at admissible
      obtain ⟨admissible, noToken⟩ := admissible
      have read := Expr.ofJson_toJson event admissible
      cases event with
      | str text =>
          rw [Expr.isBareToken] at noToken
          simp only [toJson, Expr.toJson, Callee.ofJson, noToken, Bool.false_eq_true, ↓reduceIte]
      | _ => exact map_eq_ok.mpr ⟨_, read, rfl⟩

/-- A tag of no form is that of a verb, or unknown. -/
theorem Command.ofTagged_of_not_form {tag : String} (other : tag ∉ formTags) (payload : List Json)
    : Command.ofTagged tag payload
      = match Verb.ofWord? tag with
        | some verb => return .perform verb (← Operand.listOfJson payload)
        | none => .ok (.unknown tag) := by
  simp only [formTags, List.mem_cons, List.not_mem_nil, or_false, not_or] at other
  obtain ⟨blank, done, inc, dec, random, choose, repeats, call, emit, mimic, tell, comment,
    inline⟩ := other
  cases known : Verb.ofWord? tag
    <;> simp only [ofTagged, blank, done, inc, dec, random, choose, repeats, call, emit, mimic,
      tell, comment, inline, known, ↓reduceIte]

/-- A command that is no assignment is read by its tag. -/
theorem Command.ofJson_tagged {tag : String} (other : tag ∉ Assignment.all.map Assignment.tag)
    (payload : List Json)
    : Command.ofJson? (.arr (.str tag :: payload)) = some <$> Command.ofTagged tag payload := by
  simp only [Command.ofJson?, Assignment.ofTag?, find_word_eq_none.mpr other]

/-- Admissible commands are read back. -/
theorem Command.ofJson_toJson {command : Command} (admissible : command.isAdmissible = true)
    : Command.ofJson? command.toJson = .ok (some command) := by
  -- Assignments are looked for first, so a form is read as one only if no assignment has its tag.
  have formed {tag : String} {payload : List Json} (form : tag ∈ formTags)
      (read : Command.ofTagged tag payload = .ok command)
      : Command.ofJson? (.arr (.str tag :: payload)) = .ok (some command) := by
    have apart : ∀ tag ∈ formTags, tag ∉ Assignment.all.map Assignment.tag := by decide
    rw [ofJson_tagged (apart tag form)]
    exact map_eq_ok.mpr ⟨_, read, rfl⟩
  cases command with
  | blank => exact formed (by decide) rfl
  | done => exact formed (by decide) rfl
  | assign assignment target value =>
      simp only [toJson, Command.ofJson?, Assignment.ofTag_tag]
      refine bind_eq_ok.mpr ⟨target, rfl, bind_eq_ok.mpr ⟨_, rfl, ?_⟩⟩
      exact bind_eq_ok.mpr ⟨_, Expr.ofJson_toJson value admissible, rfl⟩
  | inc name => exact formed (by decide) rfl
  | dec name => exact formed (by decide) rfl
  | random low high =>
      cases high with
      | none =>
          refine formed (by decide) ?_
          simp only [ofTagged, String.reduceEq, ↓reduceIte]
          exact bind_eq_ok.mpr ⟨_, Expr.ofJson_toJson low admissible, rfl⟩
      | some high =>
          rw [isAdmissible, Bool.and_eq_true] at admissible
          refine formed (by decide) ?_
          simp only [ofTagged, String.reduceEq, ↓reduceIte]
          refine bind_eq_ok.mpr ⟨_, Expr.ofJson_toJson low admissible.1, ?_⟩
          exact bind_eq_ok.mpr ⟨_, Expr.ofJson_toJson high admissible.2, rfl⟩
  | choose condition body branches =>
      rw [isAdmissible, Bool.and_eq_true] at admissible
      refine formed (by decide) ?_
      simp only [ofTagged, String.reduceEq, ↓reduceIte]
      refine bind_eq_ok.mpr ⟨_, guardOfJson_toJson _ admissible.1 body _, ?_⟩
      exact bind_eq_ok.mpr ⟨_, Branch.listOfJson_listToJson branches admissible.2, rfl⟩
  | repeatWhile condition body =>
      refine formed (by decide) ?_
      simp only [ofTagged, String.reduceEq, ↓reduceIte]
      exact bind_eq_ok.mpr ⟨_, guardOfJson_toJson _ admissible body [], rfl⟩
  | call callee =>
      refine formed (by decide) ?_
      simp only [ofTagged, String.reduceEq, ↓reduceIte]
      exact bind_eq_ok.mpr ⟨_, rfl, bind_eq_ok.mpr ⟨_, Callee.ofJson_toJson admissible, rfl⟩⟩
  | emit event | mimic event =>
      refine formed (by decide) ?_
      simp only [ofTagged, String.reduceEq, ↓reduceIte]
      exact bind_eq_ok.mpr ⟨_, rfl, bind_eq_ok.mpr ⟨_, Expr.ofJson_toJson event admissible, rfl⟩⟩
  | tell target rest =>
      rw [isAdmissible, Bool.and_eq_true] at admissible
      refine formed (by decide) ?_
      simp only [ofTagged, String.reduceEq, ↓reduceIte]
      refine bind_eq_ok.mpr ⟨_, rfl, bind_eq_ok.mpr ⟨_, Operand.ofJson_toJson _ admissible.1, ?_⟩⟩
      exact bind_eq_ok.mpr ⟨_, Operand.listOfJson_listToJson rest admissible.2, rfl⟩
  | perform verb operands =>
      have other : verb.word ∉ Assignment.all.map Assignment.tag ∧ verb.word ∉ formTags := by
        cases verb <;> decide
      rw [toJson, ofJson_tagged other.1, ofTagged_of_not_form other.2, verb.ofWord_word]
      refine map_eq_ok.mpr ⟨_, bind_eq_ok.mpr ⟨_, ?_, rfl⟩, rfl⟩
      exact Operand.listOfJson_listToJson operands admissible
  | comment index inline =>
      cases inline with
      | false =>
          refine formed (by decide) ?_
          simp only [ofTagged, String.reduceEq, ↓reduceIte, indexAt_natCast]
          rfl
      | true =>
          refine formed (by decide) ?_
          simp only [ofTagged, String.reduceEq, ↓reduceIte, indexAt_natCast]
          rfl
  | unknown tag =>
      have unknown : tag ∉ tags := by simpa [isAdmissible] using admissible
      rw [tags, List.mem_append, List.mem_append, not_or, not_or] at unknown
      obtain ⟨⟨assignment, form⟩, verb⟩ := unknown
      rw [toJson, ofJson_tagged assignment, ofTagged_of_not_form form, Verb.ofWord?,
        find_word_eq_none.mpr verb]
      rfl

end TileLua
