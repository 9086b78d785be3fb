import TileLua.Codegen.CallSite

/-! Runs of code generation, taken apart step by step.
An action ends in a state whether it succeeds or fails. A sequence succeeds through a middle state,
and an action that is surrounded by changes of the state succeeds through the action itself.
-/

namespace TileLua.Codegen

variable {α β : Type}

/-- The state in which an action ends, with a result or with a defect. -/
def finish (action : Codegen α) (before : State) : State :=
  match action before with
  | .ok _ after => after
  | .error _ after => after

theorem finish_of_ok {action : Codegen α} {before after : State} {value : α}
    (run : action before = .ok value after)
    : finish action before = after := by
  simp only [finish, run]

theorem finish_of_error {action : Codegen α} {before after : State} {defect : Defect}
    (run : action before = .error defect after)
    : finish action before = after := by
  simp only [finish, run]

/-- Whether an action succeeds from a state. -/
def succeeds (action : Codegen α) (before : State) : Bool :=
  match action before with
  | .ok _ _ => true
  | .error _ _ => false

theorem exists_ok_of_succeeds {action : Codegen α} {before : State}
    (success : succeeds action before = true)
    : ∃ value after, action before = .ok value after := by
  unfold succeeds at success
  split at success
  · rename_i value after run
    exact ⟨value, after, run⟩
  · cases success

/-- A sequence ends where its second part ends, unless the first part fails. -/
theorem finish_bind (action : Codegen α) (next : α → Codegen β) (before : State)
    : finish (action >>= next) before
      = match action before with
        | .ok value middle => finish (next value) middle
        | .error _ after => after := by
  simp only [finish, bind, EStateM.bind]
  cases action before <;> rfl

/-- An action between two changes of the state ends in the second change. -/
theorem finish_around (enter : State → State) (leave : State → State → State)
    (action : Codegen α) (before : State)
    : finish (around enter leave action) before
      = leave before (finish action (enter before)) := by
  simp only [finish, around]
  cases action (enter before) <;> rfl

/-- A sequence succeeds exactly if both parts do, one after the other. -/
theorem bind_eq_ok {action : Codegen α} {next : α → Codegen β} {before after : State} {value : β}
    : (action >>= next) before = .ok value after
      ↔ ∃ first middle, action before = .ok first middle ∧ next first middle = .ok value after := by
  simp only [bind, EStateM.bind]
  cases action before with
  | ok first middle =>
      constructor
      · intro run
        exact ⟨first, middle, rfl, run⟩
      · rintro ⟨_, _, ⟨⟩, run⟩
        exact run
  | error defect middle => simp

/-- A sequence that fails does so in its first part, or in its second part after the first. -/
theorem bind_eq_error {action : Codegen α} {next : α → Codegen β} {before after : State}
    {defect : Defect} (run : (action >>= next) before = .error defect after)
    : action before = .error defect after
      ∨ ∃ first middle,
          action before = .ok first middle ∧ next first middle = .error defect after := by
  simp only [bind, EStateM.bind] at run
  cases result : action before with
  | ok first middle =>
      simp only [result] at run
      exact Or.inr ⟨first, middle, rfl, run⟩
  | error other middle =>
      simp only [result, EStateM.Result.error.injEq] at run
      obtain ⟨rfl, rfl⟩ := run
      exact Or.inl rfl

theorem pure_eq_ok {result value : α} {before after : State}
    : (pure result : Codegen α) before = .ok value after ↔ result = value ∧ before = after := by
  simp [pure, EStateM.pure]

theorem get_bind (next : State → Codegen β) (before : State)
    : (get >>= next) before = next before before :=
  rfl

/-- A surrounded action succeeds exactly if the action does, and its state is changed twice. -/
theorem around_eq_ok {enter : State → State} {leave : State → State → State}
    {action : Codegen α} {before after : State} {value : α}
    : around enter leave action before = .ok value after
      ↔ ∃ middle, action (enter before) = .ok value middle ∧ leave before middle = after := by
  simp only [around]
  cases action (enter before) with
  | ok result middle =>
      constructor
      · rintro ⟨⟩
        exact ⟨middle, rfl, rfl⟩
      · rintro ⟨_, ⟨⟩, rfl⟩
        rfl
  | error defect middle => simp

theorem ofExcept_eq_ok {result : Except Defect α} {before after : State} {value : α}
    : ofExcept result before = .ok value after ↔ result = .ok value ∧ before = after := by
  cases result with
  | ok found => simp [ofExcept, pure_eq_ok]
  | error defect =>
      constructor
      · intro run
        cases run
      · rintro ⟨⟨⟩, -⟩

/-- An action in a function of its own succeeds exactly if it does in a fresh frame, which gives the
declarations and is taken away.
-/
theorem inFunction_eq_ok {action : Codegen α} {before after : State} {value : α}
    {bindings : List String}
    : inFunction action before = .ok (value, bindings) after
      ↔ ∃ inner,
          action { before with frames := {} :: before.frames } = .ok value inner
          ∧ bindings = (inner.frames.headD {}).toList
          ∧ after = { inner with frames := inner.frames.tail } := by
  rw [inFunction, around_eq_ok]
  constructor
  · rintro ⟨inner, run, rfl⟩
    obtain ⟨_, _, action, run⟩ := bind_eq_ok.mp run
    obtain ⟨_, _, ⟨⟩, result⟩ := bind_eq_ok.mp run
    cases result
    exact ⟨inner, action, rfl, rfl⟩
  · rintro ⟨inner, action, rfl, rfl⟩
    exact ⟨inner, bind_eq_ok.mpr ⟨value, inner, action, rfl⟩, rfl⟩

/-- The margin at a depth. -/
def marginOf (indent : Nat) : String :=
  String.join (List.replicate indent "  ")

/-- Texts as lines of code at a depth. -/
def linesAt (indent : Nat) (texts : List String) : String :=
  String.join (texts.map fun text => marginOf indent ++ text ++ "\n")

theorem scriptBlock_eq_ok {script : Script} {index : Nat} {body : Block}
    : script.block index = .ok body ↔ script.blocks[index]? = some body := by
  unfold Script.block
  split <;> simp_all

/-- A tile name folds without a change of the state but for what is told. -/
theorem foldTile_apply (tree : Expr) (before : State)
    : foldTile tree before
      = match before.tiles.named? tree with
        | some (id, name) =>
            .ok (.tile id name)
              { before with journal := before.journal.push (.tileFolded name id) }
        | none => .ok tree before := by
  rw [foldTile, get_bind]
  cases before.tiles.named? tree <;> rfl

/-- Only a text names a tile. -/
theorem eq_str_of_named {tiles : TileTable} {tree : Expr} {id : Int64} {name : String}
    (named : tiles.named? tree = some (id, name))
    : tree = .str name ∧ tiles.get? name = some id := by
  cases tree with
  | str text =>
      simp only [TileTable.named?, Option.map_eq_some_iff, Prod.mk.injEq] at named
      obtain ⟨_, found, rfl, rfl⟩ := named
      exact ⟨rfl, found⟩
  | _ => simp [TileTable.named?] at named

/-- The open functions after a local declaration is added to the innermost one. -/
def bindIn (binding : String) : List (Std.TreeSet String) → List (Std.TreeSet String)
  | frame :: outer => (if frame.contains binding then frame else frame.insert binding) :: outer
  | [] => []

/-- Adding a local declaration changes the innermost function and what is told. -/
theorem bindLocal_apply (binding : String) (before : State)
    : ∃ journal,
        bindLocal binding before
        = .ok () { before with frames := bindIn binding before.frames, journal } := by
  rw [bindLocal, get_bind]
  cases frames : before.frames with
  | nil =>
      refine ⟨before.journal.push (.bindingOutsideFunction binding), ?_⟩
      simp only [bindIn, ← frames]
      rfl
  | cons frame outer =>
      simp only [bindIn]
      split
      · exact ⟨before.journal, by rw [← frames]; rfl⟩
      · exact ⟨before.journal.push (.bindingCached binding), rfl⟩

theorem mem_bindIn {binding other : String} {frame : Std.TreeSet String}
    : other ∈ (if frame.contains binding then frame else frame.insert binding)
      ↔ other ∈ frame ∨ other = binding := by
  split
  · rename_i present
    have member : binding ∈ frame := Std.TreeSet.contains_iff_mem.mp present
    constructor
    · exact Or.inl
    · rintro (earlier | rfl)
      · exact earlier
      · exact member
  · rw [Std.TreeSet.mem_insert, Std.LawfulEqCmp.compare_eq_iff_eq, or_comm, eq_comm]

theorem route_apply (target : Route) (before : State)
    : route target before
      = if before.routes.contains (before.routes.nameOf target) then
          .ok (before.routes.nameOf target) before
        else
          .ok (before.routes.nameOf target)
            { before with
              routes := before.routes.insert (before.routes.nameOf target) target
              journal := before.journal.push
                (.routeAdded (before.routes.nameOf target) target.script target.handler) } := by
  rw [route, get_bind]
  split <;> rfl

/-- The dispatch of a call before its routing tags. -/
def plainDispatch (tags : Annotations) (object : String) (events : Std.TreeSet String)
    (form : CallForm)
    : Dispatch :=
  if object = Engine.ownObject then
    ownDispatch tags (events.contains form.handler) form (lookupDispatch tags object form)
  else lookupDispatch tags object form

/-- A call goes through its form, the declaration of the script's own object if it is dispatched on
that, and its routing tags.
-/
theorem callSite_eq_ok {write : BlockWriter} {tags : Annotations} {callee : Callee}
    {before after : State} {text : String}
    (run : callSite write tags callee before = .ok text after)
    : ∃ form middle bound dispatch,
        callForm write before.dispatchObject callee before = .ok form middle
        ∧ (if before.dispatchObject = Engine.ownObject then bindLocal (ownBinding middle.root)
            else pure ()) middle = .ok () bound
        ∧ routedDispatch form.handler
            (plainDispatch tags before.dispatchObject bound.ownEvents form) tags.routes bound
          = .ok dispatch after
        ∧ text = dispatch.text form.event := by
  unfold callSite at run
  obtain ⟨_, _, ⟨⟩, run⟩ := bind_eq_ok.mp run
  obtain ⟨form, middle, formed, run⟩ := bind_eq_ok.mp run
  dsimp only at run
  split at run
  · rename_i own
    obtain ⟨_, _, ⟨⟩, run⟩ := bind_eq_ok.mp run
    obtain ⟨_, bound, binding, run⟩ := bind_eq_ok.mp run
    obtain ⟨_, _, ⟨⟩, run⟩ := bind_eq_ok.mp run
    obtain ⟨_, _, ⟨⟩, run⟩ := bind_eq_ok.mp run
    obtain ⟨dispatch, _, routed, result⟩ := bind_eq_ok.mp run
    obtain ⟨rfl, rfl⟩ := pure_eq_ok.mp result
    refine ⟨form, middle, bound, dispatch, formed, ?_, ?_, rfl⟩
    · rw [if_pos own]
      exact binding
    · rw [plainDispatch, if_pos own]
      exact routed
  · rename_i foreign
    obtain ⟨_, _, ⟨⟩, run⟩ := bind_eq_ok.mp run
    obtain ⟨dispatch, _, routed, result⟩ := bind_eq_ok.mp run
    obtain ⟨rfl, rfl⟩ := pure_eq_ok.mp result
    refine ⟨form, middle, middle, dispatch, formed, ?_, ?_, rfl⟩
    · rw [if_neg foreign]
      rfl
    · rw [plainDispatch, if_neg foreign]
      exact routed

/-- The blanks at the end of a text come after its last other character. -/
theorem trimEnd_append_cons {c : Char} (solid : Text.isBlank c = false) (front back : List Char)
    : Text.trimEnd (front ++ c :: back) = front ++ c :: Text.trimEnd back := by
  unfold Text.trimEnd
  rw [List.reverse_append, List.reverse_cons, List.append_assoc, List.dropWhile_append]
  cases back.reverse.dropWhile Text.isBlank with
  | nil => simp [solid]
  | cons first rest => simp

/-- A call is its function with three arguments, and its remark without the blanks at the end. -/
theorem Dispatch.text_eq (dispatch : Dispatch) (event : String)
    : dispatch.text event
      = dispatch.function ++ "(__actor, event, " ++ event ++ ")"
        ++ String.ofList (Text.trimEnd (' ' :: dispatch.remark.toList)) := by
  have split : (dispatch.function ++ "(__actor, event, " ++ event ++ ") " ++ dispatch.remark).toList
      = (dispatch.function ++ "(__actor, event, " ++ event).toList
        ++ ')' :: (' ' :: dispatch.remark.toList) := by
    simp [String.toList_append]
  rw [Dispatch.text, split, trimEnd_append_cons (by decide)]
  simp [← String.toList_inj, String.toList_append]

end TileLua.Codegen
