import Mathlib.Data.List.Basic
import TileLua.Proofs.Codegen.ScopeBindings
import TileLua.Proofs.Lua.WrittenComments

/-! What the function of a recorded handler does besides handing on its event.
A handler is recorded as one that only delegates when its block has a single command that is not
inert, a `mimic` of a known tile. Inert commands leave comments in the function, or nothing; the
exceptions are comments that carry Lua code, and comments that hold a carriage return.
-/

namespace TileLua.Codegen

-----------------------------------------------------------------------------------------
-- When a handler is recorded
-----------------------------------------------------------------------------------------

/-- The tile that an expression refers to, by its name or by its number. -/
def tileOf? (tiles : TileTable) (target : Expr) : Option (Int64 × String) :=
  match tiles.named? target with
  | some tile => some tile
  | none =>
      match target with
      | .tile id name => some (id, name)
      | _ => none

/-- The record of a handler whose block only delegates. -/
def delegation? (tiles : TileTable) (owner event : String) (body : Block) : Option Delegation :=
  ((soleMimic? body).bind (tileOf? tiles)).map fun (id, name) =>
    { owner, event, targetId := id, targetName := name }

theorem foldTile_of_tileOf {target : Expr} {before : State} {id : Int64} {name : String}
    (refers : tileOf? before.tiles target = some (id, name))
    : ∃ journal, foldTile target before = .ok (.tile id name) { before with journal } := by
  rw [foldTile_apply]
  unfold tileOf? at refers
  cases named : before.tiles.named? target with
  | some tile =>
      simp only [named, Option.some.injEq] at refers
      subst refers
      exact ⟨_, rfl⟩
  | none =>
      simp only [named] at refers
      cases target with
      | tile _ _ =>
          cases refers
          exact ⟨before.journal, rfl⟩
      | _ => cases refers

theorem delegationTarget_apply (body : Block) (before : State)
    : ∃ journal,
        delegationTarget? body before
        = .ok ((soleMimic? body).bind (tileOf? before.tiles)) { before with journal } := by
  unfold delegationTarget?
  cases soleMimic? body with
  | none => exact ⟨before.journal, rfl⟩
  | some target =>
      simp only [Option.bind_some, bind, EStateM.bind, foldTile_apply, tileOf?]
      cases before.tiles.named? target with
      | some tile => exact ⟨_, rfl⟩
      | none =>
          refine ⟨before.journal, ?_⟩
          cases target <;> rfl

/-- Recording adds the record of a block that only delegates, and nothing for any other block. -/
theorem recordDelegation_apply (owner event : String) (body : Block) (before : State)
    : ∃ journal,
        recordDelegation owner event body before
        = .ok () { before with
            journal
            delegations :=
              before.delegations ++ (delegation? before.tiles owner event body).toList } := by
  obtain ⟨journal, target⟩ := delegationTarget_apply body before
  simp only [recordDelegation, bind, EStateM.bind, target, delegation?]
  cases (soleMimic? body).bind (tileOf? before.tiles) with
  | none =>
      refine ⟨journal, ?_⟩
      simp only [Option.map_none, Option.toList_none, List.append_nil]
      rfl
  | some tile => exact ⟨_, rfl⟩

/-- A handler is its block as a function of its own, and then the record. -/
theorem handler_eq_ok {script : Script} {owner root : String} {entry : Handler}
    {before after : State} {text : String}
    (run : handler script owner root entry before = .ok text after)
    : ∃ (entered inner : State) (body : String) (commands : Block),
        entered.indent = before.indent
        ∧ entered.tiles = before.tiles
        ∧ block script .own entry.block entered = .ok body inner
        ∧ script.blocks[entry.block]? = some commands
        ∧ text = handlerField (Engine.scriptTable owner) entry.event
            ++ " = function(__actor, event, __evname)\n" ++ body ++ "end\n"
        ∧ after.delegations
          = before.delegations
            ++ (delegation? before.tiles owner entry.event commands).toList := by
  obtain ⟨_, _, ⟨⟩, run⟩ := bind_eq_ok.mp run
  obtain ⟨_, _, ⟨⟩, run⟩ := bind_eq_ok.mp run
  obtain ⟨body, _, function, run⟩ := bind_eq_ok.mp run
  obtain ⟨inner, blockRun, rfl⟩ := around_eq_ok.mp function
  obtain ⟨commands, _, lookup, run⟩ := bind_eq_ok.mp run
  obtain ⟨found, rfl⟩ := ofExcept_eq_ok.mp lookup
  obtain ⟨_, _, recorded, result⟩ := bind_eq_ok.mp run
  obtain ⟨rfl, rfl⟩ := pure_eq_ok.mp result
  have grown := (blockWithin_grown script _ .own entry.block).of_ok blockRun
  obtain ⟨journal, applied⟩ := recordDelegation_apply owner entry.event commands
    { inner with dispatch := inner.dispatch.tail }
  cases recorded.symm.trans applied
  refine ⟨_, inner, body, commands, ?_, ?_, blockRun, scriptBlock_eq_ok.mp found, rfl, ?_⟩
  · rfl
  · rfl
  · simp only [grown.delegations, grown.tiles]

/-- A handler that fails is not recorded: recording comes last and never fails. -/
theorem handler_error {script : Script} {owner root : String} {entry : Handler}
    {before after : State} {defect : Defect}
    (run : handler script owner root entry before = .error defect after)
    : after.delegations = before.delegations := by
  rcases bind_eq_error run with failed | ⟨_, _, ⟨⟩, run⟩
  · cases failed
  rcases bind_eq_error run with failed | ⟨_, _, ⟨⟩, run⟩
  · cases failed
  have function := dispatchingOn_grown Engine.ownObject
    (blockWithin_grown script (script.blocks.length + 1) .own entry.block)
  rcases bind_eq_error run with failed | ⟨body, middle, blockRun, run⟩
  · exact (function.of_error failed).delegations
  · have unrecorded := (function.of_ok blockRun).delegations
    rcases bind_eq_error run with missing | ⟨commands, _, lookup, run⟩
    · have same : Keeps State.Grown (ofExcept (script.block entry.block)) := .ofExcept _
      exact (same.of_error missing).delegations.trans unrecorded
    · obtain ⟨journal, recorded⟩ := recordDelegation_apply owner entry.event commands middle
      obtain ⟨-, rfl⟩ := ofExcept_eq_ok.mp lookup
      rcases bind_eq_error run with failed | ⟨_, _, _, failed⟩
      · cases recorded.symm.trans failed
      · cases failed

theorem handler_ownEvents {script : Script} {owner root text : String} {entry : Handler}
    {before after : State} (run : handler script owner root entry before = .ok text after)
    : after.ownEvents = before.ownEvents :=
  (handler_sameEvents script owner root entry).of_ok run

/-- A block that only delegates has one `mimic` among commands that are inert. -/
theorem soleMimic_split {body : Block} {target : Expr} (sole : soleMimic? body = some target)
    : ∃ lead trail,
        body = lead ++ .mimic target :: trail
        ∧ ∀ command ∈ lead ++ trail, command.isInert = true := by
  unfold soleMimic? at sole
  split at sole
  · rename_i found filtered
    cases sole
    obtain ⟨lead, trail, rfl, leading, -, trailing⟩ := List.filter_eq_cons_iff.mp filtered
    refine ⟨lead, trail, rfl, ?_⟩
    intro command member
    rcases List.mem_append.mp member with before | after
    · simpa using leading command before
    · simpa using List.filter_eq_nil_iff.mp trailing command after
  · cases sole

-----------------------------------------------------------------------------------------
-- The texts of the commands of such a block
-----------------------------------------------------------------------------------------

/-- The text that a comment leaves. -/
def commentText? (script : Script) (index : Nat) (inline : Bool) : Option String :=
  match script.comment? index with
  | none => some (Lua.comment "<comment missing>" inline)
  | some text =>
      match Directive.parse (Text.trim text) with
      | .lua code => some code
      | .tag _ => some (Lua.comment text inline)
      | .text => some (Lua.comment text inline)
      | _ => none

/-- The text that an inert command leaves. -/
def inertText? (script : Script) : Command → Option String
  | .comment index inline => commentText? script index inline
  | _ => none

/-- The statement that hands the current event to the tile of a number. -/
def mimicById (indent : Nat) (id : Int64) (name : String) : String :=
  let tile := toString id ++ " --[[(" ++ Lua.loosen name ++ ")]]"
  "do -- (mimic)\n"
    ++ marginOf (indent + 1)
    ++ "local __mimic_target__ = " ++ ("(__pulp.tiles[" ++ tile ++ "] or __pulp.EMPTY).script;")
    ++ "\n" ++ marginOf (indent + 1)
    ++ "(__mimic_target__[__evname] or __mimic_target__.any)(__actor, event, __evname)\n"
    ++ marginOf indent ++ "end"

/-- The text that a command of a block leaves whose only command that is not inert is a `mimic`. -/
def delegatingText? (script : Script) (statement : String) : Command → Option String
  | .mimic _ => some statement
  | tree => inertText? script tree

theorem delegatingText_of_inert (script : Script) (statement : String) {tree : Command}
    (inert : tree.isInert = true)
    : delegatingText? script statement tree = inertText? script tree := by
  cases tree with
  | mimic target => cases inert
  | _ => rfl

theorem filterMap_delegatingText (script : Script) (statement : String) (target : Expr)
    {lead trail : List Command} (inert : ∀ tree ∈ lead ++ trail, tree.isInert = true)
    : (lead ++ .mimic target :: trail).filterMap (delegatingText? script statement)
      = lead.filterMap (inertText? script) ++ statement :: trail.filterMap (inertText? script) := by
  have part {commands : List Command} (included : commands ⊆ lead ++ trail)
      : commands.filterMap (delegatingText? script statement)
        = commands.filterMap (inertText? script) := by
    apply List.filterMap_congr
    intro tree member
    exact delegatingText_of_inert script statement (inert tree (included member))
  rw [List.filterMap_append, List.filterMap_cons, part (List.subset_append_left lead trail),
    part (List.subset_append_right lead trail)]
  rfl

theorem comment_text {script : Script} {index : Nat} {inline : Bool} {before after : State}
    {text : Option String} (run : comment script index inline before = .ok text after)
    : text = commentText? script index inline := by
  unfold comment at run
  unfold commentText?
  cases found : script.comment? index with
  | none =>
      simp only [found] at run ⊢
      exact (pure_eq_ok.mp run).1.symm
  | some content =>
      simp only [found] at run ⊢
      cases parsed : Directive.parse (Text.trim content) with
      | setting group key value =>
          simp only [parsed] at run ⊢
          obtain ⟨_, _, _, result⟩ := bind_eq_ok.mp run
          exact (pure_eq_ok.mp result).1.symm
      | _ =>
          simp only [parsed] at run ⊢
          exact (pure_eq_ok.mp run).1.symm

theorem command_text_of_inert {script : Script} {write : BlockWriter} {tags : Annotations}
    {tree : Command} {before after : State} {text : Option String} (inert : tree.isInert = true)
    (run : command script write tags tree before = .ok text after)
    : text = inertText? script tree := by
  cases tree with
  | blank =>
      simp only [command] at run
      exact (pure_eq_ok.mp run).1.symm
  | comment index inline =>
      simp only [command] at run
      simpa only [inertText?] using comment_text run
  | _ => cases inert

theorem margin_eq_ok {before after : State} {text : String}
    (run : margin before = .ok text after)
    : text = marginOf before.indent ∧ after = before := by
  cases run
  exact ⟨rfl, rfl⟩

theorem indented_margin_eq_ok {before after : State} {text : String}
    (run : indented 1 margin before = .ok text after)
    : text = marginOf (before.indent + 1) ∧ after = before := by
  cases run
  exact ⟨rfl, rfl⟩

theorem command_text_of_mimic {script : Script} {write : BlockWriter} {tags : Annotations}
    {target : Expr} {before after : State} {text : Option String} {id : Int64} {name : String}
    (refers : tileOf? before.tiles target = some (id, name))
    (run : command script write tags (.mimic target) before = .ok text after)
    : text = some (mimicById before.indent id name) := by
  simp only [command, map_eq_pure_bind] at run
  obtain ⟨statement, _, mimicRun, result⟩ := bind_eq_ok.mp run
  obtain ⟨rfl, -⟩ := pure_eq_ok.mp result
  obtain ⟨journal, folded⟩ := foldTile_of_tileOf refers
  obtain ⟨_, _, foldRun, run⟩ := bind_eq_ok.mp mimicRun
  cases folded.symm.trans foldRun
  obtain ⟨value, _, valueRun, run⟩ := bind_eq_ok.mp run
  simp only [expr] at valueRun
  obtain ⟨rfl, rfl⟩ := pure_eq_ok.mp valueRun
  obtain ⟨inner, _, innerRun, run⟩ := bind_eq_ok.mp run
  obtain ⟨rfl, rfl⟩ := indented_margin_eq_ok innerRun
  obtain ⟨outer, _, outerRun, result⟩ := bind_eq_ok.mp run
  obtain ⟨rfl, rfl⟩ := margin_eq_ok outerRun
  obtain ⟨rfl, -⟩ := pure_eq_ok.mp result
  dsimp only [isById]
  unfold mimicById
  simp only [↓reduceIte]

/-- The lines of a block are what its commands leave, each at its position and with the tags that
follow it there; by induction over the commands.
-/
theorem commands_eq_ok {script : Script} {write : BlockWriter} {block : Nat}
    (written : ∀ scope index, Keeps State.Grown (write scope index))
    {body : List Command} {index : Nat} {before after : State} {lines : List String}
    (run : commands script write block index body before = .ok lines after)
    : ∃ texts : List (Option String),
        texts.length = body.length
        ∧ String.join lines = linesAt before.indent (texts.filterMap id)
        ∧ ∀ place tree,
            body[place]? = some tree
            → ∃ state next text,
                texts[place]? = some text
                ∧ state.indent = before.indent
                ∧ state.tiles = before.tiles
                ∧ command script write (Annotations.after script (body.drop (place + 1))) tree state
                  = .ok text next := by
  induction body generalizing index before after lines with
  | nil =>
      obtain ⟨rfl, -⟩ := pure_eq_ok.mp run
      exact ⟨[], rfl, rfl, by simp⟩
  | cons first rest ih =>
      obtain ⟨text, middle, firstRun, run⟩ := bind_eq_ok.mp run
      obtain ⟨_, _, ⟨⟩, run⟩ := bind_eq_ok.mp run
      obtain ⟨others, _, restRun, result⟩ := bind_eq_ok.mp run
      obtain ⟨rfl, -⟩ := pure_eq_ok.mp result
      have grown := (atLocation_grown _ ((grownLogic script write written).command _ first)).of_ok
        firstRun
      obtain ⟨inner, commandRun, -⟩ := around_eq_ok.mp firstRun
      obtain ⟨texts, sameLength, restLines, each⟩ := ih restRun
      rw [grown.indent] at restLines each
      refine ⟨text :: texts, by simp [sameLength], ?_, ?_⟩
      · rw [String.join_append, restLines]
        cases text with
        | none => simp
        | some statement => simp [linesAt, marginOf, grown.indent]
      · intro place tree found
        cases place with
        | zero =>
            cases found
            refine ⟨_, inner, text, rfl, ?_, ?_, commandRun⟩
            · rfl
            · rfl
        | succ place =>
            obtain ⟨state, next, line, listed, margin, tiles, lineRun⟩ := each place tree found
            exact ⟨state, next, line, listed, margin, tiles.trans grown.tiles, lineRun⟩

/-- If the text of each command is fixed by the margin and the tiles, the lines of a block are these
texts.
-/
theorem commands_text {script : Script} {write : BlockWriter} {block : Nat}
    {textOf : Command → Option String} (indent : Nat) (tiles : TileTable)
    (written : ∀ scope index, Keeps State.Grown (write scope index))
    {body : List Command} {index : Nat} {before after : State} {lines : List String}
    (fixed
      : ∀ tree ∈ body,
        ∀ {tags : Annotations} {state next : State} {text : Option String},
          state.indent = indent
          → state.tiles = tiles
          → command script write tags tree state = .ok text next
          → text = textOf tree)
    (run : commands script write block index body before = .ok lines after)
    (margin : before.indent = indent) (known : before.tiles = tiles)
    : String.join lines = linesAt indent (body.filterMap textOf) := by
  obtain ⟨texts, sameLength, shape, each⟩ := commands_eq_ok written run
  have same : texts = body.map textOf := by
    apply List.ext_getElem?
    intro place
    rw [List.getElem?_map]
    cases found : body[place]? with
    | none =>
        rw [List.getElem?_eq_none_iff] at found
        simpa [sameLength] using found
    | some tree =>
        obtain ⟨state, next, text, listed, atMargin, atTiles, run⟩ := each place tree found
        rw [listed, fixed tree (List.mem_of_getElem? found) (atMargin.trans margin)
          (atTiles.trans known) run]
        rfl
  rw [shape, margin, same, List.filterMap_map]
  rfl

theorem visits_of_tileOf {tiles : TileTable} {target : Expr} {tile : Int64 × String}
    (refers : tileOf? tiles target = some tile)
    : target.visits = [] := by
  cases target with
  | str text => simp only [Expr.visits]
  | tile id name => simp only [Expr.visits]
  | _ => simp [tileOf?, TileTable.named?] at refers

/-- Comments are the only visits in the scope of a block whose other commands visit nothing. -/
theorem inScope_eq_comment {script : Script} {index : Nat} {body : Block} {visit : Visit}
    (found : script.blocks[index]? = some body)
    (silent : ∀ tree ∈ body, tree.isInert = true ∨ tree.visits = [])
    (below : InScope script index visit)
    : ∃ position, visit = .comment position := by
  have comments {tree : Command} {visited : Visit} (member : tree ∈ body)
      (visits : visited ∈ tree.visits)
      : ∃ position, visited = .comment position := by
    rcases silent tree member with inert | nothing
    · cases tree with
      | blank => simp [Command.visits] at visits
      | comment position inline => exact ⟨position, by simpa [Command.visits] using visits⟩
      | _ => cases inert
    · rw [nothing] at visits
      cases visits
  cases below with
  | here foundAgain member visited =>
      cases found.symm.trans foundAgain
      exact comments member visited
  | inside foundAgain member shared deeper =>
      cases found.symm.trans foundAgain
      obtain ⟨_, ⟨⟩⟩ := comments member shared

/-- Comments need no declaration. -/
theorem declarations_eq_nil {script : Script} {depth index : Nat} {before inner : State}
    {body : Block} {text : String} (found : script.blocks[index]? = some body)
    (silent : ∀ tree ∈ body, tree.isInert = true ∨ tree.visits = [])
    (run
      : blockWithin script depth .shared index { before with frames := {} :: before.frames }
        = .ok text inner)
    : inner.innermost.toList = [] := by
  rw [List.eq_nil_iff_forall_not_mem]
  intro binding member
  rw [Std.TreeSet.mem_toList, mem_innermost_iff_inScope run] at member
  obtain ⟨visit, below, needed⟩ := member
  obtain ⟨position, rfl⟩ := inScope_eq_comment found silent below
  exact needed

/-- The function of a block that only delegates declares nothing. Its lines are the statement that
hands on the event, between the texts of the inert commands before and after it.
-/
theorem blockWithin_text_of_soleMimic {script : Script} {depth index : Nat} {before after : State}
    {lead trail : List Command} {target : Expr} {id : Int64} {name text : String}
    (found : script.blocks[index]? = some (lead ++ .mimic target :: trail))
    (inert : ∀ tree ∈ lead ++ trail, tree.isInert = true)
    (refers : tileOf? before.tiles target = some (id, name))
    (run : blockWithin script depth .own index before = .ok text after)
    : text
      = linesAt before.indent
          (lead.filterMap (inertText? script)
            ++ mimicById before.indent id name :: trail.filterMap (inertText? script)) := by
  obtain ⟨body, inner, bodyRun, rfl⟩ := blockWithin_own_text run
  have inertOrMimic {tree : Command} (member : tree ∈ lead ++ .mimic target :: trail)
      : tree.isInert = true ∨ tree = .mimic target := by
    rcases List.mem_append.mp member with leading | ⟨⟩ | ⟨_, trailing⟩
    · exact Or.inl (inert tree (List.mem_append_left _ leading))
    · exact Or.inr rfl
    · exact Or.inl (inert tree (List.mem_append_right _ trailing))
  have undeclared : inner.innermost.toList = [] := by
    refine declarations_eq_nil found ?_ bodyRun
    intro tree member
    rcases inertOrMimic member with still | rfl
    · exact Or.inl still
    · exact Or.inr (by simpa only [Command.visits] using visits_of_tileOf refers)
  have statements : body = linesAt before.indent ((lead ++ .mimic target :: trail).filterMap
      (delegatingText? script (mimicById before.indent id name))) := by
    cases depth with
    | zero => cases bodyRun
    | succ depth =>
        obtain ⟨_, lines, foundAgain, linesRun, rfl⟩ := blockText_shared_eq_ok bodyRun
        cases found.symm.trans foundAgain
        refine commands_text before.indent before.tiles (blockWithin_grown script depth) ?_ linesRun
          rfl rfl
        intro tree member tags state next text margin known commandRun
        rcases inertOrMimic member with still | rfl
        · rw [delegatingText_of_inert script _ still]
          exact command_text_of_inert still commandRun
        · rw [← known] at refers
          rw [← margin]
          exact command_text_of_mimic refers commandRun
  rw [undeclared, statements, filterMap_delegatingText script _ target inert]
  simp [linesAt]

-----------------------------------------------------------------------------------------
-- Inert commands that leave code
-----------------------------------------------------------------------------------------

/-- A text without code: nothing, or one Lua comment. -/
def HasNoCode (text : String) : Prop :=
  text = "" ∨ Lua.IsComment Lua.endsLine text

instance (text : String) : Decidable (HasNoCode text) :=
  inferInstanceAs (Decidable (_ ∨ _))

/-- A command that is inert in the function too. A comment with Lua code is if that code is itself a
comment, and a comment that is printed is unless a carriage return ends its line early.
-/
def LeavesNoCode (script : Script) : Command → Prop
  | .comment index inline =>
      match script.comment? index with
      | none => True
      | some text =>
          match Directive.parse (Text.trim text) with
          | .lua code => HasNoCode code
          | .tag _ => Lua.isLongForm text inline = true ∨ '\r' ∉ text.toList
          | .text => Lua.isLongForm text inline = true ∨ '\r' ∉ text.toList
          | _ => True
  | _ => True

theorem comment_ne_empty (text : String) (inline : Bool) : Lua.comment text inline ≠ "" := by
  unfold Lua.comment
  dsimp only
  split <;> simp [← String.toList_eq_nil_iff, String.toList_append]

/-- A printed comment is one comment unless it has the line form and a carriage return in it; a line
feed makes it take the long form.
-/
theorem hasNoCode_comment_iff (text : String) (inline : Bool)
    : HasNoCode (Lua.comment text inline)
      ↔ Lua.isLongForm text inline = true ∨ '\r' ∉ text.toList := by
  simp only [HasNoCode, comment_ne_empty, false_or]
  exact Lua.isComment_endsLine_iff text inline

theorem hasNoCode_inertText_iff (script : Script) (tree : Command)
    : (∀ text ∈ inertText? script tree, HasNoCode text) ↔ LeavesNoCode script tree := by
  cases tree with
  | comment index inline =>
      simp only [inertText?, commentText?, LeavesNoCode]
      cases script.comment? index with
      | none =>
          simp only [Option.mem_some_iff, forall_eq', hasNoCode_comment_iff, iff_true]
          exact Or.inr (by decide)
      | some text =>
          cases parsed : Directive.parse (Text.trim text) <;>
            simp [parsed, hasNoCode_comment_iff]
  | _ => simp [inertText?, LeavesNoCode]

/-- A handler that is recorded is compiled, its block is a single `mimic` of the recorded tile among
inert commands, and its function is the statement that hands the event to that tile by number, with
no declaration ahead of it, among the texts of the inert commands. These texts are all free of code
exactly if no inert command leaves code.
-/
theorem recorded_handler_only_delegates_iff (script : Script) (owner root : String)
    (entry : Handler) (before : State)
    (recorded
      : (finish (handler script owner root entry) before).delegations ≠ before.delegations)
    : ∃ text after id name target lead trail,
        handler script owner root entry before = .ok text after
        ∧ after.delegations
          = before.delegations
            ++ [{ owner, event := entry.event, targetId := id, targetName := name }]
        ∧ script.blocks[entry.block]? = some (lead ++ .mimic target :: trail)
        ∧ tileOf? before.tiles target = some (id, name)
        ∧ (∀ tree ∈ lead ++ trail, tree.isInert = true)
        ∧ text
          = handlerField (Engine.scriptTable owner) entry.event
            ++ " = function(__actor, event, __evname)\n"
            ++ linesAt before.indent
                (lead.filterMap (inertText? script)
                  ++ mimicById before.indent id name :: trail.filterMap (inertText? script))
            ++ "end\n"
        ∧ ((∀ line ∈ (lead ++ trail).filterMap (inertText? script), HasNoCode line)
            ↔ ∀ tree ∈ lead ++ trail, LeavesNoCode script tree) := by
  cases run : handler script owner root entry before with
  | error defect after =>
      rw [finish_of_error run] at recorded
      exact (recorded (handler_error run)).elim
  | ok text after =>
      rw [finish_of_ok run] at recorded
      obtain ⟨entered, inner, body, commands, margin, tiles, blockRun, found, rfl, records⟩ :=
        handler_eq_ok run
      cases delegates : (soleMimic? commands).bind (tileOf? before.tiles) with
      | none => simp [delegation?, delegates, records] at recorded
      | some tile =>
          obtain ⟨id, name⟩ := tile
          obtain ⟨target, sole, refers⟩ := Option.bind_eq_some_iff.mp delegates
          obtain ⟨lead, trail, rfl, inert⟩ := soleMimic_split sole
          have stillRefers : tileOf? entered.tiles target = some (id, name) := by rwa [tiles]
          have shape := blockWithin_text_of_soleMimic found inert stillRefers blockRun
          rw [margin] at shape
          refine ⟨_, after, id, name, target, lead, trail, rfl, ?_, found, refers, inert, ?_, ?_⟩
          · simpa only [delegation?, delegates, Option.map_some, Option.toList_some] using records
          · rw [shape]
          · simp only [← hasNoCode_inertText_iff, List.mem_filterMap, Option.mem_def]
            constructor
            · intro free tree member text leaves
              exact free text ⟨tree, member, leaves⟩
            · rintro free text ⟨tree, member, leaves⟩
              exact free tree member text leaves

/-- A script with a handler that opens a door and then sets a variable, in Lua of its own. -/
def codeAfterMimic : Script where
  name := "game"
  handlers := [{ event := "load", block := 0 }]
  blocks := [[.mimic (.str "door"), .comment 0 false]]
  comments := ["[LUA] opened = true"]

/-- The handler is recorded as one that only delegates, and its function sets the variable too. -/
theorem recorded_handler_sets_variable
    : ∃ text after,
        handler codeAfterMimic "game" "" ⟨"load", 0⟩ { tiles := .ofList [("door", 0)] }
          = .ok text after
        ∧ after.delegations
          = [{ owner := "game", event := "load", targetId := 0, targetName := "door" }]
        ∧ text
          = "__pulp:getScript(\"game\").load = function(__actor, event, __evname)\n"
            ++ linesAt 1 [mimicById 1 0 "door", "opened = true"] ++ "end\n"
        ∧ ¬ HasNoCode "opened = true" := by
  obtain ⟨text, after, id, name, target, lead, trail, run, records, found, refers, inert, shape,
      -⟩ :=
    recorded_handler_only_delegates_iff codeAfterMimic "game" "" ⟨"load", 0⟩
      { tiles := .ofList [("door", 0)] } (by decide +kernel)
  cases lead with
  | cons first rest =>
      obtain ⟨rfl, -⟩ := List.cons.inj (Option.some.inj found)
      cases inert (.mimic (.str "door")) List.mem_cons_self
  | nil =>
      cases found
      have door : tileOf? (.ofList [("door", 0)]) (.str "door") = some (0, "door") := by
        decide +kernel
      cases door.symm.trans refers
      have field : handlerField (Engine.scriptTable "game") "load"
          = "__pulp:getScript(\"game\").load" := by
        decide +kernel
      have code : [Command.comment 0 false].filterMap (inertText? codeAfterMimic)
          = ["opened = true"] := by
        decide +kernel
      refine ⟨text, after, run, records, ?_, by decide +kernel⟩
      rw [shape, field, code]
      rfl

end TileLua.Codegen
