import TileLua.Proofs.Codegen.CallRemarks
import TileLua.Proofs.Codegen.DelegatingHandler
import TileLua.Proofs.Codegen.Tour

/-! Comments that are call tags.
A comment is looked at twice: by the command before its run of comments, which collects the tags of
the run, and in its own place, where it leaves text unless it is a tag or a setting. The two agree
on what a tag is. Since a run of comments ends at the next command of another kind, a tag belongs to
one call at most.
-/

namespace TileLua

-----------------------------------------------------------------------------------------
-- Tags by their texts
-----------------------------------------------------------------------------------------

/-- The texts of call tags. -/
def Directive.IsCallTag (text : String) : Prop :=
  text = "[DIRECT]" ∨ ∃ name, text = "[SCRIPT:" ++ name ++ "]" ∧ name ≠ "" ∧ ']' ∉ name.toList

theorem Directive.isCallTag_iff (text : String)
    : (parse text).isCallTag = true ↔ IsCallTag text := by
  rw [IsCallTag, ← parse_eq_direct_iff]
  simp only [← parse_eq_script_iff]
  cases parse text <;> simp [isCallTag]

instance : DecidablePred Directive.IsCallTag :=
  fun text => decidable_of_iff _ (Directive.isCallTag_iff text)

def Command.isComment : Command → Bool
  | comment _ _ => true
  | _ => false

/-- The text of a comment without the blanks around it. -/
def Script.trimmed? (script : Script) : Command → Option String
  | .comment index _ => (script.comment? index).map Text.trim
  | _ => none

/-- The text of a comment that is a call tag. -/
def Script.callTag? (script : Script) (tree : Command) : Option String :=
  (script.trimmed? tree).filter Directive.IsCallTag

/-- The call tags in the run of comments right behind a position, each with its own position. -/
def Script.tagsBehind (script : Script) (body : List Command) (position : Nat)
    : List (Nat × String) :=
  (((body.drop (position + 1)).takeWhile Command.isComment).zipIdx (position + 1)).filterMap
    fun (tree, place) => (script.callTag? tree).map fun text => (place, text)

-----------------------------------------------------------------------------------------
-- Collecting tags
-----------------------------------------------------------------------------------------

/-- The tags behind a position without their positions. -/
theorem Script.tagsBehind_texts (script : Script) (body : List Command) (position : Nat)
    : (script.tagsBehind body position).map Prod.snd
      = ((body.drop (position + 1)).takeWhile Command.isComment).filterMap script.callTag? := by
  unfold tagsBehind
  generalize (body.drop (position + 1)).takeWhile Command.isComment = run
  have unplaced (tree : Command) (place : Nat)
      : ((script.callTag? tree).map fun text => (place, text)).map Prod.snd
        = script.callTag? tree := by
    simp [Function.comp_def]
  calc
    _ = (run.zipIdx (position + 1)).filterMap (script.callTag? ∘ Prod.fst) := by
      simp only [List.map_filterMap, unplaced, Function.comp_def]
    _ = run.filterMap script.callTag? := by
      rw [← List.filterMap_map, List.zipIdx_map_fst]

theorem Script.callTag_comment {script : Script} {index : Nat} {text : String}
    (found : script.comment? index = some text) (inline : Bool)
    : script.callTag? (.comment index inline)
      = if (Directive.parse (Text.trim text)).isCallTag then some (Text.trim text) else none := by
  simp [callTag?, trimmed?, found, Option.filter, Directive.isCallTag_iff]

theorem Script.callTag_missing {script : Script} {index : Nat}
    (missing : script.comment? index = none) (inline : Bool)
    : script.callTag? (.comment index inline) = none := by
  simp [callTag?, trimmed?, missing]

/-- Tags are collected from the run of comments that the commands start with, by induction over the
run.
-/
theorem Annotations.after_eq (script : Script) (following : List Command)
    : ((after script following).direct = true
        ↔ "[DIRECT]" ∈ (following.takeWhile Command.isComment).filterMap script.callTag?)
      ∧ (after script following).routes.map RouteTag.text
        = ((following.takeWhile Command.isComment).filterMap script.callTag?).filter
            (· ≠ "[DIRECT]") := by
  fun_induction after script following with
  | case1 index inline rest tags text found ih =>
      rw [List.takeWhile_cons_of_pos rfl, List.filterMap_cons, script.callTag_comment found]
      cases read : Directive.parse (Text.trim text) with
      | direct =>
          have shape := (Directive.parse_eq_direct_iff _).mp read
          simpa [add, Directive.isCallTag, shape] using ih.2
      | script name =>
          have other : Text.trim text ≠ "[DIRECT]" := by
            intro same
            rw [(Directive.parse_eq_direct_iff _).mpr same] at read
            cases read
          simpa [add, Directive.isCallTag, other, other.symm] using ih
      | _ => simpa [add, Directive.isCallTag] using ih
  | case2 index inline rest tags missing ih =>
      rw [List.takeWhile_cons_of_pos rfl, List.filterMap_cons, script.callTag_missing missing]
      exact ih
  | case3 following other =>
      have stops : following.takeWhile Command.isComment = [] := by
        cases following with
        | nil => rfl
        | cons first rest =>
            cases first with
            | comment index inline => exact (other index inline rest rfl).elim
            | _ => rfl
      simp [stops]

/-- A comment gives a tag to the command before it exactly if it is a call tag. -/
theorem Annotations.isEmpty_after_comment (script : Script) (index : Nat) (inline : Bool)
    : (after script [.comment index inline]).isEmpty = false
      ↔ (script.callTag? (.comment index inline)).isSome = true := by
  obtain ⟨direct, routes⟩ := after_eq script [.comment index inline]
  rw [List.takeWhile_cons_of_pos rfl, List.takeWhile_nil, List.filterMap_cons] at direct routes
  cases tagged : script.callTag? (.comment index inline) with
  | none =>
      simp only [tagged, List.filterMap_nil, List.not_mem_nil, iff_false, List.filter_nil,
        List.map_eq_nil_iff] at direct routes
      simp [isEmpty, direct, routes]
  | some text =>
      simp only [tagged, List.filterMap_nil, List.mem_singleton] at direct routes
      by_cases isDirect : text = "[DIRECT]"
      · simp [isEmpty, direct.mpr isDirect.symm]
      · rw [List.filter_cons_of_pos (by simpa using isDirect)] at routes
        have nonempty : (after script [.comment index inline]).routes ≠ [] := by
          intro none
          simp [none] at routes
        simp [isEmpty, nonempty]

/-- A run reaches a position if all positions up to it have the property. -/
theorem takeWhile_getElem_eq_some_iff {α : Type} {isIn : α → Bool} {list : List α} {place : Nat}
    {value : α}
    : (list.takeWhile isIn)[place]? = some value
      ↔ list[place]? = some value
        ∧ ∀ between ≤ place, ∃ other, list[between]? = some other ∧ isIn other = true := by
  induction list generalizing place with
  | nil => simp
  | cons first rest ih =>
      cases inside : isIn first with
      | false =>
          rw [List.takeWhile_cons_of_neg (by simp [inside])]
          refine ⟨fun found => by simp at found, ?_⟩
          intro reached
          obtain ⟨other, same, belongs⟩ := reached.2 0 (Nat.zero_le place)
          simp only [List.getElem?_cons_zero, Option.some.injEq] at same
          rw [← same, inside] at belongs
          cases belongs
      | true =>
          rw [List.takeWhile_cons_of_pos inside]
          cases place with
          | zero => simp [inside]
          | succ place =>
              simp only [List.getElem?_cons_succ, ih]
              refine and_congr_right fun _ => ⟨?_, ?_⟩
              · intro reached between bound
                cases between with
                | zero => exact ⟨first, rfl, inside⟩
                | succ between => exact reached between (by omega)
              · intro reached between bound
                exact reached (between + 1) (by omega)

/-- A tag belongs to a position if nothing but comments stands from there to the tag. -/
theorem Script.mem_tagsBehind_iff {script : Script} {body : List Command} {position place : Nat}
    {text : String}
    : (place, text) ∈ script.tagsBehind body position
      ↔ position < place
        ∧ (∃ tree, body[place]? = some tree ∧ script.callTag? tree = some text)
        ∧ ∀ between,
            position < between
            → between ≤ place
            → ∃ tree, body[between]? = some tree ∧ tree.isComment = true := by
  simp only [tagsBehind, List.mem_filterMap, Option.map_eq_some_iff, Prod.mk.injEq, Prod.exists,
    List.mk_mem_zipIdx_iff_le_and_getElem?_sub, takeWhile_getElem_eq_some_iff, List.getElem?_drop]
  constructor
  · intro member
    obtain ⟨tree, _, ⟨behind, found, comments⟩, _, tag, rfl, rfl⟩ := member
    have place : position + 1 + (_ - (position + 1)) = _ := Nat.add_sub_cancel' behind
    rw [place] at found
    refine ⟨behind, ⟨tree, found, tag⟩, ?_⟩
    intro between after upTo
    obtain ⟨other, same, isComment⟩ := comments (between - (position + 1)) (by omega)
    rw [Nat.add_sub_cancel' after] at same
    exact ⟨other, same, isComment⟩
  · intro placed
    obtain ⟨behind, ⟨tree, found, tag⟩, comments⟩ := placed
    refine ⟨tree, place, ⟨behind, ?_, ?_⟩, text, tag, rfl, rfl⟩
    · rw [Nat.add_sub_cancel' behind]
      exact found
    · intro between bound
      exact comments (position + 1 + between) (by omega) (by omega)

/-- Between two calls there is no run of comments, so a tag belongs to one of them at most. -/
theorem Script.call_unique_of_mem_tagsBehind {script : Script} {body : List Command}
    {first second place : Nat} {one other : Callee} {text again : String}
    (firstCall : body[first]? = some (.call one)) (secondCall : body[second]? = some (.call other))
    (consumed : (place, text) ∈ script.tagsBehind body first)
    (consumedAgain : (place, again) ∈ script.tagsBehind body second)
    : first = second := by
  have apart {start call : Nat} {callee : Callee} {shown shownAgain : String}
      (isCall : body[call]? = some (.call callee)) (earlier : start < call)
      (tagged : (place, shown) ∈ script.tagsBehind body start)
      (taggedAgain : (place, shownAgain) ∈ script.tagsBehind body call)
      : False := by
    obtain ⟨behind, -, -⟩ := mem_tagsBehind_iff.mp taggedAgain
    obtain ⟨-, -, comments⟩ := mem_tagsBehind_iff.mp tagged
    obtain ⟨tree, found, isComment⟩ := comments call earlier (by omega)
    cases isCall.symm.trans found
    cases isComment
  rcases Nat.lt_trichotomy first second with earlier | same | later
  · exact (apart secondCall earlier consumed consumedAgain).elim
  · exact same
  · exact (apart firstCall later consumedAgain consumed).elim

-----------------------------------------------------------------------------------------
-- Comments in their own place
-----------------------------------------------------------------------------------------

/-- Whether a comment begins with the mark of a setting. -/
def Script.IsSetting (script : Script) (index : Nat) : Prop :=
  ∃ text group rest,
    script.comment? index = some text ∧ Text.trim text = SettingGroup.mark group ++ rest

theorem Settings.set_ne_empty (group : SettingGroup) (key value : String)
    : Settings.set {} group key value ≠ {} := by
  intro same
  cases group with
  | pdxInfo =>
      have empty := congrArg (fun settings => settings.pdxInfo.isEmpty) same
      simp [Settings.set] at empty
  | ptl =>
      have empty := congrArg (fun settings => settings.ptl.isEmpty) same
      simp [Settings.set] at empty

namespace Codegen

/-- A call tag leaves no text and changes nothing. -/
theorem comment_of_callTag {script : Script} {index : Nat} {inline : Bool} {tag : String}
    (tagged : script.callTag? (.comment index inline) = some tag) (before : State)
    : comment script index inline before = .ok none before := by
  unfold comment
  cases found : script.comment? index with
  | none =>
      rw [script.callTag_missing found] at tagged
      cases tagged
  | some text =>
      rw [script.callTag_comment found] at tagged
      cases read : Directive.parse (Text.trim text) with
      | direct =>
          simp only [read]
          rfl
      | script name =>
          simp only [read]
          rfl
      | _ => simp [read, Directive.isCallTag] at tagged

/-- A comment that is neither a call tag nor a setting leaves text and changes nothing. -/
theorem comment_of_untagged {script : Script} {index : Nat} {inline : Bool}
    (untagged : script.callTag? (.comment index inline) = none) (plain : ¬ script.IsSetting index)
    : ∃ shown,
        commentText? script index inline = some shown
        ∧ ∀ before, comment script index inline before = .ok (some shown) before := by
  unfold comment commentText?
  cases found : script.comment? index with
  | none => exact ⟨_, rfl, fun _ => rfl⟩
  | some text =>
      rw [script.callTag_comment found] at untagged
      cases read : Directive.parse (Text.trim text) with
      | direct => simp [read, Directive.isCallTag] at untagged
      | script name => simp [read, Directive.isCallTag] at untagged
      | setting group key value =>
          obtain ⟨rest, marked, -⟩ := (Directive.parse_eq_setting_iff _ _ _ _).mp read
          exact (plain ⟨text, group, rest, found, marked⟩).elim
      | _ =>
          simp only [read]
          exact ⟨_, rfl, fun _ => rfl⟩

/-- A setting is taken over or reported, so there is a state that it changes. -/
theorem applySetting_touches (directive : String) (group : SettingGroup) (key : String)
    (value : Option String)
    : ∃ before after,
        applySetting directive group key value before = .ok () after
        ∧ (after.diagnostics ≠ before.diagnostics ∨ after.settings ≠ before.settings) := by
  by_cases lacking : value = none ∨ key = ""
  · rw [applySetting_of_lacking lacking]
    exact ⟨{}, _, rfl, Or.inl (by simp)⟩
  · rw [not_or] at lacking
    cases value with
    | none => exact (lacking.1 rfl).elim
    | some value =>
        simp only [applySetting, String.isEmpty_iff, lacking.2, ↓reduceIte]
        exact ⟨{ settings := {} }, _, rfl, Or.inr (Settings.set_ne_empty group key value)⟩

/-- Only call tags leave neither text nor any other trace, whatever the state is. -/
theorem callTag_of_silent {script : Script} {index : Nat} {inline : Bool}
    (silent
      : ∀ before, ∃ journal,
          comment script index inline before = .ok none { before with journal })
    : (script.callTag? (.comment index inline)).isSome = true := by
  rw [Option.isSome_iff_ne_none]
  intro untagged
  by_cases isSetting : script.IsSetting index
  · obtain ⟨text, group, rest, found, marked⟩ := isSetting
    obtain ⟨key, value, parts⟩ := Directive.exists_isSetting rest
    have read := (Directive.parse_eq_setting_iff _ _ _ _).mpr ⟨rest, marked, parts⟩
    obtain ⟨before, after, applied, touched⟩ :=
      applySetting_touches (Text.trim text) group key value
    obtain ⟨journal, run⟩ := silent before
    unfold comment at run
    simp only [found, read] at run
    obtain ⟨_, _, again, result⟩ := bind_eq_ok.mp run
    obtain ⟨-, rfl⟩ := pure_eq_ok.mp result
    cases applied.symm.trans again
    simp at touched
  · obtain ⟨shown, -, printed⟩ := comment_of_untagged untagged isSetting
    obtain ⟨journal, run⟩ := silent {}
    rw [printed] at run
    cases run

-----------------------------------------------------------------------------------------
-- Tags in a block
-----------------------------------------------------------------------------------------

/-- The texts that the lines of a block are made of, one for each command that leaves any. -/
structure Printed (script : Script) (write : BlockWriter) (body : List Command) (indent : Nat)
    (lines : List String) (texts : List (Option String)) : Prop where
  length : texts.length = body.length
  joined : String.join lines = linesAt indent (texts.filterMap id)
  /-- Each command is compiled with the tags behind it. -/
  compiled (place : Nat) (tree : Command) (found : body[place]? = some tree)
    : ∃ state next text,
        texts[place]? = some text
        ∧ command script write (Annotations.after script (body.drop (place + 1))) tree state
          = .ok text next
  /-- A call tag leaves no text. -/
  silent (place index : Nat) (inline : Bool) (found : body[place]? = some (.comment index inline))
    (tagged : (script.callTag? (.comment index inline)).isSome = true)
    : texts[place]? = some none
  /-- A comment that is neither a call tag nor a setting leaves its text. -/
  shown (place index : Nat) (inline : Bool) (found : body[place]? = some (.comment index inline))
    (untagged : script.callTag? (.comment index inline) = none) (plain : ¬ script.IsSetting index)
    : ∃ shown,
        texts[place]? = some (some shown)
        ∧ commentText? script index inline = some shown

/-- The comments of a block leave the lines that they leave in any state. -/
theorem commands_printed {script : Script} {write : BlockWriter} {block : Nat}
    (written : ∀ scope index, Keeps State.Grown (write scope index))
    {body : List Command} {start : Nat} {before after : State} {lines : List String}
    (run : commands script write block start body before = .ok lines after)
    : ∃ texts, Printed script write body before.indent lines texts := by
  obtain ⟨texts, sameLength, shape, each⟩ := commands_eq_ok written run
  refine ⟨texts, sameLength, shape, ?_, ?_, ?_⟩
  · intro place tree found
    obtain ⟨state, next, text, listed, -, -, lineRun⟩ := each place tree found
    exact ⟨state, next, text, listed, lineRun⟩
  · intro place index inline found tagged
    obtain ⟨state, next, text, listed, -, -, lineRun⟩ := each place _ found
    obtain ⟨tag, same⟩ := Option.isSome_iff_exists.mp tagged
    simp only [command] at lineRun
    rw [comment_of_callTag same] at lineRun
    cases lineRun
    exact listed
  · intro place index inline found untagged plain
    obtain ⟨state, next, text, listed, -, -, lineRun⟩ := each place _ found
    obtain ⟨shown, known, printed⟩ := comment_of_untagged untagged plain
    simp only [command] at lineRun
    rw [printed] at lineRun
    cases lineRun
    exact ⟨shown, listed, known⟩

/-- A tag that a command collects leaves no text. -/
theorem Printed.tag_silent {script : Script} {write : BlockWriter} {body : List Command}
    {indent : Nat} {lines : List String} {texts : List (Option String)}
    (printed : Printed script write body indent lines texts) {position place : Nat} {text : String}
    (collected : (place, text) ∈ script.tagsBehind body position)
    : texts[place]? = some none := by
  obtain ⟨behind, ⟨tree, found, tagged⟩, inRun⟩ := Script.mem_tagsBehind_iff.mp collected
  obtain ⟨same, sameFound, isComment⟩ := inRun place behind (Nat.le_refl place)
  cases found.symm.trans sameFound
  cases tree with
  | comment index inline =>
      exact printed.silent place index inline found (Option.isSome_iff_exists.mpr ⟨text, tagged⟩)
  | _ => cases isComment

/-- Whether a comment gives the command before it a tag. -/
def GivesTag (script : Script) (index : Nat) (inline : Bool) : Prop :=
  (Annotations.after script [.comment index inline]).isEmpty = false

/-- How the commands of a block collect tags, and what the comments of the block leave. -/
structure CollectedOnce (script : Script) (body : List Command) : Prop where
  /-- A command collects the tags of the call tags in the run of comments behind it, in order. -/
  direct_iff (position : Nat)
    : (Annotations.after script (body.drop (position + 1))).direct = true
      ↔ "[DIRECT]" ∈ (script.tagsBehind body position).map Prod.snd
  routes (position : Nat)
    : (Annotations.after script (body.drop (position + 1))).routes.map RouteTag.text
      = ((script.tagsBehind body position).map Prod.snd).filter (· ≠ "[DIRECT]")
  route_text (position : Nat)
    : ∀ tag ∈ (Annotations.after script (body.drop (position + 1))).routes,
        tag.text = "[SCRIPT:" ++ tag.script ++ "]"
  /-- A comment gives a tag exactly if it leaves neither text nor any trace in its own place. -/
  callTag_iff (index : Nat) (inline : Bool)
    : GivesTag script index inline ↔ (script.callTag? (.comment index inline)).isSome = true
  silent_iff (index : Nat) (inline : Bool)
    : GivesTag script index inline ↔ ∀ before, comment script index inline before = .ok none before
  traceless_iff (index : Nat) (inline : Bool)
    : GivesTag script index inline
      ↔ ∀ before, ∃ journal,
          comment script index inline before = .ok none { before with journal }
  /-- Every comment that is neither a call tag nor a setting leaves its text. -/
  shown (index : Nat) (inline : Bool) (untagged : ¬ GivesTag script index inline)
    (plain : ¬ script.IsSetting index)
    : ∃ shown,
        commentText? script index inline = some shown
        ∧ ∀ before, comment script index inline before = .ok (some shown) before
  /-- The tags that commands of the block collect are not printed. -/
  printed (depth block start : Nat) (before : State) (lines : List String) (after : State)
    (run : commands script (blockWithin script depth) block start body before = .ok lines after)
    : ∃ texts,
        Printed script (blockWithin script depth) body before.indent lines texts
        ∧ ∀ position place text,
            (place, text) ∈ script.tagsBehind body position → texts[place]? = some none
  /-- No two calls collect the same tag. -/
  once (first second : Nat) (one other : Callee) (place : Nat) (text again : String)
    : body[first]? = some (.call one)
      → body[second]? = some (.call other)
      → (place, text) ∈ script.tagsBehind body first
      → (place, again) ∈ script.tagsBehind body second
      → first = second

/-- In every block the tags that commands collect are those of the call tags behind them, are not
printed, and belong to one call at most.
-/
theorem call_tags_are_collected_once_and_not_printed (script : Script) (body : List Command)
    : CollectedOnce script body := by
  have gives (index : Nat) (inline : Bool)
      : GivesTag script index inline
        ↔ (script.callTag? (.comment index inline)).isSome = true := by
    rw [GivesTag, Annotations.isEmpty_after_comment]
  have silent {index : Nat} {inline : Bool}
      (tagged : (script.callTag? (.comment index inline)).isSome = true) (before : State)
      : comment script index inline before = .ok none before := by
    obtain ⟨tag, same⟩ := Option.isSome_iff_exists.mp tagged
    exact comment_of_callTag same before
  constructor
  case direct_iff =>
    intro position
    rw [script.tagsBehind_texts]
    exact (Annotations.after_eq script (body.drop (position + 1))).1
  case routes =>
    intro position
    rw [script.tagsBehind_texts]
    exact (Annotations.after_eq script (body.drop (position + 1))).2
  case route_text => exact fun position => Annotations.text_of_mem_after script _
  case callTag_iff => exact gives
  case silent_iff =>
    intro index inline
    rw [gives]
    exact ⟨silent, fun quiet => callTag_of_silent (fun before => ⟨before.journal, quiet before⟩)⟩
  case traceless_iff =>
    intro index inline
    rw [gives]
    exact ⟨fun tagged before => ⟨before.journal, silent tagged before⟩, callTag_of_silent⟩
  case shown =>
    intro index inline untagged plain
    rw [gives] at untagged
    exact comment_of_untagged (by simpa using untagged) plain
  case printed =>
    intro depth block start before lines after run
    obtain ⟨texts, printed⟩ := commands_printed (blockWithin_grown script depth) run
    exact ⟨texts, printed, fun _ _ _ => printed.tag_silent⟩
  case once =>
    intro first second one other place text again firstCall secondCall consumed consumedAgain
    exact Script.call_unique_of_mem_tagsBehind firstCall secondCall consumed consumedAgain

/-- Two calls, the first with a tag on each side of a note. -/
def taggedCalls : List Command :=
  [.call (.name "open"), .comment 0 false, .comment 1 false, .comment 2 true, .blank,
    .call (.name "close"), .comment 0 false]

def taggedScript : Script where
  name := "hub"
  blocks := [taggedCalls]
  comments := ["[DIRECT]", "knock first", " [SCRIPT:door] "]

/-- The first call collects the tags on both sides of the note, and the comment of the note alone is
printed.
-/
theorem note_between_tags_is_printed
    : ∃ lines after, ∃ texts : List (Option String),
        commands taggedScript (blockWithin taggedScript 1) 0 0 taggedCalls {} = .ok lines after
        ∧ taggedScript.tagsBehind taggedCalls 0 = [(1, "[DIRECT]"), (3, "[SCRIPT:door]")]
        ∧ taggedScript.tagsBehind taggedCalls 5 = [(6, "[DIRECT]")]
        ∧ String.join lines = linesAt 1 (texts.filterMap id)
        ∧ texts[1]? = some none
        ∧ texts[2]? = some (some "--knock first")
        ∧ texts[3]? = some none
        ∧ texts[6]? = some none := by
  have success
      : succeeds (commands taggedScript (blockWithin taggedScript 1) 0 0 taggedCalls) {}
        = true := by
    decide +kernel
  have opening
      : taggedScript.tagsBehind taggedCalls 0 = [(1, "[DIRECT]"), (3, "[SCRIPT:door]")] := by
    decide +kernel
  have closing : taggedScript.tagsBehind taggedCalls 5 = [(6, "[DIRECT]")] := by
    decide +kernel
  have untagged : taggedScript.callTag? (.comment 1 false) = none := by
    decide +kernel
  have plain : ¬ taggedScript.IsSetting 1 := by
    intro setting
    obtain ⟨text, group, rest, found, shape⟩ := setting
    cases found
    have start : (Text.trim "knock first").toList.head? = some 'k' := by
      decide +kernel
    rw [shape] at start
    cases group <;> simp [SettingGroup.mark] at start
  have note : commentText? taggedScript 1 false = some "--knock first" := by
    decide +kernel
  have collected := call_tags_are_collected_once_and_not_printed taggedScript taggedCalls
  obtain ⟨lines, after, run⟩ := exists_ok_of_succeeds success
  obtain ⟨texts, printed, silent⟩ := collected.printed 1 0 0 {} lines after run
  obtain ⟨shown, listed, same⟩ := printed.shown 2 1 false rfl untagged plain
  cases note.symm.trans same
  refine ⟨lines, after, texts, run, opening, closing, printed.joined, silent 0 1 "[DIRECT]" ?_,
    listed, silent 0 3 "[SCRIPT:door]" ?_, silent 5 6 "[DIRECT]" ?_⟩
  · simp [opening]
  · simp [opening]
  · simp [closing]

end Codegen

end TileLua
