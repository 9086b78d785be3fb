import TileLua.Proofs.Codegen.CallResolution
import TileLua.Proofs.Codegen.RoutedCalls
import TileLua.Proofs.Directive.Forms
import TileLua.Proofs.Lua.CommentLexing

/-! What follows the arguments of a call.
A call ends in a comment that tells what it calls and which tags it has. A call of an event that the
script is known to handle needs no comment, and so its routing tags, which are added all the same,
stand there as code. A tag that goes on in another line is code from there on.
-/

namespace TileLua

-----------------------------------------------------------------------------------------
-- The tags that comments attach to a call
-----------------------------------------------------------------------------------------

/-- The routing tags of a call are comments of its script. -/
theorem Annotations.of_mem_after (source : Script) (following : List Command)
    : ∀ tag ∈ (after source following).routes,
        ∃ given ∈ source.comments,
          Text.trim given = tag.text ∧ Directive.parse tag.text = .script tag.script := by
  fun_induction after source following with
  | case1 index inline rest tags text found ih =>
      intro tag member
      unfold add at member
      split at member
      · exact ih tag member
      · rename_i name read
        rcases List.mem_cons.mp member with rfl | later
        · exact ⟨text, List.mem_of_getElem? found, rfl, read⟩
        · exact ih tag later
      · exact ih tag member
  | case2 index inline rest tags missing ih => exact ih
  | case3 => simp

/-- The routing tags of a call are written in full. -/
theorem Annotations.text_of_mem_after (source : Script) (following : List Command)
    : ∀ tag ∈ (after source following).routes, tag.text = "[SCRIPT:" ++ tag.script ++ "]" := by
  intro tag member
  obtain ⟨given, -, -, read⟩ := of_mem_after source following tag member
  exact ((Directive.parse_eq_script_iff _ _).mp read).1

namespace Codegen

-----------------------------------------------------------------------------------------
-- The remark of a call
-----------------------------------------------------------------------------------------

/-- Whether a call is of an event that the script is known to handle. -/
def isKnownOwn (state : State) : Callee → Bool
  | .name event => state.dispatchObject == Engine.ownObject && state.ownEvents.contains event
  | .computed _ => false

/-- The tags of a call as they follow its remark. -/
def tagTexts (tags : List RouteTag) : String :=
  String.join (tags.map fun tag => " " ++ tag.text)

/-- The routing tags are added to the remark, by induction over the tags. -/
theorem routedDispatch_remark {handler : String} {found dispatch : Dispatch}
    {tags : List RouteTag} {before after : State}
    (run : routedDispatch handler found tags before = .ok dispatch after)
    : dispatch.remark = found.remark ++ tagTexts tags := by
  induction tags generalizing found before with
  | nil =>
      obtain ⟨rfl, -⟩ := pure_eq_ok.mp run
      exact String.append_empty.symm
  | cons tag rest ih =>
      obtain ⟨function, middle, -, run⟩ := bind_eq_ok.mp run
      rw [ih run]
      simp only [tagTexts, List.map_cons, String.join_cons, String.append_assoc]

/-- What can follow the name of the handler in a remark. -/
def remarkTrails : List String :=
  ["", " [DIRECT]", " [doesn't exist, so any]"]

/-- A remark that names the handler of a call. -/
def NamesHandler (remark : String) : Prop :=
  ∃ handler, ∃ trail ∈ remarkTrails, remark = "--[call \"" ++ Lua.escape handler ++ "\"]" ++ trail

theorem lookupDispatch_remark (tags : Annotations) (object : String) (form : CallForm)
    : NamesHandler (lookupDispatch tags object form).remark := by
  unfold lookupDispatch
  cases tags.direct with
  | true => exact ⟨form.handler, " [DIRECT]", by simp [remarkTrails], rfl⟩
  | false => exact ⟨form.handler, "", by simp [remarkTrails], String.append_empty.symm⟩

/-- A call that the script is known to handle has no remark before its tags. -/
theorem plainDispatch_of_known {tags : Annotations} {events : Std.TreeSet String} {form : CallForm}
    (fixed : form.isFixed = true) (known : events.contains form.handler = true)
    : (plainDispatch tags Engine.ownObject events form).remark = "" := by
  simp only [plainDispatch, ownDispatch, fixed, known, Bool.not_true, Bool.false_eq_true,
    ↓reduceIte]

/-- Any other call has a remark that names its handler. -/
theorem plainDispatch_of_unknown {tags : Annotations} {object : String}
    {events : Std.TreeSet String} {form : CallForm}
    (unknown : object = Engine.ownObject → form.isFixed = true
      → events.contains form.handler = false)
    : NamesHandler (plainDispatch tags object events form).remark := by
  have found := lookupDispatch_remark tags object form
  unfold plainDispatch
  split
  · rename_i own
    unfold ownDispatch
    split
    · exact found
    · rename_i fixed
      rw [unknown own (by simpa using fixed)]
      cases direct : tags.direct with
      | true => exact found
      | false =>
          refine ⟨form.handler, " [doesn't exist, so any]", by simp [remarkTrails], ?_⟩
          simp only [lookupDispatch, direct, Bool.false_eq_true, ↓reduceIte]
  · exact found

/-- A call is its function with three arguments, and after them a remark that names its handler,
unless the script is known to handle the event, and its routing tags.
-/
theorem callSite_remark {write : BlockWriter} {tags : Annotations} {callee : Callee}
    {before after : State} {text : String}
    (run : callSite write tags callee before = .ok text after)
    : ∃ function event lead,
        text = Dispatch.text { function, remark := lead ++ tagTexts tags.routes } event
        ∧ (∃ middle, eventText write callee before = .ok event middle)
        ∧ (isKnownOwn before callee = true → lead = "")
        ∧ (isKnownOwn before callee = false → NamesHandler lead) := by
  obtain ⟨form, middle, bound, dispatch, formed, bind, routed, rfl⟩ := callSite_eq_ok run
  obtain ⟨event, -⟩ := callForm_eq_ok formed
  have events : bound.ownEvents = middle.ownEvents := by
    split at bind
    · obtain ⟨journal, bound⟩ := bindLocal_apply (ownBinding middle.root) middle
      rw [bound] at bind
      cases bind
      rfl
    · cases bind
      rfl
  refine ⟨dispatch.function, form.event,
    (plainDispatch tags before.dispatchObject bound.ownEvents form).remark, ?_, ⟨middle, event⟩, ?_⟩
  · rw [← routedDispatch_remark routed]
  · cases callee with
    | name event =>
        obtain ⟨rfl, rfl⟩ := pure_eq_ok.mp formed
        simp only [isKnownOwn, Bool.and_eq_true, beq_iff_eq, Bool.and_eq_false_iff,
          beq_eq_false_iff_ne]
        constructor
        · rintro ⟨own, known⟩
          rw [own]
          exact plainDispatch_of_known rfl (by rwa [events])
        · intro unknown
          refine plainDispatch_of_unknown (fun own _ => ?_)
          rw [events]
          exact unknown.resolve_left (not_not_intro own)
    | computed tree =>
        obtain ⟨text, after, -, result⟩ := bind_eq_ok.mp formed
        obtain ⟨rfl, rfl⟩ := pure_eq_ok.mp result
        constructor
        · intro known
          cases known
        · intro _
          refine plainDispatch_of_unknown (fun _ fixed => ?_)
          cases fixed

-----------------------------------------------------------------------------------------
-- Where the remark ends
-----------------------------------------------------------------------------------------

theorem NamesHandler.closed {lead : String} (names : NamesHandler lead)
    : lead.toList.getLast? = some ']' := by
  obtain ⟨handler, trail, member, rfl⟩ := names
  simp only [remarkTrails, List.mem_cons, List.not_mem_nil, or_false] at member
  rcases member with rfl | rfl | rfl
  all_goals simp [String.toList_append, List.getLast?_cons]

theorem mem_tagTexts {c : Char} (solid : c ≠ ' ') (tags : List RouteTag)
    : c ∈ (tagTexts tags).toList ↔ ∃ tag ∈ tags, c ∈ tag.text.toList := by
  simp [tagTexts, String.toList_append, solid]

/-- A remark that names a handler stays on its line, since the name is escaped. -/
theorem NamesHandler.lineFeed_not_mem {lead : String} (names : NamesHandler lead)
    : '\n' ∉ lead.toList := by
  obtain ⟨handler, trail, member, rfl⟩ := names
  have escaped : '\n' ∉ (Lua.escape handler).toList := by
    have quoted := Lua.lineFeed_not_mem_quote handler
    simp only [Lua.quote, String.toList_append, List.mem_append, not_or] at quoted
    exact quoted.1.2
  have trailing : '\n' ∉ trail.toList := by
    have all : ∀ trail ∈ remarkTrails, '\n' ∉ trail.toList := by decide
    exact all trail member
  simp [String.toList_append, escaped, trailing]

/-- A remark that names a handler is a comment together with the tags exactly if they stay on its
line.
-/
theorem NamesHandler.isComment_iff {lead : String} (names : NamesHandler lead)
    (tags : List RouteTag)
    : Lua.IsComment (· == '\n') (lead ++ tagTexts tags)
      ↔ ∀ tag ∈ tags, '\n' ∉ tag.text.toList := by
  have single := names.lineFeed_not_mem
  obtain ⟨handler, trail, -, rfl⟩ := names
  have split : "--[call \"" ++ Lua.escape handler ++ "\"]" ++ trail ++ tagTexts tags
      = "--" ++ ("[call \"" ++ Lua.escape handler ++ "\"]" ++ trail ++ tagTexts tags) := by
    simp [← String.toList_inj, String.toList_append]
  have plain : Lua.longBracket?
      ("[call \"" ++ Lua.escape handler ++ "\"]" ++ trail ++ tagTexts tags).toList = none := by
    simp [String.toList_append, Lua.longBracket?]
  simp only [String.toList_append, List.mem_append, not_or] at single
  rw [split, Lua.isComment_singleLine_iff plain]
  simp [String.toList_append, single, mem_tagTexts]

/-- Tags that are written in full end in a bracket, and so does a text that they end. -/
theorem closed_of_tags {tags : List RouteTag} (present : tags ≠ [])
    (full : ∀ tag ∈ tags, tag.text = "[SCRIPT:" ++ tag.script ++ "]") (lead : String)
    : (lead ++ tagTexts tags).toList.getLast? = some ']' := by
  obtain ⟨front, last, rfl⟩ := (List.eq_nil_or_concat tags).resolve_left present
  have text := full last (by simp)
  simp [tagTexts, text, String.toList_append, List.getLast?_cons]

theorem NamesHandler.startsWith {lead : String} (names : NamesHandler lead) (rest : String)
    : Text.startsWith (" " ++ (lead ++ rest)) " --" = true := by
  obtain ⟨handler, trail, -, rfl⟩ := names
  simp [Text.startsWith, String.toList_append]

/-- Tags that stand alone do not start a comment. -/
theorem startsWith_tagTexts (tags : List RouteTag)
    : Text.startsWith (" " ++ tagTexts tags) " --" = false := by
  cases tags with
  | nil => decide
  | cons tag rest => simp [Text.startsWith, tagTexts, String.toList_append, List.isPrefixOf]

/-- A call is one call, and nothing or a comment after it, exactly if it has no routing tags or the
script is not known to handle its event: otherwise the tags stand alone after the call. All that
follows the call is in the comment exactly if no tag goes on in another line either.
-/
theorem call_ends_in_comment_iff (source : Script) (following : List Command) (callee : Callee)
    (before after : State) (text : String)
    (run : callSite (block source) (Annotations.after source following) callee before
      = .ok text after)
    : ∃ function event rest tags,
        text = function ++ "(__actor, event, " ++ event ++ ")" ++ rest
        ∧ (∃ middle, eventText (block source) callee before = .ok event middle)
        ∧ tags = (Annotations.after source following).routes
        ∧ (rest = "" ∨ Text.startsWith rest " --" = true
          ↔ isKnownOwn before callee = false ∨ tags = [])
        ∧ (rest = "" ∨ (∃ remark, rest = " " ++ remark ∧ Lua.IsComment (· == '\n') remark)
          ↔ (isKnownOwn before callee = false ∨ tags = [])
            ∧ ∀ tag ∈ tags, '\n' ∉ tag.text.toList)
        ∧ (isKnownOwn before callee = true → tags ≠ [] → rest = " " ++ tagTexts tags) := by
  obtain ⟨function, event, lead, rfl, lowered, known, unknown⟩ := callSite_remark run
  have full := Annotations.text_of_mem_after source following
  generalize (Annotations.after source following).routes = tags at full
  cases own : isKnownOwn before callee with
  | false =>
      have names := unknown own
      have closed : (lead ++ tagTexts tags).toList.getLast? = some ']' := by
        by_cases none : tags = []
        · rw [none]
          simpa [tagTexts] using names.closed
        · exact closed_of_tags none full lead
      have solid : " " ++ (lead ++ tagTexts tags) ≠ "" := by
        simp [← String.toList_inj, String.toList_append]
      refine ⟨function, event, " " ++ (lead ++ tagTexts tags), tags,
        Dispatch.text_of_remark event closed, lowered, rfl, ?_, ?_, by simp⟩
      · simp [names.startsWith]
      · rw [← names.isComment_iff tags]
        constructor
        · intro either
          obtain ⟨remark, same, comment⟩ := either.resolve_left solid
          have whole : lead ++ tagTexts tags = remark := by
            simpa [← String.toList_inj, String.toList_append] using same
          exact ⟨Or.inl rfl, whole ▸ comment⟩
        · intro comment
          exact Or.inr ⟨_, rfl, comment.2⟩
  | true =>
      obtain rfl := known own
      by_cases none : tags = []
      · subst none
        refine ⟨function, event, "", [], ?_, lowered, rfl, by simp, by simp, by simp⟩
        rw [String.append_empty]
        exact Dispatch.text_of_no_remark function event
      · have closed := closed_of_tags none full ""
        have alone := startsWith_tagTexts tags
        rw [String.empty_append] at closed ⊢
        have solid : " " ++ tagTexts tags ≠ "" := by
          simp [← String.toList_inj, String.toList_append]
        refine ⟨function, event, " " ++ tagTexts tags, tags, Dispatch.text_of_remark event closed,
          lowered, rfl, by simp [alone, solid, none], ?_, fun _ _ => rfl⟩
        refine iff_of_false ?_ (by simp [none])
        intro either
        obtain ⟨remark, same, comment⟩ := either.resolve_left solid
        obtain ⟨inside, dashes⟩ := comment.dashes
        rw [same] at alone
        simp [Text.startsWith, String.toList_append, dashes] at alone

/-- A script whose handler calls the other one, and routes the call to the script of a door. -/
def routedOwnCall : Script where
  name := "hub"
  handlers := [⟨"load", 0⟩, ⟨"open", 1⟩]
  blocks := [[.call (.name "open"), .comment 0 false], []]
  comments := ["[SCRIPT:door]"]

/-- The tag of a call that the script is known to handle follows the call as code. -/
theorem routed_own_call_strands_tag
    : ∃ text after function event rest,
        callSite (block routedOwnCall) (Annotations.after routedOwnCall [.comment 0 false])
          (.name "open") { ownEvents := .ofList routedOwnCall.events }
          = .ok text after
        ∧ text = function ++ "(__actor, event, " ++ event ++ ")" ++ rest
        ∧ event = "\"open\""
        ∧ rest = "  [SCRIPT:door]"
        ∧ ¬ (rest = "" ∨ Text.startsWith rest " --" = true) := by
  have success
      : succeeds
          (callSite (block routedOwnCall) (Annotations.after routedOwnCall [.comment 0 false])
            (.name "open"))
          { ownEvents := .ofList routedOwnCall.events } = true := by
    decide +kernel
  obtain ⟨text, after, run⟩ := exists_ok_of_succeeds success
  obtain ⟨function, event, rest, tags, shape, ⟨middle, lowered⟩, found, bare, -, alone⟩ :=
    call_ends_in_comment_iff _ _ _ _ _ _ run
  have routes : (Annotations.after routedOwnCall [.comment 0 false]).routes
      = [⟨"door", "[SCRIPT:door]"⟩] := by
    decide +kernel
  have own : isKnownOwn { ownEvents := .ofList routedOwnCall.events } (.name "open") = true := by
    decide +kernel
  rw [routes] at found
  subst found
  obtain ⟨rfl, -⟩ := pure_eq_ok.mp lowered
  refine ⟨text, after, function, _, rest, run, shape, by decide, ?_, ?_⟩
  · rw [alone own (by simp)]
    decide
  · rw [bare, own]
    simp

end Codegen

end TileLua
