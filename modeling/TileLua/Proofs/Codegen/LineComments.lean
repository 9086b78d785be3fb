import TileLua.Codegen.Script
import TileLua.Proofs.Codegen.CallRemarks

/-! Line comments with text that scripts give.
The banner of a script shows its name, the remark of a call shows its handler and its routing tags,
and an unknown command leaves a remark with its tag. Line feeds are escaped in handlers and replaced
in unknown tags, but names and routing tags are shown as they are: a line feed in one of them ends
the comment, and the rest is code.
-/

namespace TileLua

-----------------------------------------------------------------------------------------
-- The banner of a script
-----------------------------------------------------------------------------------------

namespace Registry.Entry

/-- The first line of the registration of a script. -/
def banner (entry : Entry) : String :=
  "----------------- " ++ entry.name ++ " ----------------------------"

/-- The statements after the banner. -/
def statements (entry : Entry) : String :=
  "__pulp:newScript(" ++ Lua.quote entry.name ++ ")\n"
    ++ entry.slot ++ " = " ++ Engine.scriptTable entry.name ++ "\n"
    ++ "__pulp:associateScript(" ++ Lua.quote entry.name ++ ", \"" ++ entry.kind.word ++ "\", "
    ++ toString entry.id ++ ")\n"

theorem header_eq (entry : Entry)
    : entry.header = "\n" ++ entry.banner ++ "\n\n" ++ entry.statements := by
  unfold header banner statements
  simp [← String.toList_inj, String.toList_append]

/-- The banner is one comment exactly if the name stays on its line. -/
theorem isComment_banner_iff (entry : Entry)
    : Lua.IsComment (· == '\n') entry.banner ↔ '\n' ∉ entry.name.toList := by
  have split : entry.banner
      = "--" ++ ("--------------- " ++ entry.name ++ " ----------------------------") := by
    unfold banner
    simp [← String.toList_inj, String.toList_append]
  have plain : Lua.longBracket?
      ("--------------- " ++ entry.name ++ " ----------------------------").toList = none := by
    simp [String.toList_append, Lua.longBracket?]
  rw [split, Lua.isComment_singleLine_iff plain]
  simp [String.toList_append]

end Registry.Entry

namespace Codegen

-----------------------------------------------------------------------------------------
-- Unknown commands
-----------------------------------------------------------------------------------------

theorem lineFeed_not_mem_onOneLine (text : String) : '\n' ∉ (onOneLine text).toList := by
  rw [onOneLine, String.toList_ofList, List.mem_map]
  rintro ⟨c, -, same⟩
  split at same
  · cases same
  · contradiction

/-- What an unknown command leaves is one comment. -/
theorem isComment_unknown (tag : String)
    : Lua.IsComment (· == '\n') ("--unknown command code '" ++ onOneLine tag ++ "'") := by
  have split : "--unknown command code '" ++ onOneLine tag ++ "'"
      = "--" ++ ("unknown command code '" ++ onOneLine tag ++ "'") := by
    simp [← String.append_assoc]
  have plain : Lua.longBracket? ("unknown command code '" ++ onOneLine tag ++ "'").toList
      = none := by
    simp [String.toList_append, Lua.longBracket?]
  rw [split, Lua.isComment_singleLine_iff plain]
  simp [String.toList_append, lineFeed_not_mem_onOneLine]

theorem command_unknown (source : Script) (write : BlockWriter) (tags : Annotations) (tag : String)
    (before : State)
    : ∃ after,
        command source write tags (.unknown tag) before
        = .ok (some ("--unknown command code '" ++ onOneLine tag ++ "'")) after :=
  ⟨_, rfl⟩

-----------------------------------------------------------------------------------------
-- The remark of a call
-----------------------------------------------------------------------------------------

/-- What follows the arguments of a call: nothing, or its remark and its tags after a space. -/
theorem callSite_rest {source : Script} {following : List Command} {callee : Callee}
    {before after : State} {text : String}
    (run : callSite (block source) (Annotations.after source following) callee before
      = .ok text after)
    : ∃ function event lead rest,
        text = function ++ "(__actor, event, " ++ event ++ ")" ++ rest
        ∧ (∃ middle, eventText (block source) callee before = .ok event middle)
        ∧ (lead = "" ∧ (Annotations.after source following).routes = [] ∧ rest = ""
          ∨ rest = " " ++ (lead ++ tagTexts (Annotations.after source following).routes))
        ∧ (isKnownOwn before callee = true → lead = "")
        ∧ (isKnownOwn before callee = false → NamesHandler lead) := by
  obtain ⟨function, event, lead, rfl, lowered, known, unknown⟩ := callSite_remark run
  have full := Annotations.text_of_mem_after source following
  by_cases none : (Annotations.after source following).routes = []
  · cases own : isKnownOwn before callee with
    | true =>
        refine ⟨function, event, "", "", ?_, lowered, Or.inl ⟨rfl, none, rfl⟩, fun _ => rfl, ?_⟩
        · rw [known own, none, String.append_empty]
          exact Dispatch.text_of_no_remark function event
        · intro other
          cases other
    | false =>
        refine ⟨function, event, lead, _, ?_, lowered, Or.inr rfl, ?_, fun _ => unknown own⟩
        · apply Dispatch.text_of_remark
          rw [none]
          simpa [tagTexts] using (unknown own).closed
        · intro other
          cases other
  · refine ⟨function, event, lead, _, ?_, lowered, Or.inr rfl, known, unknown⟩
    exact Dispatch.text_of_remark event (closed_of_tags none full lead)

/-- A routing tag goes on in another line exactly if the name of its script does. -/
theorem lineFeed_mem_routes_iff (source : Script) (following : List Command)
    : (∃ tag ∈ (Annotations.after source following).routes, '\n' ∈ tag.text.toList)
      ↔ ∃ tag ∈ (Annotations.after source following).routes, '\n' ∈ tag.script.toList := by
  refine exists_congr (fun tag => and_congr_right (fun member => ?_))
  rw [Annotations.text_of_mem_after source following tag member]
  simp [String.toList_append]

/-- The comments that show text of the scripts stay on their lines exactly if this text does, where
it is shown as it is: a banner if the name of its script has no line feed, and the remark of a call
if no routing tag has one in the name of its script. The remark of an unknown command always stays
on its line.
-/
theorem shown_texts_stay_on_line_iff (entry : Registry.Entry) (source : Script)
    (following : List Command) (callee : Callee) (write : BlockWriter) (tags : Annotations)
    (tag : String) (before : State)
    : (entry.header = "\n" ++ entry.banner ++ "\n\n" ++ entry.statements
        ∧ (Lua.IsComment (· == '\n') entry.banner ↔ '\n' ∉ entry.name.toList))
      ∧ (∀ text after,
          callSite (block source) (Annotations.after source following) callee before
            = .ok text after
          → ∃ function event rest,
              text = function ++ "(__actor, event, " ++ event ++ ")" ++ rest
              ∧ (∃ middle, eventText (block source) callee before = .ok event middle)
              ∧ ('\n' ∈ rest.toList
                ↔ ∃ tag ∈ (Annotations.after source following).routes, '\n' ∈ tag.script.toList)
              ∧ (isKnownOwn before callee = false
                → ∃ remark,
                    rest = " " ++ remark
                    ∧ (Lua.IsComment (· == '\n') remark
                      ↔ ∀ tag ∈ (Annotations.after source following).routes,
                          '\n' ∉ tag.script.toList)))
      ∧ ∃ text after,
          command source write tags (.unknown tag) before = .ok (some text) after
          ∧ text = "--unknown command code '" ++ onOneLine tag ++ "'"
          ∧ '\n' ∉ text.toList
          ∧ Lua.IsComment (· == '\n') text := by
  refine ⟨⟨entry.header_eq, entry.isComment_banner_iff⟩, ?_, ?_⟩
  · intro text after run
    obtain ⟨function, event, lead, rest, shape, lowered, follows, known, unknown⟩ :=
      callSite_rest run
    have routes := lineFeed_mem_routes_iff source following
    refine ⟨function, event, rest, shape, lowered, ?_, ?_⟩
    · have single : '\n' ∉ lead.toList := by
        cases own : isKnownOwn before callee with
        | true => simp [known own]
        | false => exact (unknown own).lineFeed_not_mem
      rw [← routes]
      rcases follows with ⟨-, none, rfl⟩ | rfl
      · simp [none]
      · simp [String.toList_append, single, mem_tagTexts]
    · intro own
      have names := unknown own
      rcases follows with ⟨rfl, -, -⟩ | rfl
      · cases names.closed
      · refine ⟨_, rfl, ?_⟩
        rw [names.isComment_iff]
        simpa only [not_exists, not_and] using not_congr routes
  · obtain ⟨after, run⟩ := command_unknown source write tags tag before
    refine ⟨_, after, run, rfl, ?_, isComment_unknown tag⟩
    simp [String.toList_append, lineFeed_not_mem_onOneLine]

/-- A room whose name goes on in another line. -/
def twoLineRoom : Registry.Entry where
  name := "a\nb"
  kind := .room
  id := 0
  slot := "__script[1]"

/-- A script whose call is routed to that room. -/
def callOfTwoLineRoom : Script where
  name := "hub"
  blocks := [[.call (.name "open"), .comment 0 false]]
  comments := ["[SCRIPT:a\nb]"]

/-- The second line of the name is code after the banner, and after the remark of the call. -/
theorem two_line_name_ends_comments
    : ¬ Lua.IsComment (· == '\n') twoLineRoom.banner
      ∧ Lua.afterComment? (· == '\n') twoLineRoom.banner.toList
        = some "\nb ----------------------------".toList
      ∧ ∃ text after function event remark,
          callSite (block callOfTwoLineRoom)
            (Annotations.after callOfTwoLineRoom [.comment 0 false]) (.name "open") {}
            = .ok text after
          ∧ text = function ++ "(__actor, event, " ++ event ++ ")" ++ (" " ++ remark)
          ∧ '\n' ∈ remark.toList
          ∧ ¬ Lua.IsComment (· == '\n') remark := by
  obtain ⟨⟨-, banner⟩, call, -⟩ :=
    shown_texts_stay_on_line_iff twoLineRoom callOfTwoLineRoom [.comment 0 false] (.name "open")
      (block callOfTwoLineRoom) {} "" {}
  refine ⟨?_, by decide, ?_⟩
  · rw [banner]
    decide
  · have success
        : succeeds
            (callSite (block callOfTwoLineRoom)
              (Annotations.after callOfTwoLineRoom [.comment 0 false]) (.name "open"))
            {} = true := by
      decide +kernel
    have routes : (Annotations.after callOfTwoLineRoom [.comment 0 false]).routes
        = [⟨"a\nb", "[SCRIPT:a\nb]"⟩] := by
      decide +kernel
    obtain ⟨text, after, run⟩ := exists_ok_of_succeeds success
    obtain ⟨function, event, rest, shape, -, feeds, comment⟩ := call _ _ run
    obtain ⟨remark, rfl, whole⟩ := comment (by decide +kernel)
    rw [routes] at feeds whole
    refine ⟨text, after, function, event, remark, run, shape, ?_, ?_⟩
    · simpa [String.toList_append] using feeds
    · rw [whole]
      decide

end Codegen

end TileLua
