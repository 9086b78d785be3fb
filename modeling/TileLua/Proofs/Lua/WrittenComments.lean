import Mathlib.Order.Bounds.Defs
import TileLua.Proofs.Lua.CommentLexing

/-! Where written comments end.
By Lua's rule a written comment ends with its last character, in the long form whatever follows it
and in the line form if its text stays on one line and the line ends there.
-/

namespace TileLua

-----------------------------------------------------------------------------------------
-- The search for a level
-----------------------------------------------------------------------------------------

/-- A search that reaches the least index that passes stops there, however far it may look. -/
theorem Search.least_eq_of_isLeast {test : Nat → Bool} {index bound : Nat}
    (first : IsLeast { index | test index = true } index) (reached : index ≤ bound)
    : least test bound = index := by
  apply Nat.le_antisymm
  · by_contra later
    have failed := eq_false_of_lt_least (Nat.lt_of_not_le later)
    exact Bool.false_ne_true (failed.symm.trans first.1)
  · by_contra early
    have passed := least_passes (Nat.lt_of_lt_of_le (Nat.lt_of_not_le early) reached)
    exact early (first.2 passed)

namespace Lua

/-- The chosen level is the smallest one whose bracket does not close the text early. -/
theorem isLeast_bracketLevel (text : List Char)
    : IsLeast { level | closesAtEnd text level = true } (bracketLevel text) := by
  refine ⟨closesAtEnd_bracketLevel text, ?_⟩
  intro level closed
  by_contra smaller
  have early := Search.eq_false_of_lt_least (Nat.lt_of_not_le smaller)
  exact Bool.false_ne_true (early.symm.trans closed)

-----------------------------------------------------------------------------------------
-- The two forms
-----------------------------------------------------------------------------------------

/-- A comment is written in the long form. -/
def isLongForm (text : String) (inline : Bool) : Bool :=
  text.toList.contains '\n' || (!inline && opensLongBracket text.toList)

/-- What a comment says: its text, behind a caret if it is inline. -/
def content (text : String) (inline : Bool) : String :=
  (if inline then "^" else "") ++ text

theorem mem_content_iff {c : Char} (other : c ≠ '^') (text : String) (inline : Bool)
    : c ∈ (content text inline).toList ↔ c ∈ text.toList := by
  cases inline <;> simp [content, String.toList_append, other]

theorem comment_of_isLongForm {text : String} {inline : Bool} (long : isLongForm text inline = true)
    : comment text inline
      = "--" ++ String.ofList (openBracket (bracketLevel text.toList)) ++ content text inline
        ++ String.ofList (closeBracket (bracketLevel text.toList)) := by
  rw [content, ← String.append_assoc]
  exact if_pos long

theorem comment_of_not_isLongForm {text : String} {inline : Bool}
    (short : isLongForm text inline = false)
    : comment text inline = "--" ++ content text inline := by
  rw [content, ← String.append_assoc]
  exact if_neg (by simpa only [isLongForm, Bool.not_eq_true] using short)

theorem isLongForm_eq_false_iff {text : String} {inline : Bool}
    : isLongForm text inline = false ↔ comment text inline = "--" ++ content text inline := by
  constructor
  · exact comment_of_not_isLongForm
  · intro line
    cases form : isLongForm text inline with
    | false => rfl
    | true =>
        rw [comment_of_isLongForm form, ← String.toList_inj] at line
        have same := congrArg List.length line
        simp only [String.toList_append, String.toList_ofList, List.length_append,
          length_closeBracket] at same
        omega

/-- A comment has the long form exactly if its text has a line feed or if two dashes before what it
says would open a long bracket.
-/
theorem isLongForm_iff {text : String} {inline : Bool}
    : isLongForm text inline = true
      ↔ '\n' ∈ text.toList ∨ ∃ level, openBracket level <+: (content text inline).toList := by
  have opens : (!inline && opensLongBracket text.toList) = true
      ↔ ∃ level, openBracket level <+: (content text inline).toList := by
    cases inline with
    | false =>
        simp only [content, Bool.not_false, Bool.true_and, Bool.false_eq_true, if_false,
          String.empty_append]
        rw [← isSome_longBracket?, ← Option.ne_none_iff_isSome, ne_eq, longBracket?_eq_none_iff]
        simp only [Classical.not_forall, Classical.not_not]
    | true => simp [content, String.toList_append, openBracket]
  rw [isLongForm, Bool.or_eq_true, List.contains_iff_mem, opens]

theorem lineFeed_not_mem_of_not_isLongForm {text : String} {inline : Bool}
    (short : isLongForm text inline = false)
    : '\n' ∉ text.toList := by
  intro member
  rw [isLongForm_iff.mpr (Or.inl member)] at short
  cases short

-----------------------------------------------------------------------------------------
-- Where a comment ends
-----------------------------------------------------------------------------------------

/-- No bracket closes a comment of the long form early, also with the caret before its text. -/
theorem closesAtEnd_content (text : String) (inline : Bool)
    : closesAtEnd (content text inline).toList (bracketLevel text.toList) = true := by
  rw [content, String.toList_append, closesAtEnd_append_of_not_mem]
  · exact closesAtEnd_bracketLevel text.toList
  · cases inline <;> decide

/-- A comment of the long form ends with its last character, whatever follows it. -/
theorem commentThen_of_isLongForm (ends : Char → Bool) {text : String} {inline : Bool}
    (long : isLongForm text inline = true) (rest : List Char)
    : CommentThen ends ((comment text inline).toList ++ rest) rest := by
  have spelled : (comment text inline).toList ++ rest
      = '-' :: '-' :: (openBracket (bracketLevel text.toList)
        ++ ((content text inline).toList ++ closeBracket (bracketLevel text.toList) ++ rest)) := by
    simp [comment_of_isLongForm long, String.toList_append]
  rw [spelled]
  exact (commentThen_long_iff rest).mpr (closesAtEnd_content text inline)

/-- A comment of the line form ends where its line does, in what it says or after it. -/
theorem commentThen_of_not_isLongForm {ends : Char → Bool} {text : String} {inline : Bool}
    (bracket : ends '[' = false) (sign : ends '=' = false) (short : isLongForm text inline = false)
    {body left rest : List Char} (split : (content text inline).toList = body ++ left)
    (inside : ∀ c ∈ body, ends c = false) (stop : ∀ c ∈ (left ++ rest).head?, ends c = true)
    : CommentThen ends ((comment text inline).toList ++ rest) (left ++ rest) := by
  have spelled : (comment text inline).toList ++ rest = '-' :: '-' :: (body ++ (left ++ rest)) := by
    simp [comment_of_not_isLongForm short, String.toList_append, split]
  rw [spelled]
  refine .line (fun level opens => ?_) inside stop
  have within : openBracket level <+: body := by
    refine Text.prefix_of_prefix_append opens (fun c head member => ?_)
    have ended := stop c head
    rcases eq_of_mem_openBracket member with rfl | rfl
    · exact Bool.false_ne_true (bracket.symm.trans ended)
    · exact Bool.false_ne_true (sign.symm.trans ended)
  have early : openBracket level <+: (content text inline).toList := by
    rw [split]
    exact within.trans (List.prefix_append body left)
  rw [isLongForm_iff.mpr (Or.inr ⟨level, early⟩)] at short
  cases short

/-- A comment is read back as one comment exactly if it has the long form or its text stays on one
line.
-/
theorem isComment_comment_iff {ends : Char → Bool} (caret : ends '^' = false) (text : String)
    (inline : Bool)
    : IsComment ends (comment text inline)
      ↔ isLongForm text inline = true ∨ ∀ c ∈ text.toList, ends c = false := by
  cases form : isLongForm text inline with
  | true =>
      have whole := commentThen_of_isLongForm ends form []
      rw [List.append_nil, ← isComment_iff_commentThen] at whole
      simp [whole]
  | false =>
      have plain : longBracket? (content text inline).toList = none := by
        rw [longBracket?_eq_none_iff, ← not_exists]
        intro opens
        rw [isLongForm_iff.mpr (Or.inr opens)] at form
        cases form
      rw [comment_of_not_isLongForm form, isComment_line_iff plain]
      cases inline <;> simp [content, String.toList_append, caret]

/-- Where lines end at carriage returns too, a comment of the line form must not have one. -/
theorem isComment_endsLine_iff (text : String) (inline : Bool)
    : IsComment endsLine (comment text inline)
      ↔ isLongForm text inline = true ∨ '\r' ∉ text.toList := by
  rw [isComment_comment_iff (by decide)]
  cases form : isLongForm text inline with
  | true => simp
  | false =>
      have single := lineFeed_not_mem_of_not_isLongForm form
      simp only [Bool.false_eq_true, false_or, endsLine_eq_false_iff]
      constructor
      · intro calm member
        exact (calm _ member).2 rfl
      · intro absent c member
        exact ⟨fun same => single (same ▸ member), fun same => absent (same ▸ member)⟩

/-- A comment ends with its last character if nothing or a line feed follows it. -/
theorem commentThen_comment (text : String) (inline : Bool) (rest : List Char)
    (stop : ∀ c ∈ rest.head?, (c == '\n') = true)
    : CommentThen (· == '\n') ((comment text inline).toList ++ rest) rest := by
  cases form : isLongForm text inline with
  | true => exact commentThen_of_isLongForm _ form rest
  | false =>
      refine commentThen_of_not_isLongForm rfl rfl form (List.append_nil _).symm ?_ stop
      intro c member
      apply beq_false_of_ne
      intro same
      rw [same, mem_content_iff (by decide)] at member
      exact lineFeed_not_mem_of_not_isLongForm form member

theorem isComment_comment (text : String) (inline : Bool)
    : IsComment (· == '\n') (comment text inline) := by
  have whole := commentThen_comment text inline [] (by simp)
  rwa [List.append_nil, ← isComment_iff_commentThen] at whole

/-- By Lua's rule every comment that is written ends with its last character, before the end of the
text or of the line. It has the long form exactly if its text has a line feed or would open a long
bracket, and then its bracket occurs at its very end first; otherwise it is all on one line. Its
level is the smallest that does not close the text early, and any search for it that looks as far
as the text is long stops there.
-/
theorem comment_ends_where_written (text : String) (inline : Bool)
    : (∀ after, CommentThen (· == '\n') (comment text inline).toList after ↔ after = [])
      ∧ (∀ rest after,
          CommentThen (· == '\n') ((comment text inline).toList ++ '\n' :: rest) after
          ↔ after = '\n' :: rest)
      ∧ (('\n' ∈ text.toList ∨ ∃ level, openBracket level <+: (content text inline).toList)
          ∧ comment text inline
            = "--" ++ String.ofList (openBracket (bracketLevel text.toList)) ++ content text inline
              ++ String.ofList (closeBracket (bracketLevel text.toList))
          ∧ Text.firstIndex? (closeBracket (bracketLevel text.toList))
              ((content text inline).toList ++ closeBracket (bracketLevel text.toList))
            = some (content text inline).toList.length
        ∨ '\n' ∉ (comment text inline).toList
          ∧ (∀ level, ¬ openBracket level <+: (content text inline).toList)
          ∧ comment text inline = "--" ++ content text inline)
      ∧ IsLeast
          { level
            | ∀ earlier < text.toList.length,
                ¬ closeBracket level <+: (text.toList ++ closeBracket level).drop earlier }
          (bracketLevel text.toList)
      ∧ ∀ bound ≥ text.toList.length,
          Search.least (closesAtEnd text.toList) bound = bracketLevel text.toList := by
  refine ⟨?_, ?_, ?_, ?_, ?_⟩
  · intro after
    exact (isComment_iff_commentThen.mp (isComment_comment text inline)).iff_eq after
  · intro rest after
    exact (commentThen_comment text inline ('\n' :: rest) (by simp)).iff_eq after
  · cases form : isLongForm text inline with
    | true =>
        have closed := closesAtEnd_content text inline
        rw [closesAtEnd, beq_iff_eq] at closed
        exact Or.inl ⟨isLongForm_iff.mp form, comment_of_isLongForm form, closed⟩
    | false =>
        have neither := (not_congr isLongForm_iff).mp (Bool.eq_false_iff.mp form)
        obtain ⟨single, plain⟩ := not_or.mp neither
        have line := comment_of_not_isLongForm form
        refine Or.inr ⟨?_, not_exists.mp plain, line⟩
        rw [line, String.toList_append, List.mem_append, mem_content_iff (by decide)]
        simp [single]
  · simpa only [closesAtEnd_iff] using isLeast_bracketLevel text.toList
  · intro bound far
    exact Search.least_eq_of_isLeast (isLeast_bracketLevel text.toList)
      (Nat.le_trans (Search.least_le _ _) far)

-- The text closes level zero, and its end starts a bracket of level one.
example : comment "[[a]]b]=" false = "--[==[[[a]]b]=]==]" := by decide

end Lua

end TileLua
