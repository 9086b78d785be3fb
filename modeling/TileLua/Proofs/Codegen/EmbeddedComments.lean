import TileLua.Proofs.Codegen.Run
import TileLua.Proofs.Lua.CommentLexing

/-! Comments inside expressions.
The name of a tile and the tag of an unknown expression are shown in a long comment of level zero,
with their double closing brackets broken up. Pairs are taken from left to right, so of three
brackets in a row the last two stay together, and close the comment before its end.
-/

namespace TileLua

namespace Lua

-----------------------------------------------------------------------------------------
-- Broken-up brackets
-----------------------------------------------------------------------------------------

theorem bracket_prefix_loosenBrackets_iff (text : List Char)
    : [']'] <+: loosenBrackets text ↔ [']'] <+: text := by
  fun_cases loosenBrackets text <;> simp

/-- Two brackets stay together exactly if three were, by induction along the pairs that are broken
up.
-/
theorem pair_infix_loosenBrackets_iff (text : List Char)
    : [']', ']'] <:+: loosenBrackets text ↔ [']', ']', ']'] <:+: text := by
  fun_induction loosenBrackets text with
  | case1 rest ih =>
      have loosened : [']', ']'] <:+: ']' :: ' ' :: ']' :: loosenBrackets rest
          ↔ [']'] <+: rest ∨ [']', ']', ']'] <:+: rest := by
        simp [List.infix_cons_iff, bracket_prefix_loosenBrackets_iff, ih]
      have given : [']', ']', ']'] <:+: ']' :: ']' :: rest
          ↔ [']'] <+: rest ∨ [']', ']'] <+: rest ∨ [']', ']', ']'] <:+: rest := by
        simp [List.infix_cons_iff]
      rw [loosened, given]
      constructor
      · intro either
        exact either.imp_right Or.inr
      · intro either
        rcases either with next | pair | later
        · exact Or.inl next
        · exact Or.inl (List.IsPrefix.trans ⟨[']'], rfl⟩ pair)
        · exact Or.inr later
  | case2 c rest single ih =>
      -- A bracket here has no other one after it, or the two would have been a pair.
      have alone : ¬ [']', ']'] <+: c :: rest := by
        intro pair
        obtain ⟨same, next⟩ := List.cons_prefix_cons.mp pair
        obtain ⟨tail, rfl⟩ := next
        exact single tail same.symm rfl
      have start : ¬ [']', ']', ']'] <+: c :: rest := by
        intro triple
        exact alone (List.IsPrefix.trans ⟨[']'], rfl⟩ triple)
      have unchanged : [']', ']'] <+: c :: loosenBrackets rest ↔ [']', ']'] <+: c :: rest := by
        rw [List.cons_prefix_cons, List.cons_prefix_cons, bracket_prefix_loosenBrackets_iff]
      rw [List.infix_cons_iff, List.infix_cons_iff, unchanged, ih]
      simp only [alone, start, false_or]
  | case3 => simp

/-- A text before characters that no bracket has is closed at its end exactly if the bracket does
not occur in it, by induction over the text.
-/
theorem closesAtEnd_guarded_iff {guard : List Char} {level : Nat}
    (foreign : ∀ c ∈ guard, c ∉ closeBracket level) (present : guard ≠ []) (text : List Char)
    : closesAtEnd (text ++ guard) level = true ↔ ¬ closeBracket level <:+: text := by
  induction text with
  | nil =>
      have plain : ']' ∉ guard := by
        intro member
        exact foreign ']' member (by simp [closeBracket])
      have closed := closesAtEnd_append_of_not_mem plain [] level
      rw [List.append_nil] at closed
      rw [List.nil_append, closed]
      simp [closeBracket, closesAtEnd_iff]
  | cons c text ih =>
      have start : closeBracket level <+: c :: (text ++ guard ++ closeBracket level)
          ↔ closeBracket level <+: c :: text := by
        constructor
        · intro occurs
          rw [List.append_assoc, ← List.cons_append] at occurs
          apply Text.prefix_of_prefix_append occurs
          intro first head
          rw [List.head?_append, List.head?_eq_some_head present, Option.some_or] at head
          rw [← Option.some.inj head]
          exact foreign _ (List.head_mem present)
        · intro occurs
          rw [List.append_assoc, ← List.cons_append]
          exact occurs.trans (List.prefix_append _ _)
      rw [List.cons_append, closesAtEnd_cons_iff, start, ih, List.infix_cons_iff, not_or]

end Lua

namespace Codegen

-----------------------------------------------------------------------------------------
-- What an expression shows
-----------------------------------------------------------------------------------------

/-- What an expression shows in a comment: the name of a tile, or a tag that is not known. -/
def shown? : Expr → Option String
  | .tile _ name => some name
  | .unknown tag => some tag
  | _ => none

theorem bracket_not_mem_toString (id : Int64) : '[' ∉ (toString id).toList := by
  have digits (number : Nat) : '[' ∉ (toString number).toList := by
    rw [Nat.toString_eq_repr, Nat.toList_repr]
    intro member
    have digit := Nat.isDigit_of_mem_toDigits (by decide) (by decide) member
    cases digit
  change '[' ∉ (toString id.toInt).toList
  cases id.toInt with
  | ofNat number => exact digits number
  | negSucc number =>
      have negative : toString (Int.negSucc number) = "-" ++ toString (number + 1) := rfl
      rw [negative, String.toList_append, List.mem_append, not_or]
      exact ⟨by decide, digits (number + 1)⟩

/-- The comment of an expression ends it. Before the comment there is no opening bracket, and around
what is shown there is no closing one.
-/
theorem expr_of_shown (write : BlockWriter) {tree : Expr} {shown : String}
    (shows : shown? tree = some shown) (before : State)
    : ∃ lead front back after,
        expr write tree before
          = .ok (lead ++ "--[[" ++ (front ++ Lua.loosen shown ++ back) ++ "]]") after
        ∧ '[' ∉ lead.toList
        ∧ ']' ∉ front.toList
        ∧ ']' ∉ back.toList
        ∧ back ≠ "" := by
  cases tree with
  | tile id name =>
      obtain rfl := Option.some.inj shows
      refine ⟨toString id ++ " ", "(", ")", before, ?_, ?_, by decide, by decide, by decide⟩
      · have spelled : toString id ++ " " ++ "--[[" ++ ("(" ++ Lua.loosen name ++ ")") ++ "]]"
            = toString id ++ " --[[(" ++ Lua.loosen name ++ ")]]" := by
          simp [← String.toList_inj, String.toList_append]
        rw [expr, spelled]
        rfl
      · simp [String.toList_append, bracket_not_mem_toString]
  | unknown tag =>
      obtain rfl := Option.some.inj shows
      have run : ∃ after,
          expr write (.unknown tag) before
          = .ok ("nil --[[unknown expression code '" ++ Lua.loosen tag ++ "']]") after :=
        ⟨_, rfl⟩
      obtain ⟨after, run⟩ := run
      refine ⟨"nil ", "unknown expression code '", "'", after, ?_, by decide, by decide, by decide,
        by decide⟩
      rw [run]
      congr 1
      simp [← String.toList_inj, String.toList_append]
  | _ => cases shows

/-- The bracket that opens a comment is the first one after text without any. -/
theorem afterFirst?_opening {lead : List Char} (plain : '[' ∉ lead) (rest : List Char)
    : Text.afterFirst? "--[[".toList (lead ++ "--[[".toList ++ rest) = some rest := by
  rw [Text.afterFirst?_eq_some_iff]
  refine ⟨lead, rfl, fun index less occurs => ?_⟩
  -- The third character of an earlier occurrence is in the text or is one of the dashes.
  have third := List.prefix_iff_getElem?.mp occurs 2 (by decide)
  rw [List.getElem?_drop, List.append_assoc] at third
  rcases Nat.lt_or_ge (index + 2) lead.length with inside | beyond
  · rw [List.getElem?_append_left inside] at third
    exact plain (List.mem_of_getElem? third)
  · rw [List.getElem?_append_right beyond] at third
    obtain zero | one : index + 2 - lead.length = 0 ∨ index + 2 - lead.length = 1 := by omega
    · rw [zero] at third
      cases third
    · rw [one] at third
      cases third

/-- The comment in which an expression shows a name or a tag is closed at its end, and nowhere
before, exactly if there are no three closing brackets in a row in what is shown. Only then are all
double brackets broken up.
-/
theorem shown_text_stays_in_comment_iff (write : BlockWriter) (tree : Expr) (shown : String)
    (before : State) (shows : shown? tree = some shown)
    : ∃ text body after,
        expr write tree before = .ok text after
        ∧ Text.afterFirst? "--[[".toList text.toList = some (body ++ "]]".toList)
        ∧ (Lua.loosen shown).toList <:+: body
        ∧ ("]]".toList <:+: (Lua.loosen shown).toList ↔ "]]]".toList <:+: shown.toList)
        ∧ (Text.firstIndex? "]]".toList (body ++ "]]".toList) = some body.length
          ↔ ¬ "]]]".toList <:+: shown.toList)
        ∧ ∀ ends rest,
            Lua.CommentThen ends ("--[[".toList ++ (body ++ "]]".toList ++ rest)) rest
            ↔ ¬ "]]]".toList <:+: shown.toList := by
  obtain ⟨lead, front, back, after, run, plain, first, last, present⟩ :=
    expr_of_shown write shows before
  have loosened : "]]".toList <:+: (Lua.loosen shown).toList ↔ "]]]".toList <:+: shown.toList := by
    simpa [Lua.loosen] using Lua.pair_infix_loosenBrackets_iff shown.toList
  have closed : Lua.closesAtEnd (front ++ Lua.loosen shown ++ back).toList 0 = true
      ↔ ¬ "]]]".toList <:+: shown.toList := by
    have foreign : ∀ c ∈ back.toList, c ∉ Lua.closeBracket 0 := by
      intro c member bracket
      have same : c = ']' := by simpa [Lua.closeBracket] using bracket
      exact last (same ▸ member)
    rw [← loosened, String.toList_append, String.toList_append, List.append_assoc,
      Lua.closesAtEnd_append_of_not_mem first]
    exact Lua.closesAtEnd_guarded_iff foreign (by simpa using present) _
  refine ⟨_, (front ++ Lua.loosen shown ++ back).toList, after, run, ?_, ?_, loosened, ?_, ?_⟩
  · simp only [String.toList_append]
    rw [List.append_assoc (lead.toList ++ "--[[".toList)]
    exact afterFirst?_opening plain _
  · simp only [String.toList_append]
    exact List.infix_append _ _ _
  · rw [← closed, Lua.closesAtEnd, beq_iff_eq]
    rfl
  · intro ends rest
    rw [← closed, ← Lua.commentThen_long_iff rest]
    rfl

/-- A tile whose name has three closing brackets in a row: its comment ends after the third one, and
the rest of the name is left as code.
-/
theorem tile_name_ends_comment
    : ∃ text body after,
        expr (fun _ _ => pure "") (.tile 0 "a]]]b") {} = .ok text after
        ∧ text = "0 --[[(a] ]]b)]]"
        ∧ Text.afterFirst? "--[[".toList text.toList = some (body ++ "]]".toList)
        ∧ Text.firstIndex? "]]".toList (body ++ "]]".toList) ≠ some body.length
        ∧ Lua.CommentThen (· == '\n') ("--[[".toList ++ (body ++ "]]".toList)) "b)]]".toList := by
  obtain ⟨text, body, after, run, opened, -, -, closed, -⟩ :=
    shown_text_stays_in_comment_iff (fun _ _ => pure "") (.tile 0 "a]]]b") "a]]]b" {} rfl
  obtain rfl : "0 --[[(a] ]]b)]]" = text := by
    have spelled : toString (0 : Int64) ++ " --[[(" ++ Lua.loosen "a]]]b" ++ ")]]"
        = "0 --[[(a] ]]b)]]" := by
      decide
    rw [expr, spelled] at run
    exact (pure_eq_ok.mp run).1
  have inside : body ++ "]]".toList = "(a] ]]b)]]".toList := by
    have found : Text.afterFirst? "--[[".toList "0 --[[(a] ]]b)]]".toList
        = some "(a] ]]b)]]".toList := by
      decide
    rw [found] at opened
    exact (Option.some.inj opened).symm
  refine ⟨_, body, after, run, rfl, opened, ?_, ?_⟩
  · rw [ne_eq, closed]
    decide
  · rw [inside, ← Lua.afterComment?_eq_some_iff]
    decide

end Codegen

end TileLua
