import Mathlib.Data.List.TakeWhile
import TileLua.Lua

/-! How Lua reads comments.
Two dashes start a comment. If a long bracket opens right after them, the comment runs through the
first bracket of its level that closes; otherwise it runs to the end of the line. Which characters
end a line is a parameter of the reader. The rule is also stated as a relation between a text and
what follows the comment that it starts with, which the reader decides.
-/

namespace TileLua

-----------------------------------------------------------------------------------------
-- First occurrences
-----------------------------------------------------------------------------------------

namespace Text

/-- The first occurrence is an occurrence with none before it, by induction on the text. -/
theorem firstIndex?_eq_some_iff {part text : List Char} {index : Nat}
    : firstIndex? part text = some index
      ↔ index ≤ text.length
        ∧ part <+: text.drop index
        ∧ ∀ earlier < index, ¬ part <+: text.drop earlier := by
  induction text generalizing index with
  | nil =>
      cases part with
      | nil =>
          simp only [firstIndex?, List.isEmpty_nil, if_true, Option.some.injEq]
          constructor
          · rintro rfl
            simp
          · rintro ⟨bound, -, -⟩
            simpa using (Nat.eq_zero_of_le_zero bound).symm
      | cons first rest => simp [firstIndex?]
  | cons c rest ih =>
      simp only [firstIndex?, List.isPrefixOf_iff_prefix]
      split
      · rename_i here
        simp only [Option.some.injEq]
        constructor
        · rintro rfl
          simpa using here
        · rintro ⟨-, -, first⟩
          rcases Nat.eq_zero_or_pos index with rfl | later
          · rfl
          · exact (first 0 later here).elim
      · rename_i absent
        cases index with
        | zero => simp [absent]
        | succ index =>
            rw [Option.map_eq_some_iff]
            simp only [Nat.add_right_cancel_iff, exists_eq_right, ih, List.length_cons,
              Nat.add_le_add_iff_right, List.drop_succ_cons]
            refine and_congr_right (fun _ => and_congr_right (fun _ => ?_))
            constructor
            · intro first earlier less
              cases earlier with
              | zero => exact absent
              | succ earlier => exact first earlier (by omega)
            · intro first earlier less
              exact first (earlier + 1) (by omega)

/-- What follows the first occurrence of a part. -/
def afterFirst? (part text : List Char) : Option (List Char) :=
  (firstIndex? part text).map fun index => text.drop (index + part.length)

/-- What follows the first occurrence of a part: the part stands before it, and nowhere earlier. -/
theorem afterFirst?_eq_some_iff {part text after : List Char}
    : afterFirst? part text = some after
      ↔ ∃ body,
          text = body ++ part ++ after ∧ ∀ index < body.length, ¬ part <+: text.drop index := by
  rw [afterFirst?, Option.map_eq_some_iff]
  constructor
  · rintro ⟨index, found, rfl⟩
    obtain ⟨bound, ⟨rest, here⟩, first⟩ := firstIndex?_eq_some_iff.mp found
    refine ⟨text.take index, ?_, ?_⟩
    · rw [← List.drop_drop, ← here, List.drop_left, List.append_assoc, here, List.take_append_drop]
    · rwa [List.length_take, Nat.min_eq_left bound]
  · rintro ⟨body, rfl, first⟩
    refine ⟨body.length, firstIndex?_eq_some_iff.mpr ⟨?_, ?_, first⟩, ?_⟩
    · simp
    · simp
    · rw [← List.length_append, List.drop_left]

/-- A part that occurs at the start of two texts in a row occurs in the first one, if the second
does not start with a character of the part.
-/
theorem prefix_of_prefix_append {part text rest : List Char} (occurs : part <+: text ++ rest)
    (foreign : ∀ c ∈ rest.head?, c ∉ part)
    : part <+: text := by
  rcases Nat.le_total part.length text.length with short | long
  · exact List.prefix_of_prefix_length_le occurs (List.prefix_append text rest) short
  · obtain ⟨more, rfl⟩ := List.prefix_of_prefix_length_le (List.prefix_append text rest) occurs long
    have goesOn : more <+: rest := (List.prefix_append_right_inj text).mp occurs
    cases more with
    | nil => simp
    | cons c more =>
        obtain ⟨left, rfl⟩ := goesOn
        exact (foreign c rfl (by simp)).elim

end Text

-----------------------------------------------------------------------------------------
-- The level of a long comment
-----------------------------------------------------------------------------------------

namespace Lua

@[simp]
theorem length_closeBracket (level : Nat) : (closeBracket level).length = level + 2 := by
  simp [closeBracket]

/-- A text followed by a closing bracket is closed exactly there if the bracket does not occur
earlier.
-/
theorem closesAtEnd_iff {text : List Char} {level : Nat}
    : closesAtEnd text level = true
      ↔ ∀ earlier < text.length,
          ¬ closeBracket level <+: (text ++ closeBracket level).drop earlier := by
  rw [closesAtEnd, beq_iff_eq, Text.firstIndex?_eq_some_iff]
  constructor
  · exact fun closed => closed.2.2
  · intro first
    refine ⟨?_, ?_, first⟩
    · simp only [List.length_append]
      omega
    · simp

/-- A bracket with as many equals signs as the text is long does not close it early: an early one
would have one of these signs where the last bracket starts.
-/
theorem closesAtEnd_length (text : List Char) : closesAtEnd text text.length = true := by
  rw [closesAtEnd_iff]
  intro earlier less occurs
  obtain ⟨sign, shift⟩ : ∃ sign, text.length = earlier + (sign + 1) :=
    ⟨text.length - earlier - 1, by omega⟩
  have inside : (closeBracket text.length)[sign + 1]? = some '=' := by
    have below : sign < text.length := by omega
    rw [closeBracket, List.getElem?_cons_succ, List.getElem?_append_left (by simpa using below),
      List.getElem?_replicate, if_pos below]
  have start : (text ++ closeBracket text.length)[text.length]? = some ']' := by
    simp [closeBracket]
  have same := List.prefix_iff_getElem?.mp occurs (sign + 1) (by rw [length_closeBracket]; omega)
  rw [List.getElem?_drop, ← shift, start, ← List.getElem?_eq_getElem, inside] at same
  cases same

/-- The chosen level closes the comment at its end. -/
theorem closesAtEnd_bracketLevel (text : List Char)
    : closesAtEnd text (bracketLevel text) = true := by
  rcases Nat.lt_or_ge (bracketLevel text) text.length with early | late
  · exact Search.least_passes early
  · have last : bracketLevel text = text.length :=
      Nat.le_antisymm (Search.least_le _ _) late
    rw [last]
    exact closesAtEnd_length text

/-- A text is closed at its end exactly if no bracket closes it at its start or in what follows. -/
theorem closesAtEnd_cons_iff {c : Char} {text : List Char} {level : Nat}
    : closesAtEnd (c :: text) level = true
      ↔ ¬ closeBracket level <+: c :: (text ++ closeBracket level)
        ∧ closesAtEnd text level = true := by
  rw [closesAtEnd_iff, closesAtEnd_iff]
  constructor
  · intro first
    refine ⟨first 0 (by simp), fun earlier less => first (earlier + 1) ?_⟩
    simpa using less
  · rintro ⟨start, first⟩ earlier less
    cases earlier with
    | zero => exact start
    | succ earlier => exact first earlier (by simpa using less)

/-- No bracket starts before a text in what has no closing bracket, by induction over it. -/
theorem closesAtEnd_append_of_not_mem {lead : List Char} (foreign : ']' ∉ lead) (text : List Char)
    (level : Nat)
    : closesAtEnd (lead ++ text) level = true ↔ closesAtEnd text level = true := by
  induction lead with
  | nil => rfl
  | cons c lead ih =>
      obtain ⟨other, later⟩ := List.ne_and_not_mem_of_not_mem_cons foreign
      have start : ¬ closeBracket level <+: c :: (lead ++ text ++ closeBracket level) := by
        simp [closeBracket, other]
      rw [List.cons_append, closesAtEnd_cons_iff, ih later]
      exact and_iff_right start

-----------------------------------------------------------------------------------------
-- Reading a comment
-----------------------------------------------------------------------------------------

/-- The level of the long bracket that a text opens with, and what follows the bracket. -/
def longBracket? : List Char → Option (Nat × List Char)
  | '[' :: rest =>
      match rest.dropWhile (· == '=') with
      | '[' :: inside => some ((rest.takeWhile (· == '=')).length, inside)
      | _ => none
  | _ => none

/-- What follows the comment that a text starts with, if it starts with one that ends. -/
def afterComment? (ends : Char → Bool) : List Char → Option (List Char)
  | '-' :: '-' :: rest =>
      match longBracket? rest with
      | some (level, inside) => Text.afterFirst? (closeBracket level) inside
      | none => some (rest.dropWhile fun c => !ends c)
  | _ => none

/-- A text is one comment, from its first character to its last. -/
def IsComment (ends : Char → Bool) (text : String) : Prop :=
  afterComment? ends text.toList = some []

instance (ends : Char → Bool) (text : String) : Decidable (IsComment ends text) :=
  inferInstanceAs (Decidable (_ = _))

/-- A comment starts with two dashes. -/
theorem IsComment.dashes {ends : Char → Bool} {text : String} (comment : IsComment ends text)
    : ∃ rest, text.toList = '-' :: '-' :: rest := by
  unfold IsComment afterComment? at comment
  split at comment
  · rename_i rest letters
    exact ⟨rest, letters⟩
  · cases comment

/-- The characters at which Lua ends a line. -/
def endsLine (c : Char) : Bool :=
  c == '\n' || c == '\r'

theorem endsLine_eq_false_iff {c : Char} : endsLine c = false ↔ c ≠ '\n' ∧ c ≠ '\r' := by
  simp [endsLine]

theorem longBracket?_openBracket (level : Nat) (inside : List Char)
    : longBracket? (openBracket level ++ inside) = some (level, inside) := by
  have signs : ∀ c ∈ List.replicate level '=', (c == '=') = true := by
    intro c member
    rw [List.eq_of_mem_replicate member]
    rfl
  simp only [openBracket, List.cons_append, List.append_assoc, longBracket?,
    List.dropWhile_append_of_pos signs, List.takeWhile_append_of_pos signs, List.nil_append]
  simp

/-- The test for a long bracket agrees with how one is read. -/
theorem isSome_longBracket? (text : List Char)
    : (longBracket? text).isSome = opensLongBracket text := by
  fun_cases longBracket? text with
  | case1 rest inside after => simp [opensLongBracket, after]
  | case2 rest other =>
      simp only [opensLongBracket]
      cases after : rest.dropWhile (· == '=') with
      | nil => simp
      | cons c inside =>
          have different : c ≠ '[' := by
            rintro rfl
            exact other inside after
          simp [different]
  | case3 _ other =>
      have closed : opensLongBracket text = false := by
        unfold opensLongBracket
        split
        · rename_i rest
          exact (other rest rfl).elim
        · rfl
      simp [closed]

-----------------------------------------------------------------------------------------
-- Lua's rule for comments
-----------------------------------------------------------------------------------------

/-- A text is a comment and what follows it. A comment with a long bracket goes through the first
bracket that closes its level, and any other one goes up to the end of the line.
-/
inductive CommentThen (ends : Char → Bool) : List Char → List Char → Prop
  | long {level : Nat} {body after : List Char}
    (first
      : ∀ index < body.length,
          ¬ closeBracket level <+: (body ++ closeBracket level ++ after).drop index)
    : CommentThen ends
        ('-' :: '-' :: (openBracket level ++ (body ++ closeBracket level ++ after))) after
  | line {body after : List Char} (plain : ∀ level, ¬ openBracket level <+: body ++ after)
    (inside : ∀ c ∈ body, ends c = false) (stop : ∀ c ∈ after.head?, ends c = true)
    : CommentThen ends ('-' :: '-' :: (body ++ after)) after

theorem eq_of_mem_openBracket {c : Char} {level : Nat} (member : c ∈ openBracket level)
    : c = '[' ∨ c = '=' := by
  rcases List.mem_cons.mp member with first | later
  · exact Or.inl first
  · rcases List.mem_append.mp later with sign | last
    · exact Or.inr (List.eq_of_mem_replicate sign)
    · exact Or.inl (List.mem_singleton.mp last)

/-- A text opens with a long bracket exactly if one is read from it. -/
theorem longBracket?_eq_some_iff {text inside : List Char} {level : Nat}
    : longBracket? text = some (level, inside) ↔ text = openBracket level ++ inside := by
  constructor
  · fun_cases longBracket? text with
    | case1 rest found opened =>
        rintro ⟨⟩
        have signs : rest.takeWhile (· == '=')
            = List.replicate (rest.takeWhile (· == '=')).length '=' := by
          refine List.eq_replicate_of_mem (fun c member => ?_)
          simpa using List.mem_takeWhile_imp member
        have whole := List.takeWhile_append_dropWhile (p := (· == '=')) (l := rest)
        rw [opened] at whole
        rw [openBracket, ← signs]
        simp [whole]
    | case2 rest other =>
        intro read
        cases read
    | case3 other =>
        intro read
        cases read
  · rintro rfl
    exact longBracket?_openBracket level inside

theorem longBracket?_eq_none_iff {text : List Char}
    : longBracket? text = none ↔ ∀ level, ¬ openBracket level <+: text := by
  rw [Option.eq_none_iff_forall_ne_some]
  constructor
  · rintro none level ⟨inside, rfl⟩
    exact none (level, inside) (longBracket?_openBracket level inside)
  · rintro plain ⟨level, inside⟩ read
    exact plain level ⟨inside, (longBracket?_eq_some_iff.mp read).symm⟩

/-- The reader of comments follows Lua's rule. -/
theorem afterComment?_eq_some_iff {ends : Char → Bool} {text after : List Char}
    : afterComment? ends text = some after ↔ CommentThen ends text after := by
  constructor
  · intro read
    unfold afterComment? at read
    split at read
    · rename_i rest
      split at read
      · rename_i level inside opened
        obtain ⟨body, rfl, first⟩ := Text.afterFirst?_eq_some_iff.mp read
        rw [longBracket?_eq_some_iff.mp opened]
        exact .long first
      · rename_i none
        obtain rfl := Option.some.inj read
        have whole := List.takeWhile_append_dropWhile (p := fun c => !ends c) (l := rest)
        have line : CommentThen ends
            ('-' :: '-' :: (rest.takeWhile (fun c => !ends c) ++ rest.dropWhile fun c => !ends c))
            (rest.dropWhile fun c => !ends c) := by
          refine .line ?_ ?_ ?_
          · rw [whole]
            exact longBracket?_eq_none_iff.mp none
          · intro c member
            simpa using List.mem_takeWhile_imp member
          · intro c head
            have stopped := List.head?_dropWhile_not (fun c => !ends c) rest
            rw [Option.mem_def.mp head] at stopped
            simpa using stopped
        rwa [whole] at line
    · cases read
  · intro comment
    cases comment with
    | long first =>
        rw [afterComment?, longBracket?_openBracket]
        exact Text.afterFirst?_eq_some_iff.mpr ⟨_, rfl, first⟩
    | @line body _ plain inside stop =>
        have skipped : ∀ c ∈ body, (!ends c) = true := by
          intro c member
          rw [inside c member, Bool.not_false]
        rw [afterComment?, longBracket?_eq_none_iff.mpr plain]
        simp only [List.dropWhile_append_of_pos skipped, Option.some.injEq]
        cases after with
        | nil => rfl
        | cons c rest => exact List.dropWhile_cons_of_neg (by simp [stop c rfl])

theorem isComment_iff_commentThen {ends : Char → Bool} {text : String}
    : IsComment ends text ↔ CommentThen ends text.toList [] :=
  afterComment?_eq_some_iff

/-- A long comment ends with a bracket of its level exactly if no other one closes it early,
whatever follows it.
-/
theorem commentThen_long_iff {ends : Char → Bool} {body : List Char} {level : Nat}
    (rest : List Char)
    : CommentThen ends
        ('-' :: '-' :: (openBracket level ++ (body ++ closeBracket level ++ rest))) rest
      ↔ closesAtEnd body level = true := by
  rw [closesAtEnd_iff]
  constructor
  · intro comment index less occurs
    rw [← afterComment?_eq_some_iff, afterComment?, longBracket?_openBracket] at comment
    obtain ⟨before, whole, first⟩ := Text.afterFirst?_eq_some_iff.mp comment
    obtain rfl := List.append_cancel_right (List.append_cancel_right whole)
    apply first index less
    rw [List.drop_append_of_le_length (by simp only [List.length_append]; omega)]
    exact occurs.trans (List.prefix_append _ _)
  · intro closed
    refine .long (fun index less occurs => closed index less ?_)
    have fits : (closeBracket level).length ≤ ((body ++ closeBracket level).drop index).length := by
      simp only [List.length_drop, List.length_append]
      omega
    rw [List.drop_append_of_le_length (by simp only [List.length_append]; omega)] at occurs
    exact List.prefix_of_prefix_length_le occurs (List.prefix_append _ _) fits

/-- What follows a comment is determined. -/
theorem CommentThen.iff_eq {ends : Char → Bool} {text rest : List Char}
    (comment : CommentThen ends text rest) (after : List Char)
    : CommentThen ends text after ↔ after = rest := by
  rw [← afterComment?_eq_some_iff, afterComment?_eq_some_iff.mpr comment, Option.some.injEq,
    eq_comm]

/-- Two dashes before a text that opens no long bracket make it one comment exactly if no character
of the text ends the line.
-/
theorem isComment_line_iff {ends : Char → Bool} {text : String}
    (plain : longBracket? text.toList = none)
    : IsComment ends ("--" ++ text) ↔ ∀ c ∈ text.toList, ends c = false := by
  simp [IsComment, String.toList_append, afterComment?, plain, List.dropWhile_eq_nil_iff]

theorem isComment_singleLine_iff {text : String} (plain : longBracket? text.toList = none)
    : IsComment (· == '\n') ("--" ++ text) ↔ '\n' ∉ text.toList := by
  rw [isComment_line_iff plain]
  constructor
  · intro others member
    cases others _ member
  · intro absent c member
    exact beq_false_of_ne (fun same => absent (same ▸ member))

end Lua

end TileLua
