import TileLua.Proofs.Lua.QuotedLiterals
import TileLua.Proofs.Lua.WrittenComments

/-! Carriage returns in literals and comments.
Lua ends a line at a carriage return as it does at a line feed. A literal must not go on in another
line and a line comment does not, but only line feeds are escaped in literals and send comments to
the long form. So a carriage return of the text leaves a literal unfinished, and what follows it in
a line comment is code.
-/

namespace TileLua.Lua

-----------------------------------------------------------------------------------------
-- Literals
-----------------------------------------------------------------------------------------

/-- What follows the end quote of a literal, from inside it: a backslash takes the next character
with it, and no line ends in the literal.
-/
def afterEscaped? (ends : Char → Bool) : List Char → Option (List Char)
  | [] => none
  | '\\' :: _ :: rest => afterEscaped? ends rest
  | c :: rest =>
      if c = '"' then some rest
      else if ends c then none
      else afterEscaped? ends rest

/-- What follows the literal that a text starts with, if it starts with one that is finished. -/
def afterLiteral? (ends : Char → Bool) : List Char → Option (List Char)
  | '"' :: rest => afterEscaped? ends rest
  | _ => none

/-- An escaped text is finished by the next quote unless it has a carriage return, by induction over
the text.
-/
theorem afterEscaped?_escape (text rest : List Char)
    : afterEscaped? endsLine (text.flatMap escapeChar ++ '"' :: rest)
      = if '\r' ∈ text then none else some rest := by
  induction text with
  | nil => simp [afterEscaped?]
  | cons c text ih =>
      rw [List.flatMap_cons, List.append_assoc]
      fun_cases escapeChar c with
      | case1 backslash => simp [afterEscaped?, ih, backslash]
      | case2 _ lineFeed => simp [afterEscaped?, ih, lineFeed]
      | case3 _ _ formFeed => simp [afterEscaped?, ih, formFeed]
      | case4 _ _ _ double => simp [afterEscaped?, ih, double]
      | case5 backslash lineFeed _ double =>
          by_cases returns : c = '\r'
          · simp [afterEscaped?, endsLine, returns]
          · have calm : endsLine c = false := endsLine_eq_false_iff.mpr ⟨lineFeed, returns⟩
            simp [afterEscaped?, backslash, double, calm, ih, Ne.symm returns]

/-- A literal is finished by its last quote unless its text has a carriage return. -/
theorem afterLiteral?_quote (text : String) (rest : List Char)
    : afterLiteral? endsLine ((quote text).toList ++ rest)
      = if '\r' ∈ text.toList then none else some rest := by
  have spelled : (quote text).toList ++ rest
      = '"' :: (text.toList.flatMap escapeChar ++ '"' :: rest) := by
    simp [quote, escape, String.toList_append]
  rw [spelled, afterLiteral?]
  exact afterEscaped?_escape text.toList rest

-----------------------------------------------------------------------------------------
-- Comments
-----------------------------------------------------------------------------------------

/-- A comment of the line form goes up to the first carriage return of its text, and the rest of the
text is code.
-/
theorem commentThen_of_line {text : String} {inline : Bool} (short : isLongForm text inline = false)
    (rest : List Char)
    : CommentThen endsLine ((comment text inline).toList ++ '\n' :: rest)
        ((content text inline).toList.dropWhile (· != '\r') ++ '\n' :: rest) := by
  have single : '\n' ∉ (content text inline).toList := by
    rw [mem_content_iff (by decide)]
    exact lineFeed_not_mem_of_not_isLongForm short
  refine commentThen_of_not_isLongForm rfl rfl short List.takeWhile_append_dropWhile.symm ?_ ?_
  · intro c member
    have returns : c ≠ '\r' := by simpa using List.mem_takeWhile_imp member
    have feeds : c ≠ '\n' := by
      intro same
      exact single (same ▸ (List.takeWhile_sublist _).subset member)
    exact endsLine_eq_false_iff.mpr ⟨feeds, returns⟩
  · intro c head
    have stopped := List.head?_dropWhile_not (· != '\r') (content text inline).toList
    cases left : (content text inline).toList.dropWhile (· != '\r') with
    | nil =>
        rw [left] at head
        simp [endsLine, ← Option.some.inj head]
    | cons first more =>
        rw [left] at head stopped
        have returns : first = '\r' := by simpa using stopped
        simp [endsLine, ← Option.some.inj head, returns]

/-- A literal has a raw carriage return exactly if its text has one, and then it is unfinished. A
comment of the line form has one exactly if its text does, and then it ends there and leaves the
rest of the text as code. So a comment is one comment exactly if it has the long form or its text
has no carriage return.
-/
theorem carriage_return_is_contained_iff (text : String) (inline : Bool) (rest : List Char)
    : ('\r' ∈ (quote text).toList ↔ '\r' ∈ text.toList)
      ∧ afterLiteral? endsLine ((quote text).toList ++ rest)
        = (if '\r' ∈ text.toList then none else some rest)
      ∧ (comment text inline = "--" ++ content text inline
        → ('\r' ∈ (comment text inline).toList ↔ '\r' ∈ text.toList)
          ∧ CommentThen endsLine ((comment text inline).toList ++ '\n' :: rest)
              ((content text inline).toList.dropWhile (· != '\r') ++ '\n' :: rest))
      ∧ (IsComment endsLine (comment text inline)
        ↔ comment text inline ≠ "--" ++ content text inline ∨ '\r' ∉ text.toList) := by
  refine ⟨mem_quote_iff (by decide) text, afterLiteral?_quote text rest, ?_, ?_⟩
  · intro line
    refine ⟨?_, commentThen_of_line (isLongForm_eq_false_iff.mpr line) rest⟩
    rw [line, String.toList_append, List.mem_append, mem_content_iff (by decide)]
    exact or_iff_right (by decide)
  · rw [isComment_endsLine_iff, ne_eq, ← isLongForm_eq_false_iff, Bool.not_eq_false]

/-- A carriage return leaves a literal unfinished, and ends a comment in the middle of its text. -/
theorem carriage_return_breaks_texts
    : afterLiteral? endsLine (quote "a\rb").toList = none
      ∧ comment "a\rb" false = "--" ++ content "a\rb" false
      ∧ CommentThen endsLine "--a\rb\n".toList "\rb\n".toList
      ∧ ¬ IsComment endsLine (comment "a\rb" false) := by
  have written : comment "a\rb" false = "--" ++ content "a\rb" false := by decide
  obtain ⟨-, literal, line, whole⟩ := carriage_return_is_contained_iff "a\rb" false []
  rw [List.append_nil] at literal
  refine ⟨?_, written, (line written).2, ?_⟩
  · rw [literal]
    decide
  · rw [whole]
    decide

end TileLua.Lua
