import Mathlib.Data.List.TakeWhile

/-! Parsing expressions and what they read.
A parsing expression reads the start of a text or fails. A choice tries its second part only where
the first part fails, a repetition goes on as long as it can, and neither takes back what it has
read when something behind it fails. A rule leaves a tree of what it has read. So the outcome of a
reading is unique, and a repetition of something that reads single characters reads the longest
run of them.
-/

namespace TileLua

/-- A parsing expression. -/
inductive Peg (Rule : Type)
  | literal (text : String)
  | any
  | endOfInput
  | seq (first second : Peg Rule)
  | choice (first second : Peg Rule)
  | star (body : Peg Rule)
  /-- Looks ahead: reads nothing, and fails where the body does not. -/
  | notAhead (body : Peg Rule)
  | rule (name : Rule) (body : Peg Rule)

namespace Peg

variable {Rule : Type}

/-- The body, or else nothing. -/
def optional (body : Peg Rule) : Peg Rule :=
  .choice body (.literal "")

/-- The body once or more often. -/
def plus (body : Peg Rule) : Peg Rule :=
  .seq body (.star body)

/-- What a rule has read, with the trees of the rules inside it. -/
inductive ParseTree (Rule : Type)
  | node (rule : Rule) (text : List Char) (inner : List (ParseTree Rule))

/-- The trees that a reading leaves and the text behind it; nothing for a reading that fails. -/
abbrev Outcome (Rule : Type) :=
  Option (List (ParseTree Rule) × List Char)

/-- What a parsing expression reads at the start of a text. -/
inductive Reads : Peg Rule → List Char → Outcome Rule → Prop
  | literal {text : String} {input rest : List Char} (begins : input = text.toList ++ rest)
    : Reads (.literal text) input (some ([], rest))
  | literal_fails {text : String} {input : List Char} (other : ¬ text.toList <+: input)
    : Reads (.literal text) input none
  | any (c : Char) (rest : List Char) : Reads .any (c :: rest) (some ([], rest))
  | any_fails : Reads .any [] none
  | endOfInput : Reads .endOfInput [] (some ([], []))
  | endOfInput_fails (c : Char) (rest : List Char) : Reads .endOfInput (c :: rest) none
  | seq {first second : Peg Rule} {input middle : List Char} {trees : List (ParseTree Rule)}
    {more : List (ParseTree Rule)} {rest : List Char}
    (reads : Reads first input (some (trees, middle)))
    (continues : Reads second middle (some (more, rest)))
    : Reads (.seq first second) input (some (trees ++ more, rest))
  | seq_fails {first second : Peg Rule} {input : List Char} (fails : Reads first input none)
    : Reads (.seq first second) input none
  | seq_fails_later {first second : Peg Rule} {input middle : List Char}
    {trees : List (ParseTree Rule)} (reads : Reads first input (some (trees, middle)))
    (fails : Reads second middle none)
    : Reads (.seq first second) input none
  | choice {first second : Peg Rule} {input : List Char}
    {reading : List (ParseTree Rule) × List Char} (reads : Reads first input (some reading))
    : Reads (.choice first second) input (some reading)
  | choice_second {first second : Peg Rule} {input : List Char} {outcome : Outcome Rule}
    (fails : Reads first input none) (otherwise : Reads second input outcome)
    : Reads (.choice first second) input outcome
  | star_ends {body : Peg Rule} {input : List Char} (fails : Reads body input none)
    : Reads (.star body) input (some ([], input))
  | star {body : Peg Rule} {input middle : List Char} {trees : List (ParseTree Rule)}
    {more : List (ParseTree Rule)} {rest : List Char}
    (reads : Reads body input (some (trees, middle)))
    (continues : Reads (.star body) middle (some (more, rest)))
    : Reads (.star body) input (some (trees ++ more, rest))
  | notAhead {body : Peg Rule} {input : List Char} (fails : Reads body input none)
    : Reads (.notAhead body) input (some ([], input))
  | notAhead_fails {body : Peg Rule} {input : List Char}
    {reading : List (ParseTree Rule) × List Char} (reads : Reads body input (some reading))
    : Reads (.notAhead body) input none
  | rule {name : Rule} {body : Peg Rule} {input text rest : List Char}
    {inner : List (ParseTree Rule)} (reads : Reads body input (some (inner, rest)))
    (spans : input = text ++ rest)
    : Reads (.rule name body) input (some ([.node name text inner], rest))
  | rule_fails {name : Rule} {body : Peg Rule} {input : List Char} (fails : Reads body input none)
    : Reads (.rule name body) input none

/-- An expression reads a text in one way at most, by induction over the reading. -/
theorem Reads.unique {expression : Peg Rule} {input : List Char} {first second : Outcome Rule}
    (one : Reads expression input first) (other : Reads expression input second)
    : first = second := by
  induction one generalizing second with
  | literal begins =>
      cases other with
      | literal again => simpa using begins.symm.trans again
      | literal_fails absent => exact (absent ⟨_, begins.symm⟩).elim
  | literal_fails absent =>
      cases other with
      | literal begins => exact (absent ⟨_, begins.symm⟩).elim
      | literal_fails => rfl
  | any c rest =>
      cases other
      rfl
  | any_fails =>
      cases other
      rfl
  | endOfInput =>
      cases other
      rfl
  | endOfInput_fails c rest =>
      cases other
      rfl
  | seq reads continues ih ihMore =>
      cases other with
      | seq readsAgain continuesAgain =>
          cases ih readsAgain
          cases ihMore continuesAgain
          rfl
      | seq_fails fails => cases ih fails
      | seq_fails_later readsAgain fails =>
          cases ih readsAgain
          cases ihMore fails
  | seq_fails fails ih =>
      cases other with
      | seq reads continues => cases ih reads
      | seq_fails => rfl
      | seq_fails_later => rfl
  | seq_fails_later reads fails ih ihMore =>
      cases other with
      | seq readsAgain continues =>
          cases ih readsAgain
          cases ihMore continues
      | seq_fails => rfl
      | seq_fails_later => rfl
  | choice reads ih =>
      cases other with
      | choice again => exact ih again
      | choice_second fails => cases ih fails
  | choice_second fails otherwise ih ihOtherwise =>
      cases other with
      | choice reads => cases ih reads
      | choice_second _ again => exact ihOtherwise again
  | star_ends fails ih =>
      cases other with
      | star_ends => rfl
      | star reads continues => cases ih reads
  | star reads continues ih ihMore =>
      cases other with
      | star_ends fails => cases ih fails
      | star readsAgain continuesAgain =>
          cases ih readsAgain
          cases ihMore continuesAgain
          rfl
  | notAhead fails ih =>
      cases other with
      | notAhead => rfl
      | notAhead_fails reads => cases ih reads
  | notAhead_fails reads ih =>
      cases other with
      | notAhead fails => cases ih fails
      | notAhead_fails => rfl
  | rule reads spans ih =>
      cases other with
      | rule again spansAgain =>
          cases ih again
          simpa using spans.symm.trans spansAgain
      | rule_fails fails => cases ih fails
  | rule_fails fails ih =>
      cases other with
      | rule reads => cases ih reads
      | rule_fails => rfl

/-- What a reading leaves is the end of the text, by induction over the reading. -/
theorem Reads.isSuffix {expression : Peg Rule} {input : List Char} {outcome : Outcome Rule}
    (reads : Reads expression input outcome)
    : ∀ reading ∈ outcome, reading.2 <:+ input := by
  induction reads with
  | literal begins => simp [begins]
  | any c rest => simp
  | endOfInput => simp
  | seq _ _ ih ihMore | star _ _ ih ihMore =>
      simp only [Option.mem_some_iff, forall_eq'] at ih ihMore ⊢
      exact ihMore.trans ih
  | choice _ ih => exact ih
  | choice_second _ _ _ ihOtherwise => exact ihOtherwise
  | star_ends | notAhead => simp
  | rule _ spans => simp [spans]
  | literal_fails | any_fails | endOfInput_fails | seq_fails | seq_fails_later | notAhead_fails
  | rule_fails => simp

-----------------------------------------------------------------------------------------
-- Repetitions
-----------------------------------------------------------------------------------------

theorem Reads.optional {body : Peg Rule} {input : List Char}
    {reading : List (ParseTree Rule) × List Char} (reads : Reads body input (some reading))
    : Reads (.optional body) input (some reading) :=
  .choice reads

theorem Reads.optional_skips {body : Peg Rule} {input : List Char}
    (fails : Reads body input none)
    : Reads (.optional body) input (some ([], input)) :=
  .choice_second fails (.literal (by simp))

/-- An expression that reads one character of a class, and leaves no tree. -/
structure ReadsOne (isIn : Char → Bool) (expression : Peg Rule) : Prop where
  atEnd : Reads expression [] none
  inside {c : Char} (rest : List Char) (belongs : isIn c = true)
    : Reads expression (c :: rest) (some ([], rest))
  outside {c : Char} (rest : List Char) (other : isIn c = false)
    : Reads expression (c :: rest) none

/-- A repetition reads the longest run, by induction over the text. -/
theorem ReadsOne.star {isIn : Char → Bool} {body : Peg Rule} (one : ReadsOne isIn body)
    (input : List Char)
    : Reads (.star body) input (some ([], input.dropWhile isIn)) := by
  induction input with
  | nil => exact .star_ends one.atEnd
  | cons c rest ih =>
      cases known : isIn c with
      | true =>
          rw [List.dropWhile_cons_of_pos known]
          exact .star (one.inside rest known) ih
      | false =>
          rw [List.dropWhile_cons_of_neg (by simp [known])]
          exact .star_ends (one.outside rest known)

/-- A repetition that must not be empty fails where no run begins. -/
theorem ReadsOne.plus {isIn : Char → Bool} {body : Peg Rule} (one : ReadsOne isIn body)
    (input : List Char)
    : Reads (.plus body) input
        (if input.takeWhile isIn = [] then none else some ([], input.dropWhile isIn)) := by
  cases input with
  | nil => exact .seq_fails one.atEnd
  | cons c rest =>
      cases known : isIn c with
      | true =>
          rw [List.takeWhile_cons_of_pos known, if_neg (by simp),
            List.dropWhile_cons_of_pos known]
          exact .seq (one.inside rest known) (one.star rest)
      | false =>
          rw [List.takeWhile_cons_of_neg (by simp [known]), if_pos rfl]
          exact .seq_fails (one.outside rest known)

theorem readsOne_any : ReadsOne (fun _ => true) (.any : Peg Rule) where
  atEnd := .any_fails
  inside rest _ := .any _ rest
  outside _ other := by cases other

theorem readsOne_literal (text : String) (letter : Char) (single : text.toList = [letter])
    : ReadsOne (· == letter) (.literal text : Peg Rule) where
  atEnd := .literal_fails (by simp [single])
  inside rest belongs := .literal (by simpa [single] using belongs)
  outside {c} rest other := by
    have differs : c ≠ letter := by simpa using other
    exact .literal_fails (by simpa [single] using differs.symm)

theorem ReadsOne.choice {isIn isInSecond : Char → Bool} {first second : Peg Rule}
    (one : ReadsOne isIn first) (other : ReadsOne isInSecond second)
    : ReadsOne (fun c => isIn c || isInSecond c) (.choice first second) where
  atEnd := .choice_second one.atEnd other.atEnd
  inside {c} rest belongs := by
    cases known : isIn c with
    | true => exact .choice (one.inside rest known)
    | false =>
        rw [known, Bool.false_or] at belongs
        exact .choice_second (one.outside rest known) (other.inside rest belongs)
  outside rest neither := by
    rw [Bool.or_eq_false_iff] at neither
    exact .choice_second (one.outside rest neither.1) (other.outside rest neither.2)

/-- Any character that is not ahead. -/
theorem ReadsOne.excluded {isIn : Char → Bool} {body : Peg Rule} (one : ReadsOne isIn body)
    : ReadsOne (fun c => !isIn c) (.seq (.notAhead body) .any) where
  atEnd := .seq_fails_later (.notAhead one.atEnd) .any_fails
  inside {c} rest belongs := by
    rw [Bool.not_eq_true'] at belongs
    exact .seq (.notAhead (one.outside rest belongs)) (.any c rest)
  outside rest other := by
    rw [Bool.not_eq_false'] at other
    exact .seq_fails (.notAhead_fails (one.inside rest other))

end Peg

end TileLua
