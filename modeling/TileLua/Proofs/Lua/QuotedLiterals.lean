import TileLua.Lua

/-! Reading quoted literals back.
A reader that knows the four escapes and refuses a raw line feed gets from a literal the text that
was quoted, and stops right after it.
-/

namespace TileLua.Lua

/-- The character that an escape stands for. -/
def unescape? (c : Char) : Option Char :=
  if c = '\\' then some '\\'
  else if c = 'n' then some '\n'
  else if c = 'f' then some '\x0c'
  else if c = '"' then some '"'
  else none

/-- Reads the rest of a literal: the characters it stands for, and what follows its end quote. -/
def readEscaped : List Char → Option (List Char × List Char)
  | [] => none
  | '\\' :: c :: rest => do
      let first ← unescape? c
      let (text, after) ← readEscaped rest
      return (first :: text, after)
  | c :: rest =>
      if c = '"' then some ([], rest)
      else if c = '\\' ∨ c = '\n' then none
      else do
        let (text, after) ← readEscaped rest
        return (c :: text, after)

/-- Reads a double-quoted literal. -/
def readQuoted : List Char → Option (List Char × List Char)
  | '"' :: rest => readEscaped rest
  | _ => none

/-- What stands between the quotes of a literal, and the text that it stands for: escapes, and
characters other than a quote, a backslash and a line feed.
-/
inductive Spells : List Char → List Char → Prop
  | nil : Spells [] []
  | escaped {c value : Char} {body text : List Char} (known : unescape? c = some value)
    (rest : Spells body text)
    : Spells ('\\' :: c :: body) (value :: text)
  | plain {c : Char} {body text : List Char} (double : c ≠ '"') (backslash : c ≠ '\\')
    (lineFeed : c ≠ '\n') (rest : Spells body text)
    : Spells (c :: body) (c :: text)

/-- A text that spells another one is read up to the quote after it, by induction on the
spelling.
-/
theorem Spells.readEscaped {body text : List Char} (spells : Spells body text) (after : List Char)
    : readEscaped (body ++ '"' :: after) = some (text, after) := by
  induction spells with
  | nil => simp [Lua.readEscaped]
  | escaped known _ ih => simp [Lua.readEscaped, known, ih]
  | plain double backslash lineFeed _ ih =>
      simp [Lua.readEscaped, double, backslash, lineFeed, ih]

/-- What is read up to a quote spells the text that is read, by induction along the reading. -/
theorem spells_of_readEscaped {input text after : List Char}
    (read : readEscaped input = some (text, after))
    : ∃ body, input = body ++ '"' :: after ∧ Spells body text := by
  fun_induction readEscaped input generalizing text with
  | case1 => cases read
  | case2 c rest ih =>
      obtain ⟨first, known, read⟩ := Option.bind_eq_some_iff.mp read
      obtain ⟨⟨later, left⟩, readLater, result⟩ := Option.bind_eq_some_iff.mp read
      cases result
      obtain ⟨body, rfl, spells⟩ := ih readLater
      exact ⟨'\\' :: c :: body, rfl, .escaped known spells⟩
  | case3 rest =>
      cases read
      exact ⟨[], rfl, .nil⟩
  | case4 c rest notEscape notQuote refused => cases read
  | case5 c rest notEscape double ordinary ih =>
      obtain ⟨⟨later, left⟩, readLater, result⟩ := Option.bind_eq_some_iff.mp read
      cases result
      obtain ⟨body, rfl, spells⟩ := ih readLater
      obtain ⟨backslash, lineFeed⟩ := not_or.mp ordinary
      exact ⟨c :: body, rfl, .plain double backslash lineFeed spells⟩

/-- A text is read as a literal exactly if it starts with one. -/
theorem readQuoted_eq_some_iff {input text after : List Char}
    : readQuoted input = some (text, after)
      ↔ ∃ body, input = '"' :: (body ++ '"' :: after) ∧ Spells body text := by
  constructor
  · intro read
    unfold readQuoted at read
    split at read
    · rename_i rest
      obtain ⟨body, rfl, spells⟩ := spells_of_readEscaped read
      exact ⟨body, rfl, spells⟩
    · cases read
  · rintro ⟨body, rfl, spells⟩
    exact spells.readEscaped after

/-- The escapes of a text spell it, by induction over the text. -/
theorem spells_escape (text : List Char) : Spells (text.flatMap escapeChar) text := by
  induction text with
  | nil => exact .nil
  | cons c rest ih =>
      rw [List.flatMap_cons]
      fun_cases escapeChar c with
      | case1 backslash =>
          subst backslash
          exact .escaped rfl ih
      | case2 _ lineFeed =>
          subst lineFeed
          exact .escaped rfl ih
      | case3 _ _ formFeed =>
          subst formFeed
          exact .escaped rfl ih
      | case4 _ _ _ double =>
          subst double
          exact .escaped rfl ih
      | case5 backslash lineFeed _ double => exact .plain double backslash lineFeed ih

/-- A quoted text is read back, whatever follows it. -/
theorem readQuoted_quote (text : String) (after : List Char)
    : readQuoted ((quote text).toList ++ after) = some (text.toList, after) := by
  rw [readQuoted_eq_some_iff]
  refine ⟨text.toList.flatMap escapeChar, ?_, spells_escape text.toList⟩
  simp [quote, escape, String.toList_append]

theorem quote_injective {first second : String} (same : quote first = quote second)
    : first = second := by
  have left := readQuoted_quote first []
  rw [same, readQuoted_quote second []] at left
  simp only [Option.some.injEq, Prod.mk.injEq, and_true] at left
  exact String.toList_inj.mp left.symm

theorem escape_injective {first second : String} (same : escape first = escape second)
    : first = second :=
  quote_injective (by rw [quote, quote, same])

/-- No proper part of a literal is a literal: what is read there would also be read from the whole,
and would leave the rest of it.
-/
theorem readQuoted_of_prefix {text : String} {part : List Char}
    (start : part <+: (quote text).toList) (proper : part ≠ (quote text).toList)
    : readQuoted part = none := by
  obtain ⟨missing, whole⟩ := start
  rw [Option.eq_none_iff_forall_ne_some]
  rintro ⟨value, left⟩ read
  obtain ⟨body, rfl, spells⟩ := readQuoted_eq_some_iff.mp read
  have early : readQuoted (quote text).toList = some (value, left ++ missing) := by
    rw [readQuoted_eq_some_iff, ← whole]
    exact ⟨body, by simp, spells⟩
  have full := readQuoted_quote text []
  rw [List.append_nil, early, Option.some.injEq, Prod.mk.injEq, List.append_eq_nil_iff] at full
  apply proper
  rw [← whole, full.2.2, List.append_nil]

/-- A reader that accepts a literal exactly as it is spelled gets from a quoted text that text, and
stops right after its end quote, whatever follows. It accepts no proper part of the literal. So
texts that are quoted or escaped differently are different.
-/
theorem quoted_texts_are_read_back
    : (∀ input text after,
        readQuoted input = some (text, after)
        ↔ ∃ body, input = '"' :: (body ++ '"' :: after) ∧ Spells body text)
      ∧ (∀ (text : String) (after : List Char),
          readQuoted ((quote text).toList ++ after) = some (text.toList, after))
      ∧ (∀ (text : String) (part : List Char),
          part <+: (quote text).toList → part ≠ (quote text).toList → readQuoted part = none)
      ∧ (∀ first second : String, quote first = quote second ↔ first = second)
      ∧ ∀ first second : String, escape first = escape second ↔ first = second := by
  refine ⟨fun _ _ _ => readQuoted_eq_some_iff, readQuoted_quote,
    fun _ _ => readQuoted_of_prefix, ?_, ?_⟩
  · intro first second
    exact ⟨quote_injective, congrArg quote⟩
  · intro first second
    exact ⟨escape_injective, congrArg escape⟩

/-- A text that ends in a backslash, after a quote: what looks like its end quote is escaped. -/
theorem trailing_backslash_is_read_back
    : readQuoted "\"a\\\"b\\\\\", c\"".toList = some ("a\"b\\".toList, ", c\"".toList)
      ∧ readQuoted "\"a\\\"b\\\\".toList = none := by
  have spelled : (quote "a\"b\\").toList = "\"a\\\"b\\\\\"".toList := by decide
  obtain ⟨-, read, early, -⟩ := quoted_texts_are_read_back
  constructor
  · exact read "a\"b\\" ", c\"".toList
  · exact early "a\"b\\" _ (by rw [spelled]; decide) (by rw [spelled]; decide)

/-- A character that neither is written as an escape nor stands in one is in a literal exactly if it
is in the text.
-/
theorem mem_quote_iff {c : Char} (ordinary : c ∉ ['\\', '\n', '\x0c', '"', 'n', 'f'])
    (text : String)
    : c ∈ (quote text).toList ↔ c ∈ text.toList := by
  have escaped (d : Char) : c ∈ escapeChar d ↔ c = d := by
    simp only [List.mem_cons, List.not_mem_nil, or_false, not_or] at ordinary
    fun_cases escapeChar d <;> simp_all
  simp only [List.mem_cons, not_or] at ordinary
  simp [quote, escape, String.toList_append, escaped, ordinary]

/-- A literal has no raw line feed. -/
theorem lineFeed_not_mem_quote (text : String) : '\n' ∉ (quote text).toList := by
  have escaped (c : Char) : '\n' ∉ escapeChar c := by
    unfold escapeChar
    split
    · decide
    split
    · decide
    split
    · decide
    split
    · decide
    · rename_i ordinary _ _
      simpa [eq_comm] using ordinary
  simp [quote, escape, String.toList_append, escaped]

/-- A literal is longer than the text that it stands for, by induction over the text. -/
theorem length_lt_length_quote (text : String) : text.length < (quote text).length := by
  have escaped (letters : List Char) : letters.length ≤ (letters.flatMap escapeChar).length := by
    induction letters with
    | nil => exact Nat.le_refl _
    | cons c rest ih =>
        have one : 1 ≤ (escapeChar c).length := by
          fun_cases escapeChar c <;> simp
        rw [List.flatMap_cons, List.length_append, List.length_cons]
        omega
  have marks : "\"".length = 1 := rfl
  have letters := escaped text.toList
  rw [String.length_toList] at letters
  simp only [quote, escape, String.length_append, String.length_ofList, marks]
  omega

end TileLua.Lua
