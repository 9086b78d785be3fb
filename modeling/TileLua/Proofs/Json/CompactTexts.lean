import TileLua.Json.Printer

/-! How the canonical texts of JSON values begin.
The text of a value that is no string is one of three words, or it begins with a digit, a sign or an
opening bracket. So it is never taken for a word of any other kind.
-/

namespace TileLua

-----------------------------------------------------------------------------------------
-- Numbers
-----------------------------------------------------------------------------------------

/-- Whether a number can begin with a character. -/
def Decimal.startsNumber (c : Char) : Bool :=
  c.isDigit || c == '-'

/-- Whether a text begins like a number. -/
def Decimal.isNumberLed (text : List Char) : Bool :=
  text.head?.any startsNumber

namespace Decimal

theorem isNumberLed_append {front : List Char} (led : isNumberLed front = true) (back : List Char)
    : isNumberLed (front ++ back) = true := by
  cases front with
  | nil => cases led
  | cons c rest => exact led

theorem isNumberLed_toDigits (number : Nat) : isNumberLed (Nat.toDigits 10 number) = true := by
  cases digits : Nat.toDigits 10 number with
  | nil => exact (Nat.toDigits_ne_nil digits).elim
  | cons c rest =>
      have digit : c.isDigit = true :=
        Nat.isDigit_of_mem_toDigits (by omega) (by omega) (digits ▸ List.mem_cons_self)
      simp [isNumberLed, startsNumber, digit]

/-- A text without an exponent begins with the digits or with a zero. -/
theorem isNumberLed_plainText {digits : List Char} (led : isNumberLed digits = true)
    (exponent : Int)
    : isNumberLed (plainText digits exponent) = true := by
  unfold plainText
  split
  · rw [List.append_assoc]
    exact isNumberLed_append led _
  · dsimp only
    split
    · rename_i short
      apply isNumberLed_append
      rw [isNumberLed, List.head?_take, if_neg (by omega)]
      exact led
    · rfl

theorem isNumberLed_exponentText (layout : Layout) {digits : List Char}
    (led : isNumberLed digits = true) (leading : Int)
    : isNumberLed (exponentText layout digits leading) = true := by
  unfold exponentText
  apply isNumberLed_append
  split
  · exact led
  · exact led

theorem isNumberLed_text (layout : Layout) (number : Digits)
    : isNumberLed (number.text layout) = true := by
  unfold Digits.text
  dsimp only
  split
  · exact isNumberLed_plainText (isNumberLed_toDigits _) _
  · exact isNumberLed_exponentText layout (isNumberLed_toDigits _) _

/-- The text of a double begins like a number unless it is a word for a special value. -/
theorem render_eq_or_isNumberLed (layout : Layout) (number : Float)
    : layout.render number = layout.infinity
      ∨ layout.render number = layout.notANumber
      ∨ isNumberLed (layout.render number).toList = true := by
  have signed (negative : Prop) [Decidable negative] {text : String}
      (led : isNumberLed text.toList = true)
      : isNumberLed ((if negative then "-" else "") ++ text).toList = true := by
    split
    · rw [String.toList_append]
      rfl
    · rwa [String.empty_append]
  unfold Layout.render
  dsimp only
  split
  · exact Or.inr (Or.inr (signed _ rfl))
  split
  · refine Or.inr (Or.inr (signed _ ?_))
    rw [String.toList_ofList]
    exact isNumberLed_text layout _
  split
  · split
    · refine Or.inr (Or.inr ?_)
      rw [String.toList_append]
      rfl
    · rw [String.empty_append]
      exact Or.inl rfl
  · exact Or.inr (Or.inl rfl)

theorem isNumberLed_toString (number : Int) : isNumberLed (toString number).toList = true := by
  rw [Int.toString_eq_repr]
  cases number with
  | ofNat magnitude =>
      rw [Int.repr, Nat.toList_repr]
      exact isNumberLed_toDigits magnitude
  | negSucc magnitude =>
      rw [Int.repr, String.toList_append]
      rfl

end Decimal

-----------------------------------------------------------------------------------------
-- Values
-----------------------------------------------------------------------------------------

namespace Json

/-- The values that are written as words. -/
def words : List String :=
  ["null", "true", "false"]

/-- Whether the text of a value that is neither a string nor a word can begin with a character. -/
def startsValue (c : Char) : Bool :=
  Decimal.startsNumber c || c == '[' || c == '\x7b'

/-- Whether a text could be that of a value other than a string. -/
def looksLikeValue (text : String) : Bool :=
  words.contains text || text.toList.head?.any startsValue

theorem looksLikeValue_of_isNumberLed {text : String}
    (led : Decimal.isNumberLed text.toList = true)
    : looksLikeValue text = true := by
  unfold Decimal.isNumberLed at led
  unfold looksLikeValue
  cases first : text.toList.head? with
  | none => simp [first] at led
  | some c =>
      simp only [first, Option.any_some] at led
      simp [startsValue, led]

/-- The text of a value that is no string looks like one. -/
theorem looksLikeValue_compact {value : Json} (noText : value.asText? = none)
    : looksLikeValue value.compact = true := by
  cases value with
  | null => decide
  | bool value => cases value <;> decide
  | int value => exact looksLikeValue_of_isNumberLed (Decimal.isNumberLed_toString value)
  | float value =>
      rw [compact]
      rcases Decimal.render_eq_or_isNumberLed numberLayout value with word | word | led
      · rw [word]
        decide
      · rw [word]
        decide
      · exact looksLikeValue_of_isNumberLed led
  | str text => cases noText
  | arr items =>
      have bracket : startsValue '[' = true := by decide
      simp [compact, looksLikeValue, String.toList_append, bracket]
  | obj members =>
      have bracket : startsValue '\x7b' = true := by decide
      simp [compact, looksLikeValue, String.toList_append, bracket]

end Json

end TileLua
