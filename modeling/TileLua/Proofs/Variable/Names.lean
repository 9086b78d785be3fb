import TileLua.Proofs.Lua.QuotedLiterals
import TileLua.Variable

/-! Script variables keep apart in Lua.
Different variables have different texts, a text fits on one line, and none is a name that is read
in a way of its own.
-/

namespace TileLua

namespace Lua

theorem isNameChar_of_isNameStart {c : Char} (start : isNameStart c = true)
    : isNameChar c = true := by
  simp only [isNameStart, isNameChar, Char.isAlphanum, Bool.or_eq_true] at start ⊢
  rcases start with letter | underscore
  · exact Or.inl (Or.inl letter)
  · exact Or.inr underscore

/-- A literal is made of the characters of names if its letters are. -/
theorem isNameChar_of_letters {letters : List Char}
    (named : letters.all isNameChar = true := by decide)
    : ∀ c ∈ (String.ofList letters).toList, isNameChar c = true := by
  rw [String.toList_ofList]
  exact List.all_eq_true.mp named

/-- An identifier is made of the characters of names. -/
theorem isNameChar_of_mem {name : String} (identifier : isIdentifier name = true) {c : Char}
    (member : c ∈ name.toList)
    : isNameChar c = true := by
  simp only [isIdentifier, Bool.and_eq_true] at identifier
  obtain ⟨shaped, -⟩ := identifier
  cases letters : name.toList with
  | nil =>
      rw [letters] at member
      cases member
  | cons first rest =>
      rw [letters] at member shaped
      simp only [isNameShaped, Bool.and_eq_true] at shaped
      rcases List.mem_cons.mp member with rfl | later
      · exact isNameChar_of_isNameStart shaped.1
      · exact List.all_eq_true.mp shaped.2 c later

theorem takeWhile_isNameChar {name : String} (identifier : isIdentifier name = true) {c : Char}
    (ends : isNameChar c = false) (rest : List Char)
    : (name.toList ++ c :: rest).takeWhile isNameChar = name.toList := by
  rw [List.takeWhile_append_of_pos (fun c member => isNameChar_of_mem identifier member),
    List.takeWhile_cons_of_neg (by simp [ends]), List.append_nil]

theorem lineFeed_not_mem_identifier {name : String} (identifier : isIdentifier name = true)
    : '\n' ∉ name.toList := by
  intro member
  have letter := isNameChar_of_mem identifier member
  revert letter
  decide

/-- No reserved word begins with an underscore. -/
theorem isIdentifier_of_underscore {name : String} {rest : List Char}
    (letters : name.toList = '_' :: rest) (named : ∀ c ∈ rest, isNameChar c = true)
    : isIdentifier name = true := by
  have free : name ∉ keywords := by
    intro reserved
    have begins : ∀ word ∈ keywords, word.toList.head? ≠ some '_' := by decide
    exact begins name reserved (by rw [letters, List.head?_cons])
  have start : isNameStart '_' = true := by decide
  rw [isIdentifier, letters, isNameShaped, start, List.all_eq_true.mpr named]
  simpa using free

/-- A text with a character that no name has is no identifier. -/
theorem isIdentifier_eq_false {name : String} {c : Char} (member : c ∈ name.toList)
    (other : isNameChar c = false)
    : isIdentifier name = false := by
  cases identifier : isIdentifier name with
  | false => rfl
  | true =>
      rw [isNameChar_of_mem identifier member] at other
      cases other

end Lua

namespace Variable

/-- A shifted name begins with three underscores. -/
theorem toList_shifted_of_reserved {name : String}
    (reserved : Text.startsWith name reservedLead = true)
    : ∃ rest, (shifted name).toList = '_' :: '_' :: '_' :: rest := by
  obtain ⟨rest, letters⟩ := List.isPrefixOf_iff_prefix.mp reserved
  refine ⟨rest, ?_⟩
  simp only [shifted, reserved, ↓reduceIte]
  simp [String.toList_append, ← letters, reservedLead]

theorem shifted_of_free {name : String} (free : Text.startsWith name reservedLead = false)
    : shifted name = name := by
  simp only [shifted, free, Bool.false_eq_true, ↓reduceIte]

theorem shifted_injective {first second : String} (same : shifted first = shifted second)
    : first = second := by
  -- A name that stays as it is does not even begin with two underscores.
  have apart {name other : String} (reserved : Text.startsWith name reservedLead = true)
      (free : Text.startsWith other reservedLead = false)
      : shifted name ≠ shifted other := by
    intro equal
    obtain ⟨rest, letters⟩ := toList_shifted_of_reserved reserved
    rw [equal, shifted_of_free free] at letters
    simp [Text.startsWith, reservedLead, letters] at free
  cases left : Text.startsWith first reservedLead with
  | true =>
      cases right : Text.startsWith second reservedLead with
      | true =>
          simp only [shifted, left, right, ↓reduceIte] at same
          simpa [← String.toList_inj, String.toList_append] using same
      | false => exact (apart left right same).elim
  | false =>
      cases right : Text.startsWith second reservedLead with
      | true => exact (apart right left same.symm).elim
      | false => rwa [shifted_of_free left, shifted_of_free right] at same

/-- The text of a variable is its shifted name if that is an identifier, and else the field of that
name in the table of globals.
-/
theorem luaText_of_identifier {name : String} (plain : Lua.isIdentifier (shifted name) = true)
    : luaText name = shifted name := by
  simp only [luaText, global, plain, ↓reduceIte]

theorem luaText_of_not_identifier {name : String}
    (quoted : Lua.isIdentifier (shifted name) = false)
    : luaText name = "_G[" ++ Lua.quote (shifted name) ++ "]" := by
  simp only [luaText, global, quoted, Bool.false_eq_true, ↓reduceIte]

theorem isIdentifier_luaText (name : String)
    : Lua.isIdentifier (luaText name) = Lua.isIdentifier (shifted name) := by
  cases plain : Lua.isIdentifier (shifted name) with
  | true => rw [luaText_of_identifier plain, plain]
  | false =>
      rw [luaText_of_not_identifier plain]
      have bracket : Lua.isNameChar '[' = false := by decide
      refine Lua.isIdentifier_eq_false ?_ bracket
      simp [String.toList_append]

theorem luaText_injective {first second : String} (same : luaText first = luaText second)
    : first = second := by
  apply shifted_injective
  have kinds := congrArg Lua.isIdentifier same
  rw [isIdentifier_luaText, isIdentifier_luaText] at kinds
  cases plain : Lua.isIdentifier (shifted first) with
  | true =>
      rw [luaText_of_identifier plain, luaText_of_identifier (kinds ▸ plain)] at same
      exact same
  | false =>
      rw [luaText_of_not_identifier plain, luaText_of_not_identifier (kinds ▸ plain)] at same
      apply Lua.quote_injective
      simpa [← String.toList_inj, String.toList_append] using same

theorem lineFeed_not_mem_luaText (name : String) : '\n' ∉ (luaText name).toList := by
  cases plain : Lua.isIdentifier (shifted name) with
  | true =>
      rw [luaText_of_identifier plain]
      intro member
      have letter := Lua.isNameChar_of_mem plain member
      revert letter
      decide
  | false =>
      rw [luaText_of_not_identifier plain]
      simp [String.toList_append, Lua.lineFeed_not_mem_quote]

/-- The text of a variable begins with two underscores only if the variable does, and then it has a
third one.
-/
theorem luaText_of_reserved {name : String}
    (reserved : Text.startsWith (luaText name) reservedLead = true)
    : Text.startsWith name reservedLead = true ∧ luaText name = "_" ++ name := by
  cases plain : Lua.isIdentifier (shifted name) with
  | true =>
      rw [luaText_of_identifier plain] at reserved ⊢
      cases lead : Text.startsWith name reservedLead with
      | true => simp only [shifted, lead, ↓reduceIte, and_self]
      | false =>
          rw [shifted_of_free lead, lead] at reserved
          cases reserved
  | false =>
      rw [luaText_of_not_identifier plain] at reserved
      simp [Text.startsWith, reservedLead, String.toList_append] at reserved

theorem startsWith_luaText {name : String}
    (reserved : Text.startsWith (luaText name) reservedLead = true)
    : Text.startsWith (luaText name) "___" = true := by
  obtain ⟨lead, text⟩ := luaText_of_reserved reserved
  obtain ⟨rest, letters⟩ := List.isPrefixOf_iff_prefix.mp lead
  simp [Text.startsWith, text, String.toList_append, ← letters, reservedLead]

theorem mem_shifted_iff {c : Char} (other : c ≠ '_') (name : String)
    : c ∈ (shifted name).toList ↔ c ∈ name.toList := by
  unfold shifted
  split <;> simp [String.toList_append, other]

/-- The text of a script variable is no name that is used as it is: it has no dot, and three
underscores do not lead to an engine setting.
-/
theorem isVerbatim_luaText {name : String} (counted : isVerbatim name = false)
    : isVerbatim (luaText name) = false := by
  simp only [isVerbatim, Bool.or_eq_false_iff, List.contains_eq_mem, decide_eq_false_iff_not]
    at counted ⊢
  constructor
  · have undotted : '.' ∉ (shifted name).toList := by
      rw [mem_shifted_iff (by decide)]
      exact counted.1
    cases plain : Lua.isIdentifier (shifted name) with
    | true =>
        rw [luaText_of_identifier plain]
        exact undotted
    | false =>
        rw [luaText_of_not_identifier plain]
        simp [String.toList_append, Lua.mem_quote_iff, undotted]
  · rw [Bool.eq_false_iff]
    intro setting
    have reserved : Text.startsWith (luaText name) reservedLead = true := by
      simp only [Text.startsWith, List.isPrefixOf_iff_prefix] at setting ⊢
      have lead : reservedLead.toList <+: extensionLead.toList := by decide
      exact lead.trans setting
    have shift := startsWith_luaText reserved
    simp only [Text.startsWith, List.isPrefixOf_iff_prefix] at setting shift
    have short := List.prefix_of_prefix_length_le shift setting (by decide)
    revert short
    decide

/-- A name that is read in a way of its own is used as it is. -/
theorem isVerbatim_of_special {name : String} {special : Special}
    (found : special? name = some special)
    : isVerbatim name = true := by
  have verbatim : ∀ entry ∈ specials, isVerbatim entry.1 = true := by decide +kernel
  obtain ⟨before, after, split, -⟩ := List.lookup_eq_some_iff.mp found
  exact verbatim (name, special) (by simp [split])

theorem special_of_counted {name : String} (counted : isVerbatim name = false)
    : special? name = none := by
  rw [Option.eq_none_iff_forall_ne_some]
  intro special found
  rw [isVerbatim_of_special found] at counted
  cases counted

/-- The text of a name where it is written: a script variable has a text of its own. -/
def writtenText (name : String) : String :=
  if isVerbatim name then name else luaText name

theorem writtenText_of_verbatim {name : String} (verbatim : isVerbatim name = true)
    : writtenText name = name :=
  if_pos verbatim

theorem writtenText_of_counted {name : String} (counted : isVerbatim name = false)
    : writtenText name = luaText name := by
  simp only [writtenText, counted, Bool.false_eq_true, ↓reduceIte]

theorem isVerbatim_writtenText (name : String)
    : isVerbatim (writtenText name) = isVerbatim name := by
  cases kind : isVerbatim name with
  | true => rw [writtenText_of_verbatim kind, kind]
  | false => rw [writtenText_of_counted kind, isVerbatim_luaText kind]

/-- The text of a name is read in a way of its own only if the name is. -/
theorem special_writtenText {name : String} (plain : special? name = none)
    : special? (writtenText name) = none := by
  cases kind : isVerbatim name with
  | true => rwa [writtenText_of_verbatim kind]
  | false =>
      rw [writtenText_of_counted kind]
      exact special_of_counted (isVerbatim_luaText kind)

/-- Different names have different texts, be they used as they are or not. -/
theorem writtenText_injective {first second : String}
    (same : writtenText first = writtenText second)
    : first = second := by
  have kinds := congrArg isVerbatim same
  rw [isVerbatim_writtenText, isVerbatim_writtenText] at kinds
  cases kind : isVerbatim first with
  | true =>
      rwa [writtenText_of_verbatim kind, writtenText_of_verbatim (kinds ▸ kind)] at same
  | false =>
      rw [writtenText_of_counted kind, writtenText_of_counted (kinds ▸ kind)] at same
      exact luaText_injective same

end Variable

end TileLua
