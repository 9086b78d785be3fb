import TileLua.Proofs.Directive.Forms

/-! Which comments are settings that cannot be taken over.
A setting is the mark of its group, a key, an equals sign and a value. It is malformed if no equals
sign follows the mark, or if nothing but blanks stands before the first one. This is said of the
text alone here, and compared with the way in which directives are read.
-/

namespace TileLua

/-- A text is trimmed to nothing exactly if it is all blanks. -/
theorem Text.trim_eq_empty_iff (text : String)
    : trim text = "" ↔ ∀ c ∈ text.toList, isBlank c = true := by
  rw [trim, ← String.toList_inj, String.toList_ofList]
  simp only [trimEnd, trimStart, String.toList_empty, List.reverse_eq_nil_iff,
    List.dropWhile_eq_nil_iff, List.mem_reverse]
  constructor
  · intro rest
    have kept : text.toList.dropWhile isBlank = [] := by
      cases shape : text.toList.dropWhile isBlank with
      | nil => rfl
      | cons c others =>
          -- The first character that is kept is no blank.
          have remains : text.toList.dropWhile isBlank ≠ [] := by simp [shape]
          have stops := List.head_dropWhile_not isBlank remains
          have blank := rest c (by simp [shape])
          simp [shape, blank] at stops
    exact List.dropWhile_eq_nil_iff.mp kept
  · intro blanks c member
    exact blanks c ((List.dropWhile_sublist isBlank).mem member)

namespace Directive

open Text (after?)

/-- Whether a comment is a setting without an equals sign or without a key. -/
def isMalformedSetting (text : String) : Bool :=
  [SettingGroup.pdxInfo, .ptl].any fun group =>
    (after? group.mark (Text.trim text).toList).any fun rest =>
      !rest.contains '=' || (rest.takeWhile (· != '=')).all Text.isBlank

theorem valueOf_eq_none_iff (rest : List Char) : valueOf? rest = none ↔ '=' ∉ rest := by
  have sign : rest.dropWhile (· != '=') = [] ↔ '=' ∉ rest := by
    rw [List.dropWhile_eq_nil_iff]
    simp only [bne_iff_ne]
    exact ⟨fun none member => none '=' member rfl,
      fun absent c member same => absent (same ▸ member)⟩
  rw [← sign, valueOf?]
  cases rest.dropWhile (· != '=') <;> simp

theorem keyOf_eq_empty_iff (rest : List Char)
    : keyOf rest = "" ↔ ∀ c ∈ rest.takeWhile (· != '='), Text.isBlank c = true := by
  rw [keyOf, Text.trim_eq_empty_iff, String.toList_ofList]

/-- A comment is malformed exactly if it is read as a setting that lacks a value or a key. -/
theorem isMalformedSetting_iff (text : String)
    : isMalformedSetting text = true
      ↔ ∃ group key value,
          parse (Text.trim text) = .setting group key value ∧ (value = none ∨ key = "") := by
  have marks : isMalformedSetting text = true
      ↔ ∃ group rest,
          after? (SettingGroup.mark group) (Text.trim text).toList = some rest
          ∧ (valueOf? rest = none ∨ keyOf rest = "") := by
    have groups (P : SettingGroup → Prop) : (∃ group, P group) ↔ P .pdxInfo ∨ P .ptl := by
      constructor
      · intro found
        obtain ⟨group, holds⟩ := found
        cases group with
        | pdxInfo => exact Or.inl holds
        | ptl => exact Or.inr holds
      · intro either
        rcases either with holds | holds
        · exact ⟨_, holds⟩
        · exact ⟨_, holds⟩
    rw [groups]
    simp [isMalformedSetting, Option.any_eq_true, valueOf_eq_none_iff, keyOf_eq_empty_iff]
  rw [marks]
  constructor
  · intro malformed
    obtain ⟨group, rest, marked, lacking⟩ := malformed
    refine ⟨group, keyOf rest, valueOf? rest, ?_, lacking⟩
    have read := parse_of_marked marked
    rw [setting_eq_map, marked] at read
    exact (Option.some.inj read).symm
  · intro malformed
    obtain ⟨group, key, value, read, lacking⟩ := malformed
    have read : setting? group (Text.trim text).toList = some (.setting group key value) :=
      ruleFor_of_parse read
    rw [setting_eq_map] at read
    obtain ⟨rest, marked, same⟩ := Option.map_eq_some_iff.mp read
    cases same
    exact ⟨group, rest, marked, lacking⟩

end Directive

end TileLua
