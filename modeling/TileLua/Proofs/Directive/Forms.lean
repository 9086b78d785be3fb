import Mathlib.Data.List.TakeWhile
import TileLua.Directive
import TileLua.Proofs.Text.Lines

/-! The written forms of directives.
The rules for directives are tried in order. Except for the last one they begin with words that
exclude each other, so the order matters only for bracketed remarks, which are what no other rule
reads. This gives for each kind of directive the exact form of the texts that have it.
-/

namespace TileLua

-----------------------------------------------------------------------------------------
-- Trimming
-----------------------------------------------------------------------------------------

namespace Text

/-- Blanks before a text are trimmed away. -/
theorem trim_append_left {lead : String} (blank : ∀ c ∈ lead.toList, isBlank c = true)
    (text : String)
    : trim (lead ++ text) = trim text := by
  simp only [trim, trimStart, String.toList_append, List.dropWhile_append_of_pos blank]

/-- Blanks behind a text are trimmed away. -/
theorem trim_append_right {trail : String} (blank : ∀ c ∈ trail.toList, isBlank c = true)
    (text : String)
    : trim (text ++ trail) = trim text := by
  have nothing : trail.toList.dropWhile isBlank = [] := List.dropWhile_eq_nil_iff.mpr blank
  simp only [trim, trimStart, trimEnd, String.toList_append, List.dropWhile_append]
  cases kept : text.toList.dropWhile isBlank with
  | nil => simp [nothing]
  | cons c others =>
      have reversed : ∀ c ∈ trail.toList.reverse, isBlank c = true := by simpa using blank
      simp [List.dropWhile_append_of_pos reversed]

end Text

namespace Directive

open Text (after? after_eq_some)

-----------------------------------------------------------------------------------------
-- The rules in order
-----------------------------------------------------------------------------------------

/-- The rules, in the order in which they are tried. -/
def rules : List (List Char → Option Directive) :=
  [lua?, setting? .pdxInfo, setting? .ptl, direct?, script?, tag?]

theorem parse_eq_findSome (text : String)
    : parse text = (rules.findSome? fun rule => rule text.toList).getD .text := by
  simp only [parse, rules, List.findSome?_cons, List.findSome?_nil]
  cases lua? text.toList <;> cases setting? .pdxInfo text.toList
    <;> cases setting? .ptl text.toList <;> cases direct? text.toList
    <;> cases script? text.toList <;> cases tag? text.toList <;> rfl

/-- The rule for directives of the same kind. -/
def ruleFor : Directive → List Char → Option Directive
  | .lua _ => lua?
  | .setting group _ _ => setting? group
  | .direct => direct?
  | .script _ => script?
  | .tag _ => tag?
  | .text => fun _ => some .text

/-- Every rule begins with an opening bracket and reads directives of one kind. -/
theorem of_mem_rules {rule : List Char → Option Directive} {text : List Char}
    {directive : Directive} (listed : rule ∈ rules) (read : rule text = some directive)
    : text.head? = some '[' ∧ directive ≠ .text ∧ ruleFor directive = rule := by
  have leading {lead : String} {rest : List Char} (first : lead.toList.head? = some '[')
      (begins : after? lead text = some rest)
      : text.head? = some '[' := by
    rw [after_eq_some.mp begins, List.head?_append, first]
    rfl
  simp only [rules, List.mem_cons, List.not_mem_nil, or_false] at listed
  rcases listed with rfl | rfl | rfl | rfl | rfl | rfl
  · obtain ⟨rest, begins, same⟩ := Option.map_eq_some_iff.mp read
    refine ⟨leading rfl begins, ?_⟩
    split at same <;> cases same <;> exact ⟨by simp, rfl⟩
  · obtain ⟨rest, begins, rfl⟩ := Option.map_eq_some_iff.mp read
    exact ⟨leading rfl begins, by simp, rfl⟩
  · obtain ⟨rest, begins, rfl⟩ := Option.map_eq_some_iff.mp read
    exact ⟨leading rfl begins, by simp, rfl⟩
  · obtain ⟨rest, begins, same⟩ := Option.bind_eq_some_iff.mp read
    split at same <;> cases same
    exact ⟨leading rfl begins, by simp, rfl⟩
  · obtain ⟨rest, begins, same⟩ := Option.bind_eq_some_iff.mp read
    dsimp only at same
    split at same <;> cases same
    exact ⟨leading rfl begins, by simp, rfl⟩
  · obtain ⟨rest, begins, rfl⟩ := Option.map_eq_some_iff.mp read
    exact ⟨leading rfl begins, by simp, rfl⟩

/-- What a comment means is what the rule for such directives reads. -/
theorem ruleFor_of_parse {text : String} {directive : Directive} (read : parse text = directive)
    : ruleFor directive text.toList = some directive := by
  rw [parse_eq_findSome] at read
  cases found : rules.findSome? fun rule => rule text.toList with
  | none =>
      rw [found] at read
      subst read
      rfl
  | some other =>
      rw [found, Option.getD_some] at read
      subst read
      obtain ⟨rule, listed, applies⟩ := List.exists_of_findSome?_eq_some found
      obtain ⟨-, -, kind⟩ := of_mem_rules listed applies
      rw [kind]
      exact applies

/-- The mark of a setting decides how a comment is read. -/
theorem parse_of_marked {text : String} {group : SettingGroup} {rest : List Char}
    (marked : after? group.mark text.toList = some rest)
    : setting? group text.toList = some (parse text) := by
  have shape := after_eq_some.mp marked
  unfold parse
  rw [shape]
  cases group with
  | pdxInfo => rfl
  | ptl => rfl

/-- Whether a directive is an ordinary comment or a bracketed remark. -/
def isRemark : Directive → Bool
  | .tag _ => true
  | .text => true
  | _ => false

/-- The rules for all but remarks exclude each other, so whatever one of them reads is meant. -/
theorem parse_eq_iff_ruleFor {text : String} {directive : Directive}
    (special : directive.isRemark = false)
    : parse text = directive ↔ ruleFor directive text.toList = some directive := by
  refine ⟨ruleFor_of_parse, ?_⟩
  intro read
  cases directive with
  | tag shown => cases special
  | text => cases special
  | lua code =>
      have read : lua? text.toList = some (.lua code) := read
      simp [parse, read]
  | setting group key value =>
      obtain ⟨rest, marked, -⟩ := Option.map_eq_some_iff.mp read
      exact Option.some.inj ((parse_of_marked marked).symm.trans read)
  | direct =>
      obtain ⟨rest, begins, same⟩ := Option.bind_eq_some_iff.mp read
      have shape := after_eq_some.mp begins
      split at same
      · rename_i ends
        subst ends
        unfold parse
        rw [shape]
        rfl
      · cases same
  | script name =>
      have read : script? text.toList = some (.script name) := read
      obtain ⟨rest, begins, -⟩ := Option.bind_eq_some_iff.mp read
      have shape := after_eq_some.mp begins
      have others : lua? text.toList = none ∧ setting? .pdxInfo text.toList = none
          ∧ setting? .ptl text.toList = none ∧ direct? text.toList = none := by
        rw [shape]
        exact ⟨rfl, rfl, rfl, rfl⟩
      simp [parse, read, others]

-----------------------------------------------------------------------------------------
-- The forms
-----------------------------------------------------------------------------------------

theorem after_toList_eq_some {lead text : String} {rest : List Char}
    : after? lead text.toList = some rest ↔ text = lead ++ String.ofList rest := by
  rw [after_eq_some, ← String.toList_inj, String.toList_append, String.toList_ofList]

/-- Lua code follows its word, with one space between them that does not belong to the code. -/
theorem parse_eq_lua_iff (text code : String)
    : parse text = .lua code
      ↔ text = "[LUA] " ++ code ∨ text = "[LUA]" ++ code ∧ code.toList.head? ≠ some ' ' := by
  rw [parse_eq_iff_ruleFor rfl]
  simp only [ruleFor, lua?, Option.map_eq_some_iff, after_toList_eq_some]
  constructor
  · intro read
    obtain ⟨rest, rfl, same⟩ := read
    split at same
    · cases same
      exact Or.inl (by simp [← String.toList_inj, String.toList_append])
    · rename_i unspaced
      cases same
      refine Or.inr ⟨rfl, ?_⟩
      intro leading
      obtain ⟨others, same⟩ := List.head?_eq_some_iff.mp leading
      exact unspaced others (by simpa using same)
  · intro form
    rcases form with rfl | ⟨rfl, unspaced⟩
    · exact ⟨' ' :: code.toList, by simp [← String.toList_inj, String.toList_append], by simp⟩
    · refine ⟨code.toList, by simp, ?_⟩
      split
      · rename_i others spaced
        simp [spaced] at unspaced
      · simp

/-- A text is split at the first occurrence of a character. -/
theorem split_at_first {c : Char} {text front back : List Char}
    : text.takeWhile (· != c) = front ∧ text.dropWhile (· != c) = c :: back
      ↔ text = front ++ c :: back ∧ c ∉ front := by
  constructor
  · intro split
    obtain ⟨rfl, rest⟩ := split
    refine ⟨?_, ?_⟩
    · rw [← rest, List.takeWhile_append_dropWhile]
    · intro member
      have other := List.mem_takeWhile_imp member
      simp at other
  · intro shape
    obtain ⟨rfl, free⟩ := shape
    have others : ∀ d ∈ front, (d != c) = true := by
      intro d member
      rw [bne_iff_ne]
      intro same
      exact free (same ▸ member)
    rw [List.takeWhile_append_of_pos others, List.dropWhile_append_of_pos others]
    simp

/-- The key of a setting stands before the first equals sign. -/
def keyOf (rest : List Char) : String :=
  Text.trim (String.ofList (rest.takeWhile (· != '=')))

/-- The value of a setting stands behind the first equals sign. -/
def valueOf? (rest : List Char) : Option String :=
  match rest.dropWhile (· != '=') with
  | [] => none
  | _ :: value => some (Text.trim (String.ofList value))

/-- The spaces and tabs behind a mark change neither the key, which is trimmed, nor the value. -/
theorem setting_eq_map (group : SettingGroup) (text : List Char)
    : setting? group text
      = (after? group.mark text).map fun rest => .setting group (keyOf rest) (valueOf? rest) := by
  unfold setting?
  refine Option.map_congr (fun rest _ => ?_)
  have gap : ∀ c ∈ rest.takeWhile (fun c => c == ' ' || c == '\t'),
      (c != '=') = true ∧ Text.isBlank c = true := by
    intro c member
    have space := List.mem_takeWhile_imp member
    simp only [Bool.or_eq_true, beq_iff_eq] at space
    rcases space with rfl | rfl <;> decide
  have split := List.takeWhile_append_dropWhile (p := fun c => c == ' ' || c == '\t') (l := rest)
  generalize rest.takeWhile (fun c => c == ' ' || c == '\t') = skipped at gap split
  generalize rest.dropWhile (fun c => c == ' ' || c == '\t') = body at split
  subst split
  have unequal : ∀ c ∈ skipped, (c != '=') = true := fun c member => (gap c member).1
  have blank : ∀ c ∈ (String.ofList skipped).toList, Text.isBlank c = true := by
    simpa using fun c member => (gap c member).2
  cases sign : body.dropWhile (· != '=') <;>
    simp only [keyOf, valueOf?, List.takeWhile_append_of_pos unequal,
      List.dropWhile_append_of_pos unequal, sign, String.ofList_append,
      Text.trim_append_left blank]

/-- What follows the mark of a setting: a key, and behind the first equals sign a value. -/
def IsSetting (rest key : String) : Option String → Prop
  | none => '=' ∉ rest.toList ∧ key = Text.trim rest
  | some value =>
      ∃ front back,
        rest = front ++ "=" ++ back
        ∧ '=' ∉ front.toList
        ∧ key = Text.trim front
        ∧ value = Text.trim back

theorem isSetting_iff (rest : List Char) (key : String) (value : Option String)
    : IsSetting (String.ofList rest) key value ↔ keyOf rest = key ∧ valueOf? rest = value := by
  cases sign : rest.dropWhile (· != '=') with
  | nil =>
      have free : '=' ∉ rest := by
        intro member
        have other := List.dropWhile_eq_nil_iff.mp sign '=' member
        simp at other
      have whole := List.takeWhile_append_dropWhile (p := (· != '=')) (l := rest)
      rw [sign, List.append_nil] at whole
      cases value with
      | none => simp [IsSetting, keyOf, valueOf?, sign, whole, free, eq_comm]
      | some value =>
          simp only [IsSetting, valueOf?, sign, reduceCtorEq, and_false, iff_false]
          intro parts
          obtain ⟨front, back, same, -⟩ := parts
          apply free
          rw [← String.toList_ofList (l := rest), same]
          simp
  | cons c back =>
      have first : c = '=' := by
        have stops := List.head_dropWhile_not (· != '=') (l := rest) (by simp [sign])
        simpa [sign] using stops
      subst first
      obtain ⟨shape, free⟩ := split_at_first.mp ⟨rfl, sign⟩
      cases value with
      | none =>
          simp only [IsSetting, valueOf?, sign, reduceCtorEq, and_false, iff_false]
          intro parts
          apply parts.1
          rw [String.toList_ofList, shape]
          simp
      | some value =>
          simp only [IsSetting, keyOf, valueOf?, sign, Option.some.injEq]
          constructor
          · intro parts
            obtain ⟨before, behind, same, absent, rfl, rfl⟩ := parts
            have again : rest = before.toList ++ '=' :: behind.toList := by
              rw [← String.toList_ofList (l := rest), same]
              simp
            obtain ⟨front, rear⟩ := split_at_first.mpr ⟨again, absent⟩
            rw [sign] at rear
            cases rear
            simp [front]
          · intro parts
            obtain ⟨rfl, rfl⟩ := parts
            refine ⟨String.ofList (rest.takeWhile (· != '=')), String.ofList back, ?_, ?_, rfl, rfl⟩
            · rw [← String.toList_inj]
              simpa using shape
            · simpa using free

/-- Whatever follows a mark has a key and perhaps a value. -/
theorem exists_isSetting (rest : String) : ∃ key value, IsSetting rest key value := by
  have parts := (isSetting_iff rest.toList _ _).mpr ⟨rfl, rfl⟩
  rw [String.ofList_toList] at parts
  exact ⟨_, _, parts⟩

/-- A setting is its mark, a key up to the first equals sign, and a value behind that sign. -/
theorem parse_eq_setting_iff (text : String) (group : SettingGroup) (key : String)
    (value : Option String)
    : parse text = .setting group key value
      ↔ ∃ rest, text = group.mark ++ rest ∧ IsSetting rest key value := by
  rw [parse_eq_iff_ruleFor rfl]
  simp only [ruleFor, setting_eq_map, Option.map_eq_some_iff, after_toList_eq_some,
    Directive.setting.injEq, true_and, ← isSetting_iff]
  constructor
  · intro read
    obtain ⟨rest, shape, parts⟩ := read
    exact ⟨String.ofList rest, shape, parts⟩
  · intro form
    obtain ⟨rest, shape, parts⟩ := form
    exact ⟨rest.toList, by simpa using shape, by simpa using parts⟩

/-- The tag for a direct call stands alone. -/
theorem parse_eq_direct_iff (text : String) : parse text = .direct ↔ text = "[DIRECT]" := by
  rw [parse_eq_iff_ruleFor rfl]
  simp only [ruleFor, direct?, Option.bind_eq_some_iff, after_toList_eq_some]
  constructor
  · intro read
    obtain ⟨rest, rfl, same⟩ := read
    split at same
    · rename_i ends
      subst ends
      rfl
    · cases same
  · intro form
    exact ⟨[], by simp [form], rfl⟩

/-- A routing tag is the name of a script in its brackets. The name has no closing bracket. -/
theorem parse_eq_script_iff (text name : String)
    : parse text = .script name
      ↔ text = "[SCRIPT:" ++ name ++ "]" ∧ name ≠ "" ∧ ']' ∉ name.toList := by
  rw [parse_eq_iff_ruleFor rfl]
  simp only [ruleFor, script?, Option.bind_eq_some_iff, after_toList_eq_some]
  constructor
  · intro read
    obtain ⟨rest, rfl, same⟩ := read
    split at same
    · rename_i closed
      cases same
      obtain ⟨shape, free⟩ := split_at_first.mp ⟨rfl, closed.2⟩
      refine ⟨?_, ?_, ?_⟩
      · rw [← String.toList_inj]
        simpa using shape
      · simpa [← String.toList_inj] using closed.1
      · simpa using free
    · cases same
  · intro form
    obtain ⟨rfl, named, free⟩ := form
    obtain ⟨inside, closing⟩ := split_at_first.mpr (⟨rfl, free⟩ : _ = _ ++ ']' :: [] ∧ _)
    refine ⟨name.toList ++ [']'], by simp [← String.toList_inj, String.toList_append], ?_⟩
    rw [inside, closing]
    simp [named]

theorem tag_eq_some_iff (text : List Char) (directive : Directive)
    : tag? text = some directive
      ↔ text.head? = some '[' ∧ directive = .tag (String.ofList text) := by
  simp only [tag?, Option.map_eq_some_iff, after_eq_some, List.head?_eq_some_iff]
  constructor
  · intro read
    obtain ⟨rest, shape, rfl⟩ := read
    exact ⟨⟨rest, shape⟩, rfl⟩
  · intro form
    obtain ⟨⟨rest, shape⟩, rfl⟩ := form
    exact ⟨rest, shape, rfl⟩

/-- A comment is ordinary exactly if it does not begin with an opening bracket. -/
theorem parse_eq_text_iff (text : String)
    : parse text = .text ↔ text.toList.head? ≠ some '[' := by
  rw [parse_eq_findSome]
  cases found : rules.findSome? fun rule => rule text.toList with
  | none =>
      have unread := List.findSome?_eq_none_iff.mp found tag? (by simp [rules])
      refine ⟨?_, fun _ => rfl⟩
      intro _ bracket
      rw [(tag_eq_some_iff _ _).mpr ⟨bracket, rfl⟩] at unread
      cases unread
  | some directive =>
      obtain ⟨rule, listed, read⟩ := List.exists_of_findSome?_eq_some found
      obtain ⟨bracket, other, -⟩ := of_mem_rules listed read
      simp [bracket, other]

/-- The forms of the directives that are no remarks. -/
def HasSpecialForm (text : String) : Prop :=
  (∃ rest, text = "[LUA]" ++ rest)
  ∨ (∃ group rest, text = SettingGroup.mark group ++ rest)
  ∨ text = "[DIRECT]"
  ∨ ∃ name, text = "[SCRIPT:" ++ name ++ "]" ∧ name ≠ "" ∧ ']' ∉ name.toList

theorem hasSpecialForm_iff (text : String)
    : HasSpecialForm text ↔ (parse text).isRemark = false := by
  constructor
  · intro form
    rcases form with ⟨rest, shape⟩ | ⟨group, rest, shape⟩ | shape | ⟨name, shape⟩
    · by_cases spaced : rest.toList.head? = some ' '
      · obtain ⟨code, same⟩ := List.head?_eq_some_iff.mp spaced
        have read : parse text = .lua (String.ofList code) := by
          refine (parse_eq_lua_iff _ _).mpr (Or.inl ?_)
          rw [shape, ← String.toList_inj]
          simp [same]
        rw [read]
        rfl
      · rw [(parse_eq_lua_iff text rest).mpr (Or.inr ⟨shape, spaced⟩)]
        rfl
    · have marked : after? group.mark text.toList = some rest.toList := by
        simpa [after_toList_eq_some] using shape
      obtain ⟨_, -, same⟩ := Option.map_eq_some_iff.mp (parse_of_marked marked)
      rw [← same]
      rfl
    · rw [(parse_eq_direct_iff text).mpr shape]
      rfl
    · rw [(parse_eq_script_iff text name).mpr shape]
      rfl
  · intro special
    cases read : parse text with
    | lua code =>
        rcases (parse_eq_lua_iff text code).mp read with shape | ⟨shape, -⟩
        · refine Or.inl ⟨" " ++ code, ?_⟩
          rw [shape, ← String.toList_inj]
          simp
        · exact Or.inl ⟨code, shape⟩
    | setting group key value =>
        obtain ⟨rest, shape, -⟩ := (parse_eq_setting_iff text group key value).mp read
        exact Or.inr (Or.inl ⟨group, rest, shape⟩)
    | direct => exact Or.inr (Or.inr (Or.inl ((parse_eq_direct_iff text).mp read)))
    | script name => exact Or.inr (Or.inr (Or.inr ⟨name, (parse_eq_script_iff text name).mp read⟩))
    | tag shown => simp [read, isRemark] at special
    | text => simp [read, isRemark] at special

/-- Every other text that begins with an opening bracket is a bracketed remark. -/
theorem parse_eq_tag_iff (text shown : String)
    : parse text = .tag shown
      ↔ shown = text ∧ text.toList.head? = some '[' ∧ ¬ HasSpecialForm text := by
  constructor
  · intro read
    obtain ⟨bracket, same⟩ := (tag_eq_some_iff _ _).mp (ruleFor_of_parse read)
    refine ⟨by simpa using same, bracket, ?_⟩
    simp [hasSpecialForm_iff, read, isRemark]
  · intro form
    obtain ⟨rfl, bracket, ordinary⟩ := form
    rw [hasSpecialForm_iff] at ordinary
    cases read : parse shown with
    | text => exact ((parse_eq_text_iff shown).mp read bracket).elim
    | tag other =>
        obtain ⟨-, same⟩ := (tag_eq_some_iff _ _).mp (ruleFor_of_parse read)
        simpa using same
    | _ => simp [read, isRemark] at ordinary

end Directive

end TileLua
