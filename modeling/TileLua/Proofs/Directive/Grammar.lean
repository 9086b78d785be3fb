import TileLua.Proofs.Directive.Forms
import TileLua.Proofs.Directive.ParsingExpressions

/-! The grammar of directives.
The rules for directives are written as parsing expressions here. What a comment means is taken
from the tree that the grammar leaves, and a comment that the grammar does not read is ordinary.
Each rule of the grammar reads the same texts as the rule that is applied to comments, and leaves a
tree with the same meaning; a text that a rule gives up in the middle goes to the next rule.
-/

namespace TileLua.Directive

open Peg
open Text (after? after_eq_some)

-----------------------------------------------------------------------------------------
-- The rules
-----------------------------------------------------------------------------------------

namespace Grammar

/-- The names of the rules. -/
inductive Rule
  | directive
  | lua
  | pdxInfo
  | ptl
  | setting
  | key
  | value
  | directTag
  | scriptTag
  | scriptName
  | bracketTag
  | rest
  | endOfInput
  deriving DecidableEq, Repr

def rest : Peg Rule :=
  .rule .rest (.star .any)

def endOfInput : Peg Rule :=
  .rule .endOfInput .endOfInput

def lua : Peg Rule :=
  .rule .lua (.seq (.literal "[LUA]") (.seq (.optional (.literal " ")) rest))

def blank : Peg Rule :=
  .choice (.literal " ") (.literal "\t")

def key : Peg Rule :=
  .rule .key (.star (.seq (.notAhead (.literal "=")) .any))

def value : Peg Rule :=
  .rule .value (.star .any)

def setting : Peg Rule :=
  .rule .setting (.seq (.star blank) (.seq key (.optional (.seq (.literal "=") value))))

/-- The settings of a group: their mark and what is set. -/
def settings (name : Rule) (group : SettingGroup) : Peg Rule :=
  .rule name (.seq (.literal group.mark) setting)

def directTag : Peg Rule :=
  .rule .directTag (.seq (.literal "[DIRECT]") endOfInput)

def scriptName : Peg Rule :=
  .rule .scriptName (.plus (.seq (.notAhead (.literal "]")) .any))

def scriptTag : Peg Rule :=
  .rule .scriptTag
    (.seq (.literal "[SCRIPT:") (.seq scriptName (.seq (.literal "]") endOfInput)))

def bracketTag : Peg Rule :=
  .rule .bracketTag (.seq (.literal "[") rest)

def directive : Peg Rule :=
  .rule .directive
    (.choice lua
      (.choice (settings .pdxInfo .pdxInfo)
        (.choice (settings .ptl .ptl) (.choice directTag (.choice scriptTag bracketTag)))))

end Grammar

-----------------------------------------------------------------------------------------
-- The meaning of a tree
-----------------------------------------------------------------------------------------

/-- The text of the first tree. -/
def firstText : List (ParseTree Grammar.Rule) → String
  | .node _ span _ :: _ => String.ofList span
  | [] => ""

/-- The key and the value that the parts of a setting give; a later part counts. -/
def settingParts (key : String) (value : Option String)
    : List (ParseTree Grammar.Rule) → String × Option String
  | [] => (key, value)
  | .node .key span _ :: rest => settingParts (Text.trim (String.ofList span)) value rest
  | .node .value span _ :: rest => settingParts key (some (Text.trim (String.ofList span))) rest
  | _ :: rest => settingParts key value rest

/-- The setting that the first tree gives. -/
def settingOf (group : SettingGroup) : List (ParseTree Grammar.Rule) → Directive
  | .node _ _ parts :: _ =>
      let (key, value) := settingParts "" none parts
      .setting group key value
  | [] => .setting group "" none

/-- The meaning of the first tree. -/
def ofTrees : List (ParseTree Grammar.Rule) → Directive
  | .node .lua _ inner :: _ => .lua (firstText inner)
  | .node .pdxInfo _ inner :: _ => settingOf .pdxInfo inner
  | .node .ptl _ inner :: _ => settingOf .ptl inner
  | .node .directTag _ _ :: _ => .direct
  | .node .scriptTag _ inner :: _ => .script (firstText inner)
  | .node .bracketTag span _ :: _ => .tag (String.ofList span)
  | _ => .text

/-- The meaning of a comment that the grammar reads, or does not read. -/
def ofOutcome : Outcome Grammar.Rule → Directive
  | some (.node _ _ inner :: _, _) => ofTrees inner
  | _ => .text

/-- What a comment means by the grammar. -/
def Yields (text : String) (directive : Directive) : Prop :=
  ∃ outcome, Reads Grammar.directive text.toList outcome ∧ ofOutcome outcome = directive

-----------------------------------------------------------------------------------------
-- The rules agree
-----------------------------------------------------------------------------------------

/-- A rule of the grammar reads the same texts, with the same meaning. -/
def Agrees (rule : Peg Grammar.Rule) (read : List Char → Option Directive) : Prop :=
  ∀ text, ∃ outcome,
    Reads rule text outcome ∧ outcome.map (fun reading => ofTrees reading.1) = read text

/-- Ordered choice: the second rule applies where the first fails. -/
theorem Agrees.choice {first second : Peg Grammar.Rule}
    {read otherwise : List Char → Option Directive} (one : Agrees first read)
    (other : Agrees second otherwise)
    : Agrees (.choice first second) (fun text => read text <|> otherwise text) := by
  intro text
  obtain ⟨outcome, reads, meant⟩ := one text
  cases outcome with
  | some reading =>
      refine ⟨some reading, .choice reads, ?_⟩
      simp [← meant]
  | none =>
      obtain ⟨outcome, readsSecond, meantSecond⟩ := other text
      refine ⟨outcome, .choice_second reads readsSecond, ?_⟩
      simp [← meant, meantSecond]

/-- A literal reads its own text, and fails where the text does not begin so. -/
theorem reads_literal (lead : String) (text : List Char)
    : Reads (.literal lead : Peg Grammar.Rule) text
        ((after? lead text).map fun rest => ([], rest)) := by
  cases begins : after? lead text with
  | some rest => exact .literal (after_eq_some.mp begins)
  | none =>
      refine .literal_fails ?_
      intro leading
      obtain ⟨rest, shape⟩ := leading
      rw [after_eq_some.mpr shape.symm] at begins
      cases begins

/-- A rule that begins with a word and reads the whole text. -/
theorem agrees_of_lead {name : Grammar.Rule} {lead : String} {body : Peg Grammar.Rule}
    {read continued : List Char → Option Directive}
    (begins : ∀ text, read text = (after? lead text).bind continued)
    (continues
      : ∀ rest, ∃ inner : Option (List (ParseTree Grammar.Rule)),
          Reads body rest (inner.map fun trees => (trees, []))
          ∧ inner.map (fun trees => ofTrees [.node name (lead.toList ++ rest) trees])
            = continued rest)
    : Agrees (.rule name (.seq (.literal lead) body)) read := by
  intro text
  have leading := reads_literal lead text
  rw [begins]
  cases found : after? lead text with
  | none =>
      rw [found] at leading
      exact ⟨none, .rule_fails (.seq_fails leading), rfl⟩
  | some rest =>
      rw [found] at leading
      obtain ⟨inner, reads, meant⟩ := continues rest
      rw [Option.bind_some, ← meant]
      cases inner with
      | none => exact ⟨none, .rule_fails (.seq_fails_later leading reads), rfl⟩
      | some trees =>
          refine ⟨_, .rule (.seq leading reads) (List.append_nil text).symm, ?_⟩
          rw [after_eq_some.mp found]
          rfl

/-- A rule for all that is left. -/
theorem reads_all (name : Grammar.Rule) (text : List Char)
    : Reads (.rule name (.star .any)) text (some ([.node name text []], [])) := by
  have reads : Reads (.star .any : Peg Grammar.Rule) text _ := readsOne_any.star text
  rw [List.dropWhile_eq_nil_iff.mpr (by simp)] at reads
  exact .rule reads (List.append_nil text).symm

theorem readsOne_space : ReadsOne (· == ' ') (.literal " " : Peg Grammar.Rule) :=
  readsOne_literal " " ' ' rfl

theorem readsOne_blank : ReadsOne (fun c => c == ' ' || c == '\t') Grammar.blank :=
  readsOne_space.choice (readsOne_literal "\t" '\t' rfl)

theorem readsOne_until (word : String) (letter : Char) (single : word.toList = [letter])
    : ReadsOne (· != letter) (.seq (.notAhead (.literal word)) .any : Peg Grammar.Rule) :=
  (readsOne_literal word letter single).excluded

/-- A letter that ends a run: what is left behind the run is nothing, or begins with it. -/
theorem reads_ending (word : String) (letter : Char) (single : word.toList = [letter])
    (text : List Char)
    : text.dropWhile (· != letter) = [] ∧ Reads (.literal word : Peg Grammar.Rule) [] none
      ∨ ∃ others,
          text.dropWhile (· != letter) = letter :: others
          ∧ Reads (.literal word : Peg Grammar.Rule) (letter :: others) (some ([], others)) := by
  have one : ReadsOne (· == letter) (.literal word : Peg Grammar.Rule) :=
    readsOne_literal word letter single
  cases left : text.dropWhile (· != letter) with
  | nil => exact Or.inl ⟨rfl, one.atEnd⟩
  | cons c others =>
      have stops := List.head_dropWhile_not (· != letter) (l := text) (by simp [left])
      have first : c = letter := by simpa [left] using stops
      subst first
      exact Or.inr ⟨others, rfl, one.inside others (by simp)⟩

theorem agrees_lua : Agrees Grammar.lua lua? := by
  refine agrees_of_lead (fun text => Option.map_eq_bind) ?_
  intro rest
  cases rest with
  | nil =>
      have skips := readsOne_space.atEnd.optional_skips
      exact ⟨some [.node .rest [] []], skips.seq (reads_all .rest []), rfl⟩
  | cons c others =>
      cases spaced : c == ' ' with
      | true =>
          have reads := (readsOne_space.inside others spaced).optional
          have same : c = ' ' := by simpa using spaced
          subst same
          exact ⟨some [.node .rest others []], reads.seq (reads_all .rest others), by rfl⟩
      | false =>
          have skips := (readsOne_space.outside others spaced).optional_skips
          refine ⟨some [.node .rest (c :: others) []], skips.seq (reads_all .rest _), ?_⟩
          have differs : c ≠ ' ' := by simpa using spaced
          simp [ofTrees, firstText, differs]

theorem agrees_settings (name : Grammar.Rule) (group : SettingGroup)
    (meaning : ∀ span inner, ofTrees [.node name span inner] = settingOf group inner)
    : Agrees (Grammar.settings name group) (setting? group) := by
  refine agrees_of_lead (fun text => Option.map_eq_bind) ?_
  intro rest
  have blanks := readsOne_blank.star rest
  generalize shape : rest.dropWhile (fun c => c == ' ' || c == '\t') = body at blanks
  have key : Reads Grammar.key body
      (some ([.node .key (body.takeWhile (· != '=')) []], body.dropWhile (· != '='))) :=
    .rule ((readsOne_until "=" '=' rfl).star body) List.takeWhile_append_dropWhile.symm
  rcases reads_ending "=" '=' rfl body with
    ⟨left, fails⟩ | ⟨others, left, sign⟩
  · rw [left] at key
    have whole : Reads Grammar.setting rest
        (some ([.node .setting rest [.node .key (body.takeWhile (· != '=')) []]], [])) :=
      .rule (blanks.seq (key.seq fails.seq_fails.optional_skips)) (List.append_nil rest).symm
    refine ⟨some _, whole, ?_⟩
    simp [meaning, settingOf, settingParts, shape, left]
  · rw [left] at key
    have whole : Reads Grammar.setting rest
        (some ([.node .setting rest
          [.node .key (body.takeWhile (· != '=')) [], .node .value others []]], [])) :=
      .rule (blanks.seq (key.seq (sign.seq (reads_all .value others)).optional))
        (List.append_nil rest).symm
    refine ⟨some _, whole, ?_⟩
    simp [meaning, settingOf, settingParts, shape, left]

theorem agrees_directTag : Agrees Grammar.directTag direct? := by
  refine agrees_of_lead (fun text => rfl) ?_
  intro rest
  cases rest with
  | nil => exact ⟨some [.node .endOfInput [] []], .rule .endOfInput rfl, by rfl⟩
  | cons c others => exact ⟨none, .rule_fails (.endOfInput_fails c others), by simp⟩

theorem agrees_scriptTag : Agrees Grammar.scriptTag script? := by
  refine agrees_of_lead (fun text => rfl) ?_
  intro rest
  have name := (readsOne_until "]" ']' rfl).plus rest
  by_cases unnamed : rest.takeWhile (· != ']') = []
  · rw [if_pos unnamed] at name
    exact ⟨none, .seq_fails (.rule_fails name), by simp [unnamed]⟩
  · rw [if_neg unnamed] at name
    have named : Reads Grammar.scriptName rest
        (some ([.node .scriptName (rest.takeWhile (· != ']')) []], rest.dropWhile (· != ']'))) :=
      .rule name List.takeWhile_append_dropWhile.symm
    rcases reads_ending "]" ']' rfl rest with
      ⟨left, fails⟩ | ⟨others, left, closes⟩
    · rw [left] at named
      exact ⟨none, .seq_fails_later named fails.seq_fails, by simp [left]⟩
    · rw [left] at named
      cases others with
      | nil =>
          have ends : Reads Grammar.endOfInput [] (some ([.node .endOfInput [] []], [])) :=
            .rule .endOfInput rfl
          refine ⟨some _, named.seq (closes.seq ends), ?_⟩
          simp [ofTrees, firstText, unnamed, left]
      | cons d more =>
          -- The name is closed but does not end the text, and the whole tag is given up.
          have goesOn : Reads Grammar.endOfInput (d :: more) none :=
            .rule_fails (.endOfInput_fails d more)
          exact ⟨none, .seq_fails_later named (.seq_fails_later closes goesOn), by simp [left]⟩

theorem agrees_bracketTag : Agrees Grammar.bracketTag tag? := by
  have begins (text : List Char)
      : tag? text
        = (after? "[" text).bind fun rest => some (.tag (String.ofList ("[".toList ++ rest))) := by
    cases found : after? "[" text with
    | none => simp [tag?, found]
    | some rest =>
        simp only [tag?, found, Option.map_some, Option.bind_some]
        rw [← after_eq_some.mp found]
  refine agrees_of_lead begins ?_
  intro rest
  exact ⟨some [.node .rest rest []], reads_all .rest rest, rfl⟩

/-- The grammar gives every comment the meaning that the rules give. -/
theorem yields_parse (text : String) : Yields text (parse text) := by
  have pdxInfo := agrees_settings .pdxInfo .pdxInfo (fun _ _ => rfl)
  have ptl := agrees_settings .ptl .ptl (fun _ _ => rfl)
  have tags := agrees_directTag.choice (agrees_scriptTag.choice agrees_bracketTag)
  obtain ⟨outcome, reads, meant⟩ := agrees_lua.choice (pdxInfo.choice (ptl.choice tags)) text.toList
  have meaning : parse text = (outcome.map fun reading => ofTrees reading.1).getD .text := by
    rw [meant]
    rfl
  rw [meaning]
  cases outcome with
  | none => exact ⟨none, .rule_fails reads, rfl⟩
  | some reading =>
      obtain ⟨span, spans⟩ := reads.isSuffix reading rfl
      exact ⟨some ([.node .directive span reading.1], reading.2), .rule reads spans.symm, rfl⟩

/-- The meaning that the grammar gives is unique, because its reading is. -/
theorem yields_iff (text : String) (directive : Directive)
    : Yields text directive ↔ parse text = directive := by
  obtain ⟨outcome, reads, meant⟩ := yields_parse text
  constructor
  · intro given
    obtain ⟨other, readsAgain, rfl⟩ := given
    rw [← meant, reads.unique readsAgain]
  · intro same
    exact ⟨outcome, reads, meant.trans same⟩

/-- What is written with a key and a value is read back, also if the value has equals signs. -/
theorem parse_of_setting {key value : String} (group : SettingGroup)
    (trimmedKey : Text.trim key = key) (plain : '=' ∉ key.toList)
    (trimmedValue : Text.trim value = value)
    : parse (group.mark ++ " " ++ key ++ " = " ++ value) = .setting group key (some value) := by
  have blank : ∀ c ∈ " ".toList, Text.isBlank c = true := by
    have space : Text.isBlank ' ' = true := by decide
    simpa using space
  have front : Text.trim (" " ++ key ++ " ") = key := by
    rw [Text.trim_append_right blank, Text.trim_append_left blank, trimmedKey]
  have back : Text.trim (" " ++ value) = value := by
    rw [Text.trim_append_left blank, trimmedValue]
  refine (parse_eq_setting_iff _ _ _ _).mpr ⟨" " ++ key ++ " = " ++ value, ?_, ?_⟩
  · simp only [String.append_assoc]
  · refine ⟨" " ++ key ++ " ", " " ++ value, ?_, by simp [plain], front.symm, back.symm⟩
    rw [← String.toList_inj]
    simp

/-- The grammar reads every text in one way, and the rules give the same meaning. It is determined
by the form of the text: an ordinary comment does not begin with a bracket; Lua code, settings and
call tags have their own forms; everything else that begins with a bracket is a remark. A key and a
value that are written as a setting are read back.
-/
theorem comment_means_what_its_form_says (text : String)
    : (∀ directive, Yields text directive ↔ parse text = directive)
      ∧ (parse text = .text ↔ text.toList.head? ≠ some '[')
      ∧ (∀ code,
          parse text = .lua code
          ↔ text = "[LUA] " ++ code ∨ text = "[LUA]" ++ code ∧ code.toList.head? ≠ some ' ')
      ∧ (∀ group rest,
          text = SettingGroup.mark group ++ rest
          → ∃ key value, parse text = .setting group key value ∧ IsSetting rest key value)
      ∧ (∀ group key value,
          parse text = .setting group key value → ∃ rest, text = group.mark ++ rest)
      ∧ (parse text = .direct ↔ text = "[DIRECT]")
      ∧ (∀ name,
          parse text = .script name
          ↔ text = "[SCRIPT:" ++ name ++ "]" ∧ name ≠ "" ∧ ']' ∉ name.toList)
      ∧ (∀ shown,
          parse text = .tag shown
          ↔ shown = text ∧ text.toList.head? = some '[' ∧ ¬ HasSpecialForm text)
      ∧ ∀ group key value,
          Text.trim key = key
          → '=' ∉ key.toList
          → Text.trim value = value
          → parse (SettingGroup.mark group ++ " " ++ key ++ " = " ++ value)
            = .setting group key (some value) := by
  refine ⟨yields_iff text, parse_eq_text_iff text, parse_eq_lua_iff text, ?_, ?_,
    parse_eq_direct_iff text, parse_eq_script_iff text, parse_eq_tag_iff text, ?_⟩
  · intro group rest marked
    obtain ⟨key, value, parts⟩ := exists_isSetting rest
    exact ⟨key, value, (parse_eq_setting_iff _ _ _ _).mpr ⟨rest, marked, parts⟩, parts⟩
  · intro group key value read
    obtain ⟨rest, marked, -⟩ := (parse_eq_setting_iff _ _ _ _).mp read
    exact ⟨rest, marked⟩
  · intro group key value trimmedKey plain trimmedValue
    exact parse_of_setting group trimmedKey plain trimmedValue

/-- The value of a setting keeps equals signs and brackets. -/
theorem setting_keeps_signs_and_brackets
    : Text.trim "speed" = "speed"
      ∧ '=' ∉ "speed".toList
      ∧ Text.trim "a = [b]" = "a = [b]"
      ∧ parse "[PTL] speed = a = [b]" = .setting .ptl "speed" (some "a = [b]") := by
  obtain ⟨-, -, -, -, -, -, -, -, written⟩ :=
    comment_means_what_its_form_says "[PTL] speed = a = [b]"
  have key : Text.trim "speed" = "speed" := by decide
  have plain : '=' ∉ "speed".toList := by decide
  have value : Text.trim "a = [b]" = "a = [b]" := by decide
  exact ⟨key, plain, value, written .ptl "speed" "a = [b]" key plain value⟩

end TileLua.Directive
