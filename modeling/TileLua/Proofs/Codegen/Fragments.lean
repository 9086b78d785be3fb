import TileLua.Proofs.Codegen.Visit
import TileLua.Proofs.Lua.CommentLexing
import TileLua.Proofs.Variable.Names

/-! What generated code is made of, and the names in it.
Generated code is put together from text of the compiler's own and from what scripts give: their
variables, events, literals, numbers, comments and code. The text of the compiler's own refers to
names that begin with two underscores, and to a few that do not. No name runs from one piece into
the next.
-/

namespace TileLua

-----------------------------------------------------------------------------------------
-- The names in a text
-----------------------------------------------------------------------------------------

namespace Lua

/-- What the characters at a place of a text belong to. A comment starts with two dashes, and a long
one has two brackets after them.
-/
inductive Region
  | code
  | dash
  | dashes
  | bracket
  | line
  | long
  | closing
  | literal
  | escape
  deriving DecidableEq, Inhabited, Repr

namespace Region

/-- What comes after a character of a region. -/
def next (c : Char) : Region → Region
  | code => if c = '"' then literal else if c = '-' then dash else code
  | dash => if c = '-' then dashes else if c = '"' then literal else code
  | dashes => if c = '[' then bracket else if c = '\n' then code else line
  | bracket => if c = '[' then long else if c = '\n' then code else line
  | line => if c = '\n' then code else line
  | long => if c = ']' then closing else long
  | closing => if c = ']' then code else long
  | literal => if c = '\\' then escape else if c = '"' then code else literal
  | escape => literal

/-- Whether a name can stand there. -/
def isCode : Region → Bool
  | code | dash => true
  | _ => false

end Region

/-- The words of code in a text, each with the character before it, after a word that has begun. -/
def wordsFrom : Region → (before : Char) → (word : List Char) → List Char → List (Char × List Char)
  | _, before, word, [] => [(before, word)]
  | region, before, word, c :: rest =>
      if region.isCode && isNameChar c then wordsFrom .code before (word ++ [c]) rest
      else (before, word) :: wordsFrom (region.next c) c [] rest

/-- The words of code that are neither fields nor methods. -/
def freeWords (text : List Char) : List (List Char) :=
  (wordsFrom .code ' ' [] text).filterMap fun (before, word) =>
    if before = '.' ∨ before = ':' then none else some word

/-- Whether a name can go on after a text. -/
def endsInName (text : List Char) : Bool :=
  text.getLast?.any isNameChar

/-- Whether a name can go on in a text. -/
def startsInName (text : List Char) : Bool :=
  text.head?.any isNameChar

theorem endsInName_append {left right : List Char} (nonempty : right ≠ [])
    : endsInName (left ++ right) = endsInName right := by
  simp only [endsInName, List.getLast?_append, List.getLast?_eq_some_getLast nonempty,
    Option.some_or]

theorem endsInName_append_eq_false {left right : List Char} (first : endsInName left = false)
    (second : endsInName right = false)
    : endsInName (left ++ right) = false := by
  by_cases empty : right = []
  · rwa [empty, List.append_nil]
  · rwa [endsInName_append empty]

end Lua

namespace Codegen

-----------------------------------------------------------------------------------------
-- The compiler's own names
-----------------------------------------------------------------------------------------

/-- The names without a reserved lead that text of the compiler's own refers to: parameters of
functions, variables of loops, and what the library of Lua provides.
-/
def plainNames : List String :=
  ["event", "evname", "_G", "pairs", "type", "name", "fn", "varname", "value", "_"]

/-- Whether a name begins with two underscores and not with three. -/
def isReserved : List Char → Bool
  | '_' :: '_' :: c :: _ => c != '_'
  | _ => false

/-- Whether text of the compiler's own may refer to a name. -/
def isOwnName (name : List Char) : Bool :=
  isReserved name || plainNames.contains (String.ofList name)

/-- Whether a word is no name, or one of the compiler's own. -/
def isOwnWord (word : List Char) : Bool :=
  isOwnName word || !Lua.isIdentifier (String.ofList word)

/-- Whether a text refers to no names but the compiler's own. -/
def isOwnText (text : List Char) : Bool :=
  (Lua.freeWords text).all isOwnWord

/-- An own text after which a name can begin. -/
def isLead (text : List Char) : Bool :=
  isOwnText text && !Lua.endsInName text

/-- An own text before which a name can end. -/
def isTrail (text : List Char) : Bool :=
  isOwnText text && !Lua.startsInName text

/-- An own text that keeps names apart. -/
def isJoint (text : List Char) : Bool :=
  isTrail text && !Lua.endsInName text && !text.isEmpty

-----------------------------------------------------------------------------------------
-- Composed texts
-----------------------------------------------------------------------------------------

/-- What generated code is made from: the scripts of a game, and the locals that have a function to
set them.
-/
structure Origin where
  scripts : List Script
  locals : List String

/-- A command of the scripts makes the visit. -/
def Origin.Has (origin : Origin) (visit : Visit) : Prop :=
  ∃ source ∈ origin.scripts, ∃ body ∈ source.blocks, ∃ command ∈ body, visit ∈ command.visits

/-- The scripts read or write a variable. -/
def Origin.Uses (origin : Origin) (name : String) : Prop :=
  origin.Has (.read name) ∨ origin.Has (.write name)

/-- No variable has a text that begins with just two underscores. -/
theorem isReserved_luaText (name : String) : isReserved (Variable.luaText name).toList = false := by
  rw [Bool.eq_false_iff]
  intro reserved
  unfold isReserved at reserved
  split at reserved
  · rename_i c rest letters
    have lead : Text.startsWith (Variable.luaText name) Variable.reservedLead = true := by
      simp [Text.startsWith, Variable.reservedLead, letters]
    have third := Variable.startsWith_luaText lead
    have same : '_' = c := by simpa [Text.startsWith, letters] using third
    simp [← same] at reserved
  · cases reserved

/-- What stands around a text in a long comment of the compiler's own. -/
def bracketForms : List (String × String) :=
  [(" --[[(", ")]]"), ("nil --[[unknown expression code '", "']]")]

/-- A text of pieces that do not run together. A double that is not finite is written as a name; no
export has one.
-/
inductive Composed (origin : Origin) : String → Prop
  | own {text : List Char} (known : isOwnText text = true := by decide)
    : Composed origin (String.ofList text)
  /-- A name that is made up, such as that of a route. -/
  | made {name : String} (identifier : Lua.isIdentifier name = true)
    (reserved : isReserved name.toList = true)
    : Composed origin name
  /-- The parameter of the function that sets a local. -/
  | parameter {name : String} (declared : name ∈ origin.locals) : Composed origin ("__" ++ name)
  /-- A variable of the scripts. -/
  | variable {name : String} (used : origin.Uses name)
    (counted : Variable.isVerbatim name = false)
    (plain : Lua.isIdentifier (Variable.luaText name) = true)
    : Composed origin (Variable.luaText name)
  /-- A path or an engine setting that the scripts use as it is. -/
  | verbatim {name : String} (used : origin.Uses name) (asIs : Variable.isVerbatim name = true)
    : Composed origin name
  | field {name : String} (identifier : Lua.isIdentifier name = true)
    : Composed origin ("." ++ name)
  | literal (content : String) : Composed origin (Lua.quote content)
  | integer (value : Int) : Composed origin (toString value)
  | float (value : Float) : Composed origin (numberLayout.render value)
  | comment {text : String} (closed : Lua.IsComment (· == '\n') text) : Composed origin text
  /-- A name or a tag in a long comment, which it can end early. -/
  | bracketed {lead trail : String} (form : (lead, trail) ∈ bracketForms) (content : String)
    : Composed origin (lead ++ Lua.loosen content ++ trail)
  /-- The name of a script, in the line of a comment that it can leave. -/
  | banner {source : Script} (member : source ∈ origin.scripts) : Composed origin source.name
  /-- A routing tag, which can stand outside a comment. -/
  | tag {source : Script} (member : source ∈ origin.scripts) {given name : String}
    (listed : given ∈ source.comments) (read : Directive.parse (Text.trim given) = .script name)
    : Composed origin (Text.trim given)
  /-- Code that a script brings along. -/
  | code {source : Script} (member : source ∈ origin.scripts) {given code : String}
    (listed : given ∈ source.comments) (read : Directive.parse (Text.trim given) = .lua code)
    : Composed origin code
  | append {left right : String} (first : Composed origin left) (second : Composed origin right)
    (apart : Lua.endsInName left.toList = false ∨ Lua.startsInName right.toList = false)
    : Composed origin (left ++ right)

/-- A composed text that anything can follow. -/
structure Closed (origin : Origin) (text : String) : Prop where
  composed : Composed origin text
  complete : Lua.endsInName text.toList = false

section

variable {origin : Origin} {left right : String} {letters : List Char}

theorem Composed.lead (text : Composed origin right)
    (own : isLead letters = true := by decide)
    : Composed origin (String.ofList letters ++ right) := by
  simp only [isLead, Bool.and_eq_true, Bool.not_eq_eq_eq_not, Bool.not_true] at own
  refine .append (.own own.1) text (Or.inl ?_)
  rw [String.toList_ofList]
  exact own.2

theorem Composed.trail (text : Composed origin left)
    (own : isTrail letters = true := by decide)
    : Composed origin (left ++ String.ofList letters) := by
  simp only [isTrail, Bool.and_eq_true, Bool.not_eq_eq_eq_not, Bool.not_true] at own
  refine .append text (.own own.1) (Or.inr ?_)
  rw [String.toList_ofList]
  exact own.2

/-- A text is closed by an own text that keeps names apart. -/
theorem Composed.joint (text : Composed origin left)
    (own : isJoint letters = true := by decide)
    : Closed origin (left ++ String.ofList letters) := by
  simp only [isJoint, Bool.and_eq_true, Bool.not_eq_eq_eq_not, Bool.not_true,
    List.isEmpty_eq_false_iff] at own
  obtain ⟨⟨trail, complete⟩, nonempty⟩ := own
  refine ⟨text.trail trail, ?_⟩
  rw [String.toList_append, String.toList_ofList, Lua.endsInName_append nonempty]
  exact complete

namespace Closed

theorem own (own : isLead letters = true := by decide)
    : Closed origin (String.ofList letters) := by
  simp only [isLead, Bool.and_eq_true, Bool.not_eq_eq_eq_not, Bool.not_true] at own
  refine ⟨.own own.1, ?_⟩
  rw [String.toList_ofList]
  exact own.2

theorem before (text : Closed origin left) (rest : Composed origin right)
    : Composed origin (left ++ right) :=
  .append text.composed rest (Or.inl text.complete)

theorem append (text : Closed origin left) (rest : Closed origin right)
    : Closed origin (left ++ right) where
  composed := text.before rest.composed
  complete := by
    rw [String.toList_append]
    exact Lua.endsInName_append_eq_false text.complete rest.complete

/-- Closed texts one after the other are closed, by induction over them. -/
theorem join {texts : List String} (closed : ∀ text ∈ texts, Closed origin text)
    : Closed origin (String.join texts) := by
  induction texts with
  | nil => exact own
  | cons first rest ih =>
      rw [String.join_cons]
      obtain ⟨head, tail⟩ := List.forall_mem_cons.mp closed
      exact head.append (ih tail)

end Closed

/-- Texts with an own text between them are composed, by induction over them. -/
theorem Composed.intercalate {texts : List String} (composed : ∀ text ∈ texts, Composed origin text)
    (own : isJoint letters = true := by decide)
    : Composed origin ((String.ofList letters).intercalate texts) := by
  induction texts with
  | nil => exact .own
  | cons first rest ih =>
      obtain ⟨head, tail⟩ := List.forall_mem_cons.mp composed
      cases rest with
      | nil => rwa [String.intercalate_singleton]
      | cons second others =>
          rw [String.intercalate_cons_cons]
          exact (head.joint own).before (ih tail)

end

end Codegen

end TileLua
