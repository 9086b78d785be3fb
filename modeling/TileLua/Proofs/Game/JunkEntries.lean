import Mathlib.Data.List.Forall2
import TileLua.Proofs.Codegen.Journal
import TileLua.Proofs.Syntax.Reading

/-! Entries that are not of the kind that is expected have no effect.
A value in the script table that is no object and a value in a block that is no array are skipped,
and what comes after them is compiled as if they were not there: neither the slots of scripts nor
the positions of commands count them.
-/

namespace TileLua

open Decoding

-----------------------------------------------------------------------------------------
-- Lists and objects with something put in
-----------------------------------------------------------------------------------------

/-- A list with further items put in anywhere between those that correspond. -/
inductive Padded {α : Type} (extra : α → Prop) (related : α → α → Prop) : List α → List α → Prop
  | nil : Padded extra related [] []
  | keep {first second : α} {rest rest' : List α} (head : related first second)
    (tail : Padded extra related rest rest')
    : Padded extra related (first :: rest) (second :: rest')
  | insert {item : α} {rest rest' : List α} (junk : extra item)
    (tail : Padded extra related rest rest')
    : Padded extra related rest (item :: rest')

theorem Padded.refl {α : Type} {extra : α → Prop} {related : α → α → Prop}
    (same : ∀ item, related item item) (items : List α)
    : Padded extra related items items := by
  induction items with
  | nil => exact .nil
  | cons first rest ih => exact .keep (same first) ih

namespace Json

/-- The same value, or two arrays with related items. -/
inductive WithItems (related : List Json → List Json → Prop) : Json → Json → Prop
  | same (value : Json) : WithItems related value value
  | arr {items items' : List Json} (changed : related items items')
    : WithItems related (.arr items) (.arr items')

/-- The same value, or two objects that differ in one member, which has related values. -/
inductive WithMember (name : String) (related : Json → Json → Prop) : Json → Json → Prop
  | same (value : Json) : WithMember name related value value
  | obj {members members' : List (String × Json)} {value value' : Json}
    (others
      : ∀ other, other ≠ name → (Json.obj members').get? other = (Json.obj members).get? other)
    (found : (Json.obj members).get? name = some value)
    (found' : (Json.obj members').get? name = some value')
    (changed : related value value')
    : WithMember name related (.obj members) (.obj members')

end Json

/-- A block with values put in that are no arrays. -/
def Json.PaddedBlock : Json → Json → Prop :=
  WithItems (Padded (fun item => item.asItems? = none) Eq)

/-- The data of a script with padded blocks. -/
def Json.PaddedData : Json → Json → Prop :=
  WithMember "__blocks" (WithItems (List.Forall₂ PaddedBlock))

/-- An entry of the script table with padded data. -/
def Json.PaddedEntry : Json → Json → Prop :=
  WithMember "data" PaddedData

/-- An export with values put into its script table that are no objects, and with padded scripts. -/
def Json.PaddedGame : Json → Json → Prop :=
  WithMember "scripts" (WithItems (Padded (fun item => item.isObject = false) PaddedEntry))

/-- Members that are added to two tables alike do not tell them apart. -/
theorem Json.getElem_insertMany_congr {first second : Std.TreeMap String Json} {name : String}
    (members : List (String × Json)) (same : first[name]? = second[name]?)
    : (first.insertMany members)[name]? = (second.insertMany members)[name]? := by
  induction members generalizing first second with
  | nil => simpa using same
  | cons member rest ih =>
      rw [Std.TreeMap.insertMany_cons, Std.TreeMap.insertMany_cons]
      apply ih
      rw [Std.TreeMap.getElem?_insert, Std.TreeMap.getElem?_insert, same]

namespace Json.WithMember

variable {name : String} {related : Json → Json → Prop} {first second : Json}

theorem get_eq (changed : WithMember name related first second) {other : String}
    (differ : other ≠ name)
    : second.get? other = first.get? other := by
  cases changed with
  | same => rfl
  | obj others _ _ _ => exact others other differ

theorem isObject_eq (changed : WithMember name related first second)
    : second.isObject = first.isObject := by
  cases changed <;> rfl

/-- The last member of a name may be written with another value. -/
theorem of_members {value value' : Json} (front : List (String × Json))
    {back : List (String × Json)} (absent : name ∉ back.map Prod.fst)
    (changed : related value value')
    : WithMember name related (.obj (front ++ (name, value) :: back))
        (.obj (front ++ (name, value') :: back)) := by
  have lookup (value : Json) (other : String)
      : (Json.obj (front ++ (name, value) :: back)).get? other
        = (((tableOf front).insert name value).insertMany back)[other]? := by
    rw [get?, table, tableOf, Std.TreeMap.ofList_eq_insertMany_empty,
      Std.TreeMap.insertMany_append, Std.TreeMap.insertMany_cons, tableOf,
      Std.TreeMap.ofList_eq_insertMany_empty]
  have found (value : Json)
      : (Json.obj (front ++ (name, value) :: back)).get? name = some value := by
    rw [lookup, Std.TreeMap.getElem?_insertMany_list_of_contains_eq_false (by simpa using absent),
      Std.TreeMap.getElem?_insert_self]
  refine .obj ?_ (found value) (found value') changed
  intro other differ
  rw [lookup, lookup]
  exact getElem_insertMany_congr back
    (by simp [Std.TreeMap.getElem?_insert, differ.symm])

end Json.WithMember

-----------------------------------------------------------------------------------------
-- Reading
-----------------------------------------------------------------------------------------

theorem Command.ofJson_of_not_array {value : Json} (noArray : value.asItems? = none)
    : Command.ofJson? value = .ok none := by
  cases value with
  | arr items => cases noArray
  | _ => rfl

/-- A padded block is read as the same commands, by induction over what is put in. -/
theorem Block.ofJson_padded {items items' : List Json}
    (padded : Padded (fun item => item.asItems? = none) Eq items items')
    : Block.ofJson items' = Block.ofJson items := by
  induction padded with
  | nil => rfl
  | keep head _ ih =>
      subst head
      rw [Block.ofJson, Block.ofJson, ih]
  | @insert item rest rest' junk _ ih =>
      rw [Block.ofJson, Command.ofJson_of_not_array junk, ih]
      cases Block.ofJson rest <;> rfl

theorem Script.blocksOfJson_padded (script : String) (index : Nat) {blocks blocks' : List Json}
    (padded : List.Forall₂ Json.PaddedBlock blocks blocks')
    : blocksOfJson script index blocks' = blocksOfJson script index blocks := by
  induction padded generalizing index with
  | nil => rfl
  | @cons block block' rest rest' head _ ih =>
      cases head with
      | same =>
          cases block with
          | arr commands => rw [blocksOfJson, blocksOfJson, ih]
          | _ => rfl
      | arr changed => rw [blocksOfJson, blocksOfJson, Block.ofJson_padded changed, ih]

/-- Members that are no events do not count for the handlers. -/
theorem Script.handlersOfJson_filter (members : List (String × Json))
    : handlersOfJson members
      = handlersOfJson (members.filter fun member => !Text.startsWith member.1 "__") := by
  induction members with
  | nil => rfl
  | cons member rest ih =>
      obtain ⟨name, value⟩ := member
      by_cases hidden : Text.startsWith name "__" = true
      · rw [List.filter_cons_of_neg (by simp [hidden]), handlersOfJson, if_pos hidden, ih]
      · rw [List.filter_cons_of_pos (by simp [hidden]), handlersOfJson, handlersOfJson,
          if_neg hidden, if_neg hidden, ih]

/-- Objects with the same events have the same handlers. -/
theorem Script.handlersOfJson_congr {first second : Json}
    (same : ∀ event, Text.startsWith event "__" = false → second.get? event = first.get? event)
    : handlersOfJson second.entries = handlersOfJson first.entries := by
  have shown (value : Json)
      : value.entries.filter (fun member => !Text.startsWith member.1 "__")
        = (value.table.filter fun name _ => !Text.startsWith name "__").toList := by
    rw [Std.TreeMap.toList_filter]
    rfl
  -- The tables may differ at the other names, so they are compared without these.
  rw [handlersOfJson_filter, handlersOfJson_filter first.entries, shown, shown]
  refine congrArg handlersOfJson (Std.TreeMap.Equiv.toList_eq ?_)
  apply Std.TreeMap.Equiv.of_forall_constGet?_eq
  intro event
  simp only [Std.TreeMap.getElem?_filter, Std.TreeMap.getKey_eq, Option.pfilter_eq_filter]
  cases hidden : Text.startsWith event "__" with
  | true => simp
  | false => rw [show second.table[event]? = first.table[event]? from same event hidden]

/-- Data with padded blocks are read as the same script. -/
theorem Script.ofJson_padded (name : String) {data data' : Json} (padded : data.PaddedData data')
    : ofJson name data' = ofJson name data := by
  cases padded with
  | same => rfl
  | @obj members members' value value' others found found' changed =>
      have blocks : blocksOf name (.obj members') = blocksOf name (.obj members) := by
        rw [blocksOf, blocksOf, found, found']
        cases changed with
        | same => rfl
        | arr changed => exact blocksOfJson_padded name 0 changed
      have comments : commentsOf (.obj members') = commentsOf (.obj members) := by
        rw [commentsOf, commentsOf, others "__comments" (by decide)]
      have handlers : handlersOfJson (Json.obj members').entries
          = handlersOfJson (Json.obj members).entries := by
        apply handlersOfJson_congr
        intro event shown
        apply others
        intro same
        rw [same] at shown
        exact absurd shown (by decide)
      rw [ofJson_obj, ofJson_obj, blocks, comments, handlers]

-----------------------------------------------------------------------------------------
-- Compiling
-----------------------------------------------------------------------------------------

namespace Codegen

/-- An entry of the script table with padded data is compiled to the same. -/
theorem scriptEntry_padded (registry : Registry) {object object' : Json}
    (padded : object.PaddedEntry object')
    : scriptEntry registry object' = scriptEntry registry object := by
  have id := padded.get_eq (show "id" ≠ "data" by decide)
  have code := padded.get_eq (show "type" ≠ "data" by decide)
  cases padded with
  | same => rfl
  | obj _ found found' changed =>
      have read (name : String) := Script.ofJson_padded name changed
      simp only [scriptEntry, readScript, id, code, found, found', read, changed.isObject_eq]

/-- A padded script table is compiled to the same, by induction over what is put in. Only the
journal counts the entries that are skipped.
-/
theorem scriptEntries_padded {entries entries' : List Json}
    (padded : Padded (fun item => item.isObject = false) Json.PaddedEntry entries entries')
    (registry : Registry) (index index' : Nat)
    : Retells (scriptEntries registry index entries) (scriptEntries registry index' entries') := by
  induction padded generalizing registry index index' with
  | nil => exact .pure ""
  | @keep object object' rest rest' head _ ih =>
      rw [scriptEntries, scriptEntries, head.isObject_eq, scriptEntry_padded registry head]
      split
      · refine (scriptEntry_retells registry object).bind (fun result => ?_)
        exact (ih result.2 _ _).bind (fun _ => .pure _)
      · exact (Retells.note _ _).bind (fun _ => ih registry _ _)
  | insert junk _ ih =>
      -- The index that moves on past the skipped entry is seen by later notices only.
      simp only [scriptEntries, junk, Bool.false_eq_true, ↓reduceIte]
      exact (ih registry index (index' + 1)).note_bind _

theorem scripts_retells (game : Json) : Retells (scripts game) (scripts game) := by
  unfold scripts
  split
  · exact scriptEntries_padded (Padded.refl .same _) _ 0 0
  · exact (Retells.note _ _).bind (fun _ => .pure "")

theorem scripts_padded {game padded : Json} (more : game.PaddedGame padded)
    : Retells (scripts game) (scripts padded) := by
  have owners : Registry.ofJson padded = Registry.ofJson game := by
    rw [Registry.ofJson, Registry.ofJson, more.get_eq (show "rooms" ≠ "scripts" by decide),
      more.get_eq (show "tiles" ≠ "scripts" by decide)]
  cases more with
  | same => exact scripts_retells game
  | @obj members members' _ _ _ found found' changed =>
      cases changed with
      | same =>
          have same : scripts (.obj members') = scripts (.obj members) := by
            rw [scripts, scripts, found, found', owners]
          rw [same]
          exact scripts_retells (.obj members)
      | arr changed =>
          rw [scripts, scripts, found, found', owners]
          exact scriptEntries_padded changed _ 0 0

end Codegen

namespace Game

/-- Values put into the script table that are no objects, and values put into blocks that are no
arrays, change neither the code and the report of a game nor the defect that stops it.
-/
theorem junk_entries_are_inert {game padded : Json} (more : game.PaddedGame padded)
    : compile padded = compile game := by
  apply compile_eq_of_retells _ (Codegen.scripts_padded more)
  rw [initialState, initialState, more.get_eq (show "tiles" ≠ "scripts" by decide)]

/-- An export with one script, whose only block is given, among other entries of its table. -/
def scriptAmong (block before after : List Json) : Json :=
  let data := .obj [
    ("load", .arr [.str "block", .int 0]), ("__comments", .arr [.str "[DIRECT]"]),
    ("__blocks", .arr [.arr block])]
  .obj [
    ("tiles", .arr []),
    ("scripts", .arr (before ++ .obj [("type", .int 0), ("id", .int 0), ("data", data)] :: after))]

/-- A call, the comment that tags it, and a command that is not known. -/
def taggedCall : List Json :=
  [.arr [.str "call", .str "go"], .arr [.str "#", .int 0], .arr [.str "jump"]]

/-- The same commands with other values before, between and after them. -/
def scatteredCall : List Json :=
  [.null, .arr [.str "call", .str "go"], .str "#", .arr [.str "#", .int 0], .int 0, .obj [],
    .arr [.str "jump"], .bool true]

/-- Other values between a call and its comment do not part them, and the problem is found at the
position that the command has among the commands.
-/
theorem scatteredCall_compiles_alike
    : (scriptAmong taggedCall [] []).PaddedGame
        (scriptAmong scatteredCall [.null, .arr []] [.str "jump"])
      ∧ compile (scriptAmong scatteredCall [.null, .arr []] [.str "jump"])
        = compile (scriptAmong taggedCall [] [])
      ∧ ∃ compiled,
          compile (scriptAmong scatteredCall [.null, .arr []] [.str "jump"]) = .ok compiled
          ∧ compiled.report.diagnostics.map Diagnostic.location
            = [some { script := "game", block := 0, command := 2 }] := by
  have block : Json.PaddedBlock (.arr taggedCall) (.arr scatteredCall) := by
    refine .arr (.insert rfl (.keep rfl (.insert rfl (.keep rfl (.insert rfl ?_)))))
    exact .insert rfl (.keep rfl (.insert rfl .nil))
  have more : (scriptAmong taggedCall [] []).PaddedGame
      (scriptAmong scatteredCall [.null, .arr []] [.str "jump"]) := by
    refine .of_members [("tiles", .arr [])] List.not_mem_nil (.arr ?_)
    refine .insert rfl (.insert rfl (.keep ?_ (.insert rfl .nil)))
    refine .of_members [("type", .int 0), ("id", .int 0)] List.not_mem_nil ?_
    exact .of_members
      [("load", .arr [.str "block", .int 0]), ("__comments", .arr [.str "[DIRECT]"])]
      List.not_mem_nil (.arr (.cons block .nil))
  refine ⟨more, junk_entries_are_inert more, ?_⟩
  rw [junk_entries_are_inert more]
  have value : (match compile (scriptAmong taggedCall [] []) with
      | .ok compiled => compiled.report.diagnostics.map Diagnostic.location
      | .error _ => [])
      = [some { script := "game", block := 0, command := 2 }] := by
    decide +kernel
  cases run : compile (scriptAmong taggedCall [] []) with
  | error defect => simp [run] at value
  | ok compiled =>
      simp only [run] at value
      exact ⟨compiled, rfl, value⟩

end Game

end TileLua
