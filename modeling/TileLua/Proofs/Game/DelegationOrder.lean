import TileLua.Proofs.Game.DelegationTable
import TileLua.Proofs.Lua.QuotedLiterals
import TileLua.Proofs.Script.RegistryRuns
import TileLua.Proofs.Syntax.Reading
import TileLua.Proofs.Text.Lines

/-! The order of the records of handlers that only delegate.
Scripts have different names, the handlers of a script have different events, and a handler leaves
one record at most. So the records are in strict order, first by script and then by event, and the
statements of the table that replaces the handlers assign different ones.
-/

namespace TileLua

open Codegen
open Text (between? between_eq_some linesOf linesOf_join)

-----------------------------------------------------------------------------------------
-- The statements of the table
-----------------------------------------------------------------------------------------

namespace Delegation

/-- The handler that the statement of a record assigns: that of its owner for its event. The
statement for the handler of any event goes through events that the owner lacks, and names none.
-/
def slot (delegation : Delegation) : String × Option String :=
  (delegation.owner, if delegation.event = "any" then none else some delegation.event)

theorem slot_injective {first second : Delegation} (same : first.slot = second.slot)
    : (first.owner, first.event) = (second.owner, second.event) := by
  simp only [slot, Prod.mk.injEq] at same
  obtain ⟨owner, event⟩ := same
  split at event
  · split at event
    · rename_i left right
      rw [owner, left, right]
    · cases event
  · split at event
    · cases event
    · rw [owner, Option.some.inj event]

/-- The lines of the statement of a record. -/
def lines (delegation : Delegation) : List String :=
  let owner := Engine.scriptTable delegation.owner
  let target := Engine.scriptTable delegation.targetName
  if delegation.event = "any" then
    ["  for name, fn in pairs(" ++ target ++ ") do -- (for 'any')",
      "    if not " ++ owner ++ "[name] and type(fn) == \"function\" then",
      "      " ++ owner ++ "[name] = fn",
      "    end",
      "  end"]
  else
    let event := Lua.quote delegation.event
    ["  " ++ owner ++ "[" ++ event ++ "] = " ++ target ++ "[" ++ event ++ "] or " ++ target
      ++ ".any"]

theorem statement_eq (delegation : Delegation)
    : delegation.statement = String.join (delegation.lines.map fun line => line ++ "\n") := by
  have loop : ") do -- (for 'any')\n" = ") do -- (for 'any')" ++ "\n" := by simp
  have test : "[name] and type(fn) == \"function\" then\n"
      = "[name] and type(fn) == \"function\" then" ++ "\n" := by simp
  have assign : "[name] = fn\n" = "[name] = fn" ++ "\n" := by simp
  have close : "    end\n" = "    end" ++ "\n" := by simp
  have last : "  end\n" = "  end" ++ "\n" := by simp
  have other : ".any\n" = ".any" ++ "\n" := by simp
  unfold statement lines
  rw [loop, test, assign, close, last, other]
  dsimp only
  split
  · simp only [List.map_cons, List.map_nil, String.join_cons, String.join_nil, String.append_empty,
      String.append_assoc]
  · simp only [List.map_cons, List.map_nil, String.join_cons, String.join_nil, String.append_empty,
      String.append_assoc]

/-- The lines of the table. -/
def tableLines (delegations : List Delegation) : List String :=
  if delegations.isEmpty then []
  else ["", "-- full mimics", "for _=1,5 do"] ++ delegations.flatMap lines ++ ["end"]

theorem table_eq (delegations : List Delegation)
    : table delegations
      = String.join ((tableLines delegations).map fun line => line ++ "\n") := by
  have statements : String.join (delegations.map statement)
      = String.join ((delegations.flatMap lines).map fun line => line ++ "\n") := by
    induction delegations with
    | nil => rfl
    | cons first rest ih =>
        rw [List.map_cons, String.join_cons, ih, statement_eq, List.flatMap_cons, List.map_append,
          String.join_append]
  have header : String.join (["", "-- full mimics", "for _=1,5 do"].map fun line => line ++ "\n")
      = "\n-- full mimics\nfor _=1,5 do\n" := by simp
  have footer : String.join (["end"].map fun line => line ++ "\n") = "end\n" := by simp
  unfold table tableLines
  split
  · rfl
  · rw [statements, List.map_append, List.map_append, String.join_append, String.join_append,
      header, footer]

/-- The lines of a statement are single lines, since names are quoted in them. -/
theorem lineFeed_not_mem_lines (delegation : Delegation)
    : ∀ line ∈ delegation.lines, '\n' ∉ line.toList := by
  have named (name : String) : '\n' ∉ (Engine.scriptTable name).toList := by
    unfold Engine.scriptTable
    simp [String.toList_append, Lua.lineFeed_not_mem_quote]
  unfold lines
  dsimp only
  split
  · simp [String.toList_append, named]
  · simp [String.toList_append, named, Lua.lineFeed_not_mem_quote]

end Delegation

namespace Game

/-- The event in an assignment to a handler, after the bracket; none for the variable of a loop over
events.
-/
def assignedEvent? (member : String) : Option (Option String) :=
  if member = "name] = fn" then some none
  else do
    let (event, rest) ← Lua.readQuoted member.toList
    if "] = ".toList.isPrefixOf rest then some (some (String.ofList event)) else none

/-- The handler that a line assigns: of which script, and for which event unless the line is in a
loop over events.
-/
def assignedSlot? (line : String) : Option (String × Option String) := do
  let source ← between? "__pulp:getScript(" "" (String.ofList (line.toList.dropWhile (· == ' ')))
  let (owner, rest) ← Lua.readQuoted source.toList
  let member ← between? ")[" "" (String.ofList rest)
  let event ← assignedEvent? member
  return (String.ofList owner, event)

/-- The handlers that code assigns, line by line. -/
def assignedSlots (code : String) : List (String × Option String) :=
  (linesOf code).filterMap assignedSlot?

theorem assignedEvent_quote (event rest : String)
    : assignedEvent? (Lua.quote event ++ ("] = " ++ rest)) = some (some event) := by
  have quoted : Lua.quote event ++ ("] = " ++ rest) ≠ "name] = fn" := by
    intro same
    have letters := congrArg (fun text => text.toList.head?) same
    simp [Lua.quote, String.toList_append] at letters
  have read := Lua.readQuoted_quote event ("] = " ++ rest).toList
  rw [← String.toList_append] at read
  rw [assignedEvent?, if_neg quoted, read]
  simp [String.toList_append]

/-- A line that begins with a handler of a script assigns it. -/
theorem assignedSlot_of_script {margin : String} (blank : ∀ c ∈ margin.toList, c = ' ')
    (owner member : String)
    : assignedSlot? (margin ++ Engine.scriptTable owner ++ ("[" ++ member))
      = (assignedEvent? member).map (fun event => (owner, event)) := by
  have start : (margin ++ Engine.scriptTable owner ++ ("[" ++ member)).toList.dropWhile (· == ' ')
      = ("__pulp:getScript(" ++ (Lua.quote owner ++ (")[" ++ member)) ++ "").toList := by
    rw [String.append_assoc, String.toList_append,
      List.dropWhile_append_of_pos (by simpa using blank)]
    unfold Engine.scriptTable
    simp [String.toList_append]
  have source := between_eq_some.mpr
    (rfl : "__pulp:getScript(" ++ (Lua.quote owner ++ (")[" ++ member)) ++ "" = _)
  have inner : between? ")[" "" (")[" ++ member) = some member := by
    rw [between_eq_some, String.append_empty]
  have read := Lua.readQuoted_quote owner (")[" ++ member).toList
  rw [← String.toList_append] at read
  rw [assignedSlot?, start, String.ofList_toList, source]
  simp only [Option.bind_eq_bind, Option.bind_some, read, String.ofList_toList, inner]
  cases assignedEvent? member <;> rfl

/-- A line that does not begin with a script assigns none of its handlers. -/
theorem assignedSlot_of_other {line : String}
    (other : (line.toList.dropWhile (· == ' ')).head? ≠ some '_')
    : assignedSlot? line = none := by
  have absent : between? "__pulp:getScript(" ""
      (String.ofList (line.toList.dropWhile (· == ' '))) = none := by
    rw [Option.eq_none_iff_forall_ne_some]
    intro middle found
    have letters := congrArg (fun text => text.toList.head?) (between_eq_some.mp found)
    simp only [String.toList_ofList] at letters
    rw [letters] at other
    simp [String.toList_append] at other
  rw [assignedSlot?, absent]
  rfl

/-- The statement of a record assigns its handler and no other. -/
theorem assignedSlot_lines (delegation : Delegation)
    : delegation.lines.filterMap assignedSlot? = [delegation.slot] := by
  unfold Delegation.lines Delegation.slot
  dsimp only
  split
  · have loop (target : String)
        : assignedSlot? ("  for name, fn in pairs(" ++ target ++ ") do -- (for 'any')") = none :=
      assignedSlot_of_other (by simp [String.toList_append])
    have test (owner : String)
        : assignedSlot? ("    if not " ++ owner ++ "[name] and type(fn) == \"function\" then")
          = none :=
      assignedSlot_of_other (by simp [String.toList_append])
    have close : assignedSlot? "    end" = none := assignedSlot_of_other (by simp)
    have last : assignedSlot? "  end" = none := assignedSlot_of_other (by simp)
    have assign : assignedSlot? ("      " ++ Engine.scriptTable delegation.owner ++ "[name] = fn")
        = some (delegation.owner, none) := by
      have literal : "[name] = fn" = "[" ++ "name] = fn" := by simp
      have loops : assignedEvent? "name] = fn" = some none := if_pos rfl
      rw [literal, assignedSlot_of_script (by simp), loops]
      rfl
    simp only [List.filterMap_cons, loop, test, close, last, assign, List.filterMap_nil]
  · have assign : ∀ rest, assignedSlot? ("  " ++ Engine.scriptTable delegation.owner
        ++ ("[" ++ (Lua.quote delegation.event ++ ("] = " ++ rest))))
          = some (delegation.owner, some delegation.event) := by
      intro rest
      rw [assignedSlot_of_script (by simp), assignedEvent_quote]
      rfl
    simp only [String.append_assoc] at assign
    simp only [List.filterMap_cons, List.filterMap_nil, String.append_assoc, assign]

/-- The table assigns the handlers of the records, in order. -/
theorem assignedSlots_table (delegations : List Delegation)
    : assignedSlots (Delegation.table delegations) = delegations.map Delegation.slot := by
  have statements : (delegations.flatMap Delegation.lines).filterMap assignedSlot?
      = delegations.map Delegation.slot := by
    rw [List.filterMap_flatMap, List.map_eq_flatMap]
    simp only [assignedSlot_lines]
  have header : ∀ line ∈ ["", "-- full mimics", "for _=1,5 do"],
      '\n' ∉ line.toList ∧ (line.toList.dropWhile (· == ' ')).head? ≠ some '_' := by
    decide
  have footer : ∀ line ∈ ["end"],
      '\n' ∉ line.toList ∧ (line.toList.dropWhile (· == ' ')).head? ≠ some '_' := by
    decide
  have single : ∀ line ∈ Delegation.tableLines delegations, '\n' ∉ line.toList := by
    intro line member
    unfold Delegation.tableLines at member
    split at member
    · cases member
    · rcases List.mem_append.mp member with front | last
      · rcases List.mem_append.mp front with first | statement
        · exact (header line first).1
        · obtain ⟨delegation, -, listed⟩ := List.mem_flatMap.mp statement
          exact delegation.lineFeed_not_mem_lines line listed
      · exact (footer line last).1
  rw [assignedSlots, Delegation.table_eq, linesOf_join single]
  unfold Delegation.tableLines
  split
  · rename_i empty
    rw [List.isEmpty_iff.mp empty]
    rfl
  · have none_first := List.filterMap_eq_nil_iff.mpr fun line first =>
      assignedSlot_of_other (header line first).2
    have none_last := List.filterMap_eq_nil_iff.mpr fun line last =>
      assignedSlot_of_other (footer line last).2
    rw [List.filterMap_append, List.filterMap_append, statements, none_first, none_last,
      List.nil_append, List.append_nil]

end Game

-----------------------------------------------------------------------------------------
-- The order of the records
-----------------------------------------------------------------------------------------

namespace Codegen

theorem eq_of_delegation {tiles : TileTable} {owner event : String} {body : Block}
    {record : Delegation} (found : delegation? tiles owner event body = some record)
    : record.owner = owner ∧ record.event = event := by
  obtain ⟨target, -, rfl⟩ := Option.map_eq_some_iff.mp found
  exact ⟨rfl, rfl⟩

/-- The records of a script are those of its handlers that have one. -/
theorem scriptDelegations_eq (tiles : TileTable) (owner : String) (source : Script)
    : scriptDelegations tiles owner source
      = source.handlers.filterMap fun handler =>
          source.blocks[handler.block]?.bind (delegation? tiles owner handler.event) := by
  rw [scriptDelegations, List.filterMap_eq_flatMap_toList]

/-- The records of a registered script are of its own handlers, in the order of the events. -/
theorem entryDelegations_sorted (tiles : TileTable) (script : Registry.Entry × Json)
    : (entryDelegations tiles script).Pairwise (fun first second => first.event < second.event)
      ∧ ∀ record ∈ entryDelegations tiles script,
          record.owner = script.1.name
          ∧ ∃ source, sourceOf script.1.name script.2 = .ok source
            ∧ record.event ∈ source.events := by
  obtain ⟨entry, object⟩ := script
  cases read : sourceOf entry.name object with
  | error defect => simp [entryDelegations, read]
  | ok source =>
      have sorted : source.events.Pairwise (· < ·) := by
        unfold sourceOf at read
        split at read
        · exact Script.events_sorted read
        · cases read
          exact .nil
      simp only [entryDelegations, read, scriptDelegations_eq]
      constructor
      · rw [List.pairwise_filterMap]
        rw [Script.events, List.pairwise_map] at sorted
        refine sorted.imp ?_
        intro first second less record found record' found'
        obtain ⟨_, -, made⟩ := Option.bind_eq_some_iff.mp found
        obtain ⟨_, -, made'⟩ := Option.bind_eq_some_iff.mp found'
        rw [(eq_of_delegation made).2, (eq_of_delegation made').2]
        exact less
      · intro record member
        obtain ⟨handler, listed, found⟩ := List.mem_filterMap.mp member
        obtain ⟨_, -, made⟩ := Option.bind_eq_some_iff.mp found
        obtain ⟨owner, event⟩ := eq_of_delegation made
        refine ⟨owner, source, rfl, ?_⟩
        rw [event]
        exact List.mem_map_of_mem listed

/-- A script table registers its entries that name an owner, in the order of the table. -/
theorem registeredScripts_objects (registry : Registry) (table : List Json)
    : (registeredScripts registry table).map Prod.snd
      = table.filter (fun object => (ownerOf? object).isSome) := by
  induction table generalizing registry with
  | nil => rfl
  | cons object rest ih =>
      simp only [registeredScripts, List.filter_cons]
      cases ownerOf? object with
      | none => simpa using ih registry
      | some owner => simp [ih]

end Codegen

namespace Game

/-- The names of the scripts of an export, in the order of its script table. -/
def scriptNames (game : Json) : List String :=
  (registered game).map fun script => script.1.name

theorem nodup_scriptNames (game : Json) : (scriptNames game).Nodup := by
  have names : scriptNames game = ((registered game).map Prod.fst).map Registry.Entry.name := by
    rw [List.map_map]
    rfl
  rw [names, registered, registeredScripts_entries]
  exact (Registry.registerAll_names_fresh _ _).1

/-- Whether a record comes before another: its script does, or the script is the same and the event
comes before the other.
-/
def precedes (game : Json) (first second : Delegation) : Prop :=
  (scriptNames game).idxOf first.owner < (scriptNames game).idxOf second.owner
  ∨ first.owner = second.owner ∧ first.event < second.event

/-- The records of an export are in strict order. -/
theorem delegations_sorted (game : Json) (tiles : TileTable)
    : ((registered game).flatMap (entryDelegations tiles)).Pairwise (precedes game) := by
  rw [List.pairwise_flatMap]
  constructor
  · intro script _
    obtain ⟨sorted, owned⟩ := entryDelegations_sorted tiles script
    refine sorted.imp_of_mem ?_
    intro first second member member' less
    exact Or.inr ⟨(owned first member).1.trans (owned second member').1.symm, less⟩
  · -- No name comes twice, so a name is first found where its script is.
    have places : (scriptNames game).Pairwise fun first second =>
        (scriptNames game).idxOf first < (scriptNames game).idxOf second := by
      rw [List.pairwise_iff_getElem]
      intro low high lowBound highBound less
      rw [(nodup_scriptNames game).idxOf_getElem, (nodup_scriptNames game).idxOf_getElem]
      exact less
    rw [scriptNames, List.pairwise_map] at places
    refine places.imp ?_
    intro script script' less first member second member'
    left
    rw [((entryDelegations_sorted tiles script).2 first member).1,
      ((entryDelegations_sorted tiles script').2 second member').1]
    exact less

/-- A record that precedes another is of another handler. -/
theorem precedes_ne {game : Json} {first second : Delegation} (less : precedes game first second)
    : (first.owner, first.event) ≠ (second.owner, second.event) := by
  intro same
  obtain ⟨owner, event⟩ := Prod.mk.inj same
  rcases less with earlier | ⟨-, smaller⟩
  · rw [owner] at earlier
    exact Nat.lt_irrefl _ earlier
  · rw [event] at smaller
    exact String.lt_irrefl _ smaller

/-- The records of a compiled game are of different handlers. They are in the order of the scripts
in the script table and, for one script, in the order of the events. The table that replaces the
handlers stands in the code if it is turned on, and assigns each record's handler in one line; no
two lines assign the same one.
-/
theorem records_never_conflict (game : Json) (compiled : Compiled)
    (run : compile game = .ok compiled)
    : (compiled.report.delegations.map fun record => (record.owner, record.event)).Nodup
      ∧ compiled.report.delegations.Pairwise (precedes game)
      ∧ (registered game).map Prod.snd
        = (scriptTable game).filter (fun object => (ownerOf? object).isSome)
      ∧ (∀ record ∈ compiled.report.delegations,
          ∃ script ∈ registered game,
            script.1.name = record.owner
            ∧ ∃ source, sourceOf record.owner script.2 = .ok source
              ∧ record.event ∈ source.events)
      ∧ (∃ front back,
          compiled.code
          = front
            ++ (if compiled.report.settings.isEnabled fullMimics then
                  Delegation.table compiled.report.delegations
                else "")
            ++ back)
      ∧ assignedSlots (Delegation.table compiled.report.delegations)
        = compiled.report.delegations.map Delegation.slot
      ∧ (assignedSlots (Delegation.table compiled.report.delegations)).Nodup := by
  obtain ⟨bodies, state, -, code, report, records⟩ := compile_eq_ok run
  have listed : compiled.report.delegations
      = (registered game).flatMap (entryDelegations (initialState game).tiles) := by
    rw [report]
    exact records
  have sorted : compiled.report.delegations.Pairwise (precedes game) := by
    rw [listed]
    exact delegations_sorted game _
  have slots := assignedSlots_table compiled.report.delegations
  refine ⟨?_, sorted, registeredScripts_objects _ _, ?_, ?_, slots, ?_⟩
  · rw [List.Nodup, List.pairwise_map]
    exact sorted.imp precedes_ne
  · intro record member
    rw [listed] at member
    obtain ⟨script, registered, recorded⟩ := List.mem_flatMap.mp member
    obtain ⟨owner, source, read, event⟩ := (entryDelegations_sorted _ script).2 record recorded
    exact ⟨script, registered, owner.symm, source, owner ▸ read, event⟩
  · refine ⟨declarations state ++ "\n" ++ registeredText (registered game) bodies,
      "\n" ++ accessors state ++ state.routes.bindings, ?_⟩
    rw [code, report]
    simp only [codeAround, String.append_assoc]
    rfl
  · rw [slots, List.Nodup, List.pairwise_map]
    refine sorted.imp ?_
    intro first second less same
    exact precedes_ne less (Delegation.slot_injective same)

/-- A script that hands its events to the tile `key`. -/
def keyScript (kind : Int) (events : List String) : Json :=
  .obj [("type", .int kind), ("id", .int 0),
    ("data", .obj (("__blocks", .arr [.arr [.arr [.str "mimic", .str "key"]]])
      :: events.map fun event => (event, .arr [.str "block", .int 0])))]

/-- An export with two scripts of one tile and one of a room of the same name. -/
def repeatedName : Json :=
  .obj [
    ("rooms", .arr [.obj [("name", .str "door")]]),
    ("tiles", .arr [.obj [("name", .str "door"), ("id", .int 0)],
      .obj [("name", .str "key"), ("id", .int 1)]]),
    ("scripts", .arr [keyScript 2 ["hit", "any"], keyScript 2 ["hit"], keyScript 1 ["hit"]])]

theorem records_of_repeatedName
    : ∃ compiled,
        compile repeatedName = .ok compiled
        ∧ compiled.report.delegations.map (fun record => (record.owner, record.event))
          = [("door", "any"), ("door", "hit"), ("_2_0_door", "hit"), ("_1_0_door", "hit")]
        ∧ assignedSlots (Delegation.table compiled.report.delegations)
          = [("door", none), ("door", some "hit"), ("_2_0_door", some "hit"),
            ("_1_0_door", some "hit")] := by
  have value : (match compile repeatedName with
      | .ok compiled => compiled.report.delegations
      | .error _ => [])
      = [⟨"door", "any", 1, "key"⟩, ⟨"door", "hit", 1, "key"⟩, ⟨"_2_0_door", "hit", 1, "key"⟩,
        ⟨"_1_0_door", "hit", 1, "key"⟩] := by
    decide +kernel
  cases run : compile repeatedName with
  | error defect => simp [run] at value
  | ok compiled =>
      simp only [run] at value
      obtain ⟨-, -, -, -, -, slots, -⟩ := records_never_conflict repeatedName compiled run
      refine ⟨compiled, rfl, ?_, ?_⟩
      · rw [value]
        rfl
      · rw [slots, value]
        decide

end Game

end TileLua
