import TileLua.Game.Compile
import TileLua.Proofs.Codegen.DelegatingHandler
import TileLua.Proofs.Script.RegistryNames

/-! Which scripts a compiled game registers, and which of its handlers are recorded.
Both are functions of the export alone. A record names its tile as the script does, and the engine
finds the tile's script by the name under which it is registered; the two names agree only under a
condition on the export.
-/

namespace TileLua

-----------------------------------------------------------------------------------------
-- The registered scripts of an export and their records
-----------------------------------------------------------------------------------------

namespace Codegen

/-- The owner that an entry of the script table names: an object with the code of a kind. -/
def ownerOf? (object : Json) : Option (ScriptKind × Int64) :=
  if object.isObject then
    (ScriptKind.ofCode? (((object.get? "type").bind Json.asWord?).getD (-1))).map fun kind =>
      (kind, ((object.get? "id").bind Json.asWord?).getD 0)
  else none

/-- The scripts that a script table registers, each with its entry of the table. -/
def registeredScripts : Registry → List Json → List (Registry.Entry × Json)
  | _, [] => []
  | registry, object :: rest =>
      match ownerOf? object with
      | some (kind, id) =>
          ((registry.register kind id).1, object)
            :: registeredScripts (registry.register kind id).2 rest
      | none => registeredScripts registry rest

/-- The records of a script that is registered under a name. -/
def scriptDelegations (tiles : TileTable) (owner : String) (source : Script) : List Delegation :=
  source.handlers.flatMap fun handler =>
    (source.blocks[handler.block]?.bind (delegation? tiles owner handler.event)).toList

/-- The script in an entry of the script table. -/
def sourceOf (name : String) (object : Json) : Except Defect Script :=
  match object.get? "data" with
  | some data => Script.ofJson name data
  | none => .ok { name }

/-- The records of an entry of the script table; an entry that cannot be read has none. -/
def entryDelegations (tiles : TileTable) : Registry.Entry × Json → List Delegation
  | (entry, object) =>
      match sourceOf entry.name object with
      | .ok source => scriptDelegations tiles entry.name source
      | .error _ => []

theorem registeredScripts_entries (registry : Registry) (table : List Json)
    : (registeredScripts registry table).map Prod.fst
      = registry.registerAll (table.filterMap ownerOf?) := by
  induction table generalizing registry with
  | nil => rfl
  | cons object rest ih =>
      simp only [registeredScripts, List.filterMap_cons]
      cases ownerOf? object with
      | none => exact ih registry
      | some owner => simp only [List.map_cons, ih, Registry.registerAll]

-----------------------------------------------------------------------------------------
-- What a run does with them
-----------------------------------------------------------------------------------------

/-- The handlers of a script leave their records in order, by induction over the handlers. -/
theorem handlers_eq_ok {source : Script} {entry : Registry.Entry} {list : List Handler}
    {before after : State} {text : String}
    (run : handlers source entry list before = .ok text after)
    : after.delegations
      = before.delegations
        ++ list.flatMap fun handler =>
          (source.blocks[handler.block]?.bind
            (delegation? before.tiles entry.name handler.event)).toList := by
  induction list generalizing before text with
  | nil =>
      obtain ⟨-, rfl⟩ := pure_eq_ok.mp run
      simp
  | cons first rest ih =>
      obtain ⟨_, middle, firstRun, run⟩ := bind_eq_ok.mp run
      obtain ⟨_, _, restRun, result⟩ := bind_eq_ok.mp run
      obtain ⟨-, rfl⟩ := pure_eq_ok.mp result
      obtain ⟨_, _, _, commands, -, -, -, found, -, records⟩ := handler_eq_ok firstRun
      have tiles := ((handler_restored source entry.name entry.slot first).of_ok firstRun).tiles
      rw [ih restRun, records, tiles, List.flatMap_cons, found, Option.bind_some,
        List.append_assoc]

/-- A script is its registration followed by the text of its handlers. -/
theorem script_eq_ok {entry : Registry.Entry} {source : Script} {before after : State}
    {text : String} (run : script entry source before = .ok text after)
    : ∃ body,
        text = entry.header ++ body
        ∧ after.delegations
          = before.delegations ++ scriptDelegations before.tiles entry.name source := by
  obtain ⟨_, _, ⟨⟩, run⟩ := bind_eq_ok.mp run
  obtain ⟨_, _, ⟨⟩, run⟩ := bind_eq_ok.mp run
  obtain ⟨body, middle, handlersRun, run⟩ := bind_eq_ok.mp run
  obtain ⟨_, _, ⟨⟩, result⟩ := bind_eq_ok.mp run
  obtain ⟨rfl, rfl⟩ := pure_eq_ok.mp result
  have records := handlers_eq_ok handlersRun
  exact ⟨body, rfl, records⟩

theorem register_eq_ok {registry : Registry} {kind : ScriptKind} {id : Int64}
    {before after : State} {result : Registry.Entry × Registry}
    (run : register registry kind id before = .ok result after)
    : result = registry.register kind id ∧ before.Quiet after := by
  unfold register at run
  split at run
  · obtain ⟨_, _, met, result⟩ := bind_eq_ok.mp run
    obtain ⟨rfl, rfl⟩ := pure_eq_ok.mp result
    exact ⟨rfl, (meet_quiet _).of_ok met⟩
  · obtain ⟨rfl, rfl⟩ := pure_eq_ok.mp run
    exact ⟨rfl, .refl _⟩

theorem readScript_eq_ok {name : String} {data : Json} {before after : State} {source : Script}
    (run : readScript name data before = .ok source after)
    : Script.ofJson name data = .ok source ∧ before.Quiet after := by
  obtain ⟨read, _, decoded, run⟩ := bind_eq_ok.mp run
  obtain ⟨found, rfl⟩ := ofExcept_eq_ok.mp decoded
  dsimp only at run
  split at run
  · obtain ⟨_, _, told, result⟩ := bind_eq_ok.mp run
    obtain ⟨rfl, rfl⟩ := pure_eq_ok.mp result
    exact ⟨found, (note_quiet _).of_ok told⟩
  · obtain ⟨rfl, rfl⟩ := pure_eq_ok.mp run
    exact ⟨found, .refl _⟩

/-- An object of the script table that names no owner leaves nothing but a problem. -/
theorem scriptEntry_of_unowned {registry next : Registry} {object : Json} {before after : State}
    {text : String} (isObject : object.isObject = true) (unowned : ownerOf? object = none)
    (run : scriptEntry registry object before = .ok (text, next) after)
    : text = "" ∧ next = registry ∧ after.delegations = before.delegations := by
  simp only [ownerOf?, isObject, if_true, Option.map_eq_none_iff] at unowned
  simp only [scriptEntry, unowned] at run
  obtain ⟨_, _, met, result⟩ := bind_eq_ok.mp run
  obtain ⟨same, rfl⟩ := pure_eq_ok.mp result
  cases same
  exact ⟨rfl, rfl, ((meet_quiet _).of_ok met).delegations⟩

/-- An object of the script table that names an owner is registered and compiled. -/
theorem scriptEntry_of_owned {registry next : Registry} {object : Json} {before after : State}
    {text : String} {kind : ScriptKind} {id : Int64} (isObject : object.isObject = true)
    (owned : ownerOf? object = some (kind, id))
    (run : scriptEntry registry object before = .ok (text, next) after)
    : next = (registry.register kind id).2
      ∧ (∃ body, text = (registry.register kind id).1.header ++ body)
      ∧ after.delegations
        = before.delegations
          ++ entryDelegations before.tiles ((registry.register kind id).1, object) := by
  simp only [ownerOf?, isObject, if_true, Option.map_eq_some_iff, Prod.mk.injEq] at owned
  obtain ⟨_, known, rfl, rfl⟩ := owned
  simp only [scriptEntry, known] at run
  obtain ⟨⟨entry, registered⟩, middle, registering, run⟩ := bind_eq_ok.mp run
  obtain ⟨made, quiet⟩ := register_eq_ok registering
  obtain ⟨source, ready, found, still, run⟩ : ∃ source ready,
      sourceOf entry.name object = .ok source
      ∧ middle.Quiet ready
      ∧ (script entry source >>= fun text => pure (text, registered)) ready
        = .ok (text, next) after := by
    unfold sourceOf
    cases data : object.get? "data" with
    | none =>
        simp only [data] at run
        obtain ⟨_, _, ⟨⟩, run⟩ := bind_eq_ok.mp run
        exact ⟨_, middle, rfl, .refl _, run⟩
    | some content =>
        simp only [data] at run
        obtain ⟨source, ready, reading, run⟩ := bind_eq_ok.mp run
        obtain ⟨found, still⟩ := readScript_eq_ok reading
        exact ⟨source, ready, found, still, run⟩
  obtain ⟨_, _, compiling, result⟩ := bind_eq_ok.mp run
  obtain ⟨same, rfl⟩ := pure_eq_ok.mp result
  cases same
  obtain ⟨body, shape, records⟩ := script_eq_ok compiling
  simp only [← made]
  refine ⟨trivial, ⟨body, shape⟩, ?_⟩
  simp only [records, entryDelegations, found, still.delegations, still.tiles, quiet.delegations,
    quiet.tiles]

/-- The text of registered scripts around the texts of their handlers. -/
def registeredText (scripts : List (Registry.Entry × Json)) (bodies : List String) : String :=
  String.join (List.zipWith (fun script body => script.1.header ++ body) scripts bodies)

/-- A script table gives the registrations of its scripts and their records, in order; by induction
over the table.
-/
theorem scriptEntries_eq_ok {registry : Registry} {index : Nat} {table : List Json}
    {before after : State} {text : String}
    (run : scriptEntries registry index table before = .ok text after)
    : ∃ bodies,
        bodies.length = (registeredScripts registry table).length
        ∧ text = registeredText (registeredScripts registry table) bodies
        ∧ after.delegations
          = before.delegations
            ++ (registeredScripts registry table).flatMap (entryDelegations before.tiles) := by
  induction table generalizing registry index before text with
  | nil =>
      obtain ⟨rfl, rfl⟩ := pure_eq_ok.mp run
      exact ⟨[], rfl, rfl, by simp [registeredScripts]⟩
  | cons first rest ih =>
      simp only [scriptEntries] at run
      cases isObject : first.isObject with
      | false =>
          rw [isObject] at run
          obtain ⟨_, middle, told, run⟩ := bind_eq_ok.mp run
          have quiet := (note_quiet _).of_ok told
          have unowned : ownerOf? first = none := by simp [ownerOf?, isObject]
          simpa only [registeredScripts, unowned, quiet.delegations, quiet.tiles] using ih run
      | true =>
          rw [isObject] at run
          obtain ⟨⟨firstText, next⟩, middle, firstRun, run⟩ := bind_eq_ok.mp run
          obtain ⟨restText, _, restRun, result⟩ := bind_eq_ok.mp run
          obtain ⟨rfl, rfl⟩ := pure_eq_ok.mp result
          obtain ⟨bodies, length, shape, records⟩ := ih restRun
          have tiles := ((scriptEntry_restored registry first).of_ok firstRun).tiles
          cases owner : ownerOf? first with
          | none =>
              obtain ⟨rfl, rfl, same⟩ := scriptEntry_of_unowned isObject owner firstRun
              refine ⟨bodies, ?_, ?_, ?_⟩
              · simpa only [registeredScripts, owner] using length
              · simp only [registeredScripts, owner, shape, String.empty_append]
              · simp only [registeredScripts, owner, records, same, tiles]
          | some owner' =>
              obtain ⟨kind, id⟩ := owner'
              obtain ⟨rfl, ⟨body, rfl⟩, added⟩ := scriptEntry_of_owned isObject owner firstRun
              refine ⟨body :: bodies, ?_, ?_, ?_⟩
              · simp only [registeredScripts, owner, List.length_cons, length]
              · simp only [registeredScripts, owner, shape, registeredText, List.zipWith_cons_cons,
                  String.join_cons]
              · simp only [registeredScripts, owner, records, added, tiles, List.flatMap_cons,
                  List.append_assoc]

end Codegen

-----------------------------------------------------------------------------------------
-- Whole games
-----------------------------------------------------------------------------------------

namespace Game

open Codegen

/-- The script table of an export. -/
def scriptTable (game : Json) : List Json :=
  match game.get? "scripts" with
  | some (.arr entries) => entries
  | _ => []

/-- The scripts that an export registers. -/
def registered (game : Json) : List (Registry.Entry × Json) :=
  registeredScripts (.ofJson game) (scriptTable game)

theorem scripts_eq_ok {game : Json} {before after : State} {text : String}
    (run : scripts game before = .ok text after)
    : ∃ bodies,
        bodies.length = (registered game).length
        ∧ text = registeredText (registered game) bodies
        ∧ after.delegations
          = before.delegations
            ++ (registered game).flatMap (entryDelegations before.tiles) := by
  simp only [scripts] at run
  simp only [registered, scriptTable]
  -- Only an array is a table; the other values are told of and leave nothing.
  split
  · rename_i table found
    simp only [found] at run
    exact scriptEntries_eq_ok run
  · simp only at run
    obtain ⟨_, _, told, result⟩ := bind_eq_ok.mp run
    obtain ⟨rfl, rfl⟩ := pure_eq_ok.mp result
    have quiet := (note_quiet _).of_ok told
    exact ⟨[], rfl, rfl, by simpa [registeredScripts] using quiet.delegations⟩

theorem initialState_delegations (game : Json) : (initialState game).delegations = [] := by
  unfold initialState
  split <;> rfl

/-- A compiled game is the code around its scripts. -/
theorem scripts_of_compile {game : Json} {compiled : Compiled} (run : compile game = .ok compiled)
    : ∃ text state,
        scripts game (initialState game) = .ok text state
        ∧ compiled.code = codeAround text state
        ∧ compiled.report = state.report := by
  unfold compile at run
  split at run
  · rename_i result final built
    cases run
    obtain ⟨text, state, scriptsRun, rest⟩ := bind_eq_ok.mp built
    obtain ⟨_, _, ⟨⟩, rest⟩ := bind_eq_ok.mp rest
    obtain ⟨_, _, -, result⟩ := bind_eq_ok.mp rest
    obtain ⟨rfl, -⟩ := pure_eq_ok.mp result
    exact ⟨text, state, scriptsRun, rfl, rfl⟩
  · cases run

/-- A compiled game consists of its registered scripts, and reports the records of their handlers
in order.
-/
theorem compile_eq_ok {game : Json} {compiled : Compiled} (run : compile game = .ok compiled)
    : ∃ bodies state,
        bodies.length = (registered game).length
        ∧ compiled.code = codeAround (registeredText (registered game) bodies) state
        ∧ compiled.report = state.report
        ∧ state.delegations
          = (registered game).flatMap (entryDelegations (initialState game).tiles) := by
  obtain ⟨text, state, scriptsRun, code, report⟩ := scripts_of_compile run
  obtain ⟨bodies, length, shape, records⟩ := scripts_eq_ok scriptsRun
  refine ⟨bodies, state, length, by rw [code, shape], report, ?_⟩
  rw [records, initialState_delegations, List.nil_append]

/-- The name that the script of a tile would like to have: that of the tile at its position. -/
def tileName (game : Json) (id : Int64) : String :=
  (Registry.ofJson game).baseName .tile id

/-- A compiled game registers its scripts in the order of the table, and its report holds the record
of each handler that only delegates. The script that is registered for the tile of a record has the
name that the record gives exactly if no script before it has that name, and the name is that of the
tile at its position, or a marked form of it whose shorter forms are all taken.
-/
theorem record_names_tile_script_iff (game : Json) (compiled : Compiled)
    (run : compile game = .ok compiled)
    : ∃ bodies state,
        bodies.length = (registered game).length
        ∧ compiled.code = codeAround (registeredText (registered game) bodies) state
        ∧ compiled.report.delegations = state.delegations
        ∧ compiled.report.delegations
          = (registered game).flatMap (entryDelegations (initialState game).tiles)
        ∧ ∀ record ∈ compiled.report.delegations,
          ∀ earlier entry later,
            (registered game).map Prod.fst = earlier ++ entry :: later
            → entry.kind = .tile
            → entry.id = record.targetId
            → (entry.name = record.targetName
                ↔ record.targetName ∉ earlier.map Registry.Entry.name
                  ∧ (record.targetName = tileName game record.targetId
                    ∨ ∃ marks,
                        record.targetName
                          = Registry.candidate .tile record.targetId
                              (tileName game record.targetId) (marks + 1)
                        ∧ ∀ fewer ≤ marks,
                            Registry.candidate .tile record.targetId
                                (tileName game record.targetId) fewer
                              ∈ earlier.map Registry.Entry.name)) := by
  obtain ⟨bodies, state, length, code, report, records⟩ := compile_eq_ok run
  refine ⟨bodies, state, length, code, by rw [report]; rfl, by rw [report]; exact records, ?_⟩
  intro record _ earlier entry later split kind id
  rw [registered, registeredScripts_entries] at split
  rw [Registry.registerAll_name_eq_iff split, kind, id]
  rfl

/-- An export in which a room and a tile have one name, and the game hands an event to that tile and
another event to a tile with a name of its own.
-/
def sharedName : Json :=
  .obj [
    ("rooms", .arr [.obj [("name", .str "door")]]),
    ("tiles", .arr [.obj [("name", .str "door"), ("id", .int 0)],
      .obj [("name", .str "key"), ("id", .int 1)]]),
    ("scripts", .arr [
      .obj [("type", .int 1), ("id", .int 0)],
      .obj [("type", .int 2), ("id", .int 0)],
      .obj [("type", .int 2), ("id", .int 1)],
      .obj [("type", .int 0), ("id", .int 0),
        ("data", .obj [
          ("load", .arr [.str "block", .int 0]),
          ("start", .arr [.str "block", .int 1]),
          ("__blocks", .arr [
            .arr [.arr [.str "mimic", .str "door"]],
            .arr [.arr [.str "mimic", .str "key"]]])])]])]

/-- The record of the shared name gives a name under which the tile's script is not registered; the
record of the other tile gives the right one.
-/
theorem record_names_other_script
    : ∃ compiled room door key rest,
        compile sharedName = .ok compiled
        ∧ compiled.report.delegations
          = [{ owner := "game", event := "load", targetId := 0, targetName := "door" },
              { owner := "game", event := "start", targetId := 1, targetName := "key" }]
        ∧ (registered sharedName).map Prod.fst = room :: door :: key :: rest
        ∧ (door.kind, door.id) = (.tile, 0)
        ∧ door.name ≠ "door"
        ∧ (key.kind, key.id) = (.tile, 1)
        ∧ key.name = "key" := by
  have success : (compile sharedName).isOk = true := by decide +kernel
  cases run : compile sharedName with
  | error defect =>
      rw [run] at success
      cases success
  | ok compiled =>
      obtain ⟨bodies, state, -, -, -, records, named⟩ :=
        record_names_tile_script_iff sharedName compiled run
      have recorded : (registered sharedName).flatMap
            (entryDelegations (initialState sharedName).tiles)
          = [{ owner := "game", event := "load", targetId := 0, targetName := "door" },
              { owner := "game", event := "start", targetId := 1, targetName := "key" }] := by
        decide +kernel
      rw [recorded] at records
      have entries : (registered sharedName).map Prod.fst
          = [⟨"door", .room, 0, "__script[1]"⟩, ⟨"_2_0_door", .tile, 0, "__script[2]"⟩,
              ⟨"key", .tile, 1, "__script[3]"⟩, ⟨"game", .global, 0, "__script[4]"⟩] := by
        decide +kernel
      have door := named ⟨"game", "load", 0, "door"⟩ (by simp [records])
        [⟨"door", .room, 0, "__script[1]"⟩] _ _ entries rfl rfl
      have key := named ⟨"game", "start", 1, "key"⟩ (by simp [records])
        [⟨"door", .room, 0, "__script[1]"⟩, ⟨"_2_0_door", .tile, 0, "__script[2]"⟩] _ _ entries
        rfl rfl
      refine ⟨compiled, _, _, _, _, rfl, records, entries, rfl, ?_, rfl, ?_⟩
      · intro same
        exact (door.mp same).1 (by simp)
      · exact key.mpr ⟨by decide, Or.inl (by decide +kernel)⟩

end Game

end TileLua
