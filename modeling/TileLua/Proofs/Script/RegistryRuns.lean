import TileLua.Codegen.Script
import TileLua.Proofs.Codegen.Run
import TileLua.Proofs.Script.RegistryNames

/-! Registering any scripts one after the other.
Owners may have names that look like marked ones, so a mark can lead to a name that is taken again.
However the owners are named and in whatever order they come, no two scripts get the same name, and
each gets its owner's name unless an earlier script has it.
-/

namespace TileLua

namespace Registry

/-- What stands before a base name that is taken, once or more often. -/
def mark (kind : ScriptKind) (id : Int64) : String :=
  "_" ++ toString kind.code ++ "_" ++ toString id ++ "_"

/-- A base name behind some marks. -/
def marked (kind : ScriptKind) (id : Int64) (base : String) (marks : Nat) : String :=
  String.join (List.replicate marks (mark kind id)) ++ base

/-- The candidates are the base name behind more and more marks. -/
theorem candidate_eq_marked (kind : ScriptKind) (id : Int64) (base : String) (marks : Nat)
    : candidate kind id base marks = marked kind id base marks := by
  induction marks with
  | zero => simp [candidate, marked]
  | succ marks ih =>
      simp only [candidate, ih, marked, mark, List.replicate_succ, String.join_cons,
        String.append_assoc]

theorem registerAll_owners (registry : Registry) (owners : List (ScriptKind × Int64))
    : (registry.registerAll owners).map (fun entry => (entry.kind, entry.id)) = owners := by
  induction owners generalizing registry with
  | nil => rfl
  | cons owner rest ih =>
      rw [registerAll, List.map_cons, ih]
      rfl

/-- The slots are numbered on from the scripts that are there, by induction over the owners. -/
theorem registerAll_slots (registry : Registry) (owners : List (ScriptKind × Int64))
    : (registry.registerAll owners).map Entry.slot
      = (List.range owners.length).map fun count =>
          "__script[" ++ toString (registry.size + count + 1) ++ "]" := by
  induction owners generalizing registry with
  | nil => rfl
  | cons owner rest ih =>
      have more : (registry.register owner.1 owner.2).2.size = registry.size + 1 := rfl
      rw [registerAll, List.map_cons, ih, more, List.length_cons, List.range_succ_eq_map,
        List.map_cons, List.map_map]
      have shifted (count : Nat)
          : registry.size + 1 + count + 1 = registry.size + (count + 1) + 1 := by
        omega
      simp only [shifted, Function.comp_def]
      rfl

/-- No two entries have the same name, and none has a name that was taken before; by induction over
the owners.
-/
theorem registerAll_names_fresh (registry : Registry) (owners : List (ScriptKind × Int64))
    : ((registry.registerAll owners).map Entry.name).Nodup
      ∧ ∀ name ∈ (registry.registerAll owners).map Entry.name, name ∉ registry.taken := by
  induction owners generalizing registry with
  | nil => simp [registerAll]
  | cons owner rest ih =>
      obtain ⟨-, -, free, -⟩ := exists_freeName registry owner.1 owner.2
      obtain ⟨distinct, fresh⟩ := ih (registry.register owner.1 owner.2).2
      have apart : ∀ name ∈ ((registry.register owner.1 owner.2).2.registerAll rest).map Entry.name,
          name ≠ registry.freeName owner.1 owner.2 ∧ name ∉ registry.taken := by
        intro name listed
        have unused := fresh name listed
        rw [register, List.mem_cons, not_or] at unused
        exact unused
      rw [registerAll, List.map_cons]
      refine ⟨List.nodup_cons.mpr ⟨?_, distinct⟩, ?_⟩
      · intro listed
        exact (apart _ listed).1 rfl
      · intro name member
        rcases List.mem_cons.mp member with rfl | listed
        · exact free
        · exact (apart name listed).2

end Registry

namespace Codegen

/-- Registers the scripts of the given owners one after the other. -/
def registerEach (registry : Registry)
    : List (ScriptKind × Int64) → Codegen (List Registry.Entry × Registry)
  | [] => return ([], registry)
  | (kind, id) :: rest => do
      let (entry, registry) ← register registry kind id
      let (entries, registry) ← registerEach registry rest
      return (entry :: entries, registry)

/-- Registering a script always succeeds. -/
theorem register_succeeds (registry : Registry) (kind : ScriptKind) (id : Int64) (before : State)
    : ∃ after, register registry kind id before = .ok (registry.register kind id) after := by
  unfold register
  split
  · exact ⟨_, rfl⟩
  · exact ⟨_, rfl⟩

/-- Registering scripts one after the other succeeds, and the names of all of them are then taken;
by induction over the owners.
-/
theorem registerEach_succeeds (registry : Registry) (owners : List (ScriptKind × Int64))
    (before : State)
    : ∃ last after,
        registerEach registry owners before = .ok (registry.registerAll owners, last) after
        ∧ last.taken
          = ((registry.registerAll owners).map Registry.Entry.name).reverse ++ registry.taken := by
  induction owners generalizing registry before with
  | nil => exact ⟨registry, before, rfl, rfl⟩
  | cons owner rest ih =>
      obtain ⟨middle, first⟩ := register_succeeds registry owner.1 owner.2 before
      obtain ⟨last, after, run, taken⟩ := ih (registry.register owner.1 owner.2).2 middle
      refine ⟨last, after, ?_, ?_⟩
      · exact bind_eq_ok.mpr ⟨_, _, first, bind_eq_ok.mpr ⟨_, _, run, rfl⟩⟩
      · rw [taken, Registry.registerAll, List.map_cons, List.reverse_cons, List.append_assoc]
        rfl

/-- However rooms and tiles are named, scripts of any owners can be registered one after the other.
Their names are all different, their slots are numbered from one, and the registry counts them. A
script gets its owner's name exactly if no earlier script has it; otherwise it gets that name behind
one or more marks, the fewest for which no earlier script has the name.
-/
theorem registered_names_are_unique (rooms tiles : List (Option String))
    (owners : List (ScriptKind × Int64)) (before : State)
    : ∃ entries registry after,
        registerEach { rooms, tiles } owners before = .ok (entries, registry) after
        ∧ entries.map (fun entry => (entry.kind, entry.id)) = owners
        ∧ (entries.map Registry.Entry.name).Nodup
        ∧ entries.map Registry.Entry.slot
          = (List.range owners.length).map (fun count => "__script[" ++ toString (count + 1) ++ "]")
        ∧ registry.size = owners.length
        ∧ registry.taken.Perm (entries.map Registry.Entry.name)
        ∧ ∀ earlier entry later base,
            entries = earlier ++ entry :: later
            → base = Registry.baseName { rooms, tiles } entry.kind entry.id
            → (entry.name = base ↔ base ∉ earlier.map Registry.Entry.name)
              ∧ (base ∈ earlier.map Registry.Entry.name
                → ∃ marks,
                    entry.name = Registry.marked entry.kind entry.id base (marks + 1)
                    ∧ ∀ fewer ≤ marks,
                        Registry.marked entry.kind entry.id base fewer
                          ∈ earlier.map Registry.Entry.name) := by
  let start : Registry := { rooms, tiles }
  obtain ⟨registry, after, run, taken⟩ := registerEach_succeeds start owners before
  have owned := start.registerAll_owners owners
  have all : registry.taken.Perm ((start.registerAll owners).map Registry.Entry.name) := by
    rw [taken, List.append_nil]
    exact List.reverse_perm _
  refine ⟨_, registry, after, run, owned, (start.registerAll_names_fresh owners).1, ?_, ?_, all, ?_⟩
  · rw [start.registerAll_slots owners]
    simp [start, Registry.size]
  · have count := congrArg List.length owned
    rw [List.length_map] at count
    rw [Registry.size, all.length_eq, List.length_map, count]
  · intro earlier entry later base split own
    have named (name : String) : entry.name = name ↔ _ := Registry.registerAll_name_eq_iff split
    simp only [Registry.candidate_eq_marked, start, List.nil_append, ← own] at named
    refine ⟨?_, ?_⟩
    · rw [named]
      simp
    · intro known
      -- The name is a candidate that is free, and the first of them is taken.
      obtain ⟨unused, same | further⟩ := (named entry.name).mp rfl
      · rw [same] at unused
        exact (unused known).elim
      · exact further

/-- Owners whose names get in each other's way: a room is called what the script of a tile would be
called behind its first mark, and the tile comes twice.
-/
def chainedOwners : List (ScriptKind × Int64) :=
  [(.room, 1), (.room, 0), (.tile, 0), (.tile, 0), (.tile, 1)]

/-- A script whose base name and first marked name are both taken gets a second mark, and the same
owner a third one.
-/
theorem registered_names_of_chained
    : ∃ entries registry after,
        registerEach { rooms := [some "start", some "_2_0_start"], tiles := [some "start"] }
            chainedOwners {}
          = .ok (entries, registry) after
        ∧ entries.map Registry.Entry.name
          = ["_2_0_start", "start", "_2_0__2_0_start", "_2_0__2_0__2_0_start",
            "__UNKNOWN_SCRIPT_2_1"]
        ∧ registry.size = 5 := by
  obtain ⟨entries, registry, after, run, -, -, -, size, -⟩ :=
    registered_names_are_unique [some "start", some "_2_0_start"] [some "start"] chainedOwners {}
  have value
      : (match registerEach { rooms := [some "start", some "_2_0_start"], tiles := [some "start"] }
            chainedOwners {} with
          | .ok (entries, _) _ => entries.map Registry.Entry.name
          | .error _ _ => [])
        = ["_2_0_start", "start", "_2_0__2_0_start", "_2_0__2_0__2_0_start",
          "__UNKNOWN_SCRIPT_2_1"] := by
    decide +kernel
  simp only [run] at value
  exact ⟨entries, registry, after, run, value, size⟩

end Codegen

end TileLua
