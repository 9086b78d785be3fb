import Mathlib.Data.List.Nodup
import Mathlib.Data.List.Perm.Subperm
import TileLua.Script.Registry

/-! The names that scripts are registered under.
A script gets the first of its candidate names that no script before it has. The candidates of a
script are all distinct, so there is always one that is free within the bound of the search.
-/

namespace TileLua

/-- A search through distinct candidates succeeds if those it refuses are all in a list that is no
longer than its bound.
-/
theorem Search.least_passes_of_injective {α : Type} {candidate : Nat → α} {test : Nat → Bool}
    {taken : List α} (distinct : Function.Injective candidate)
    (refused : ∀ index, test index = false → candidate index ∈ taken)
    : test (least test taken.length) = true := by
  rcases Nat.lt_or_ge (least test taken.length) taken.length with early | late
  · exact least_passes early
  · have last : least test taken.length = taken.length := Nat.le_antisymm (least_le _ _) late
    by_contra fails
    rw [Bool.not_eq_true] at fails
    have all : (List.range (taken.length + 1)).map candidate ⊆ taken := by
      intro name member
      obtain ⟨index, inRange, rfl⟩ := List.mem_map.mp member
      apply refused
      rcases Nat.lt_or_ge index taken.length with below | above
      · exact eq_false_of_lt_least (last ▸ below)
      · have same : index = taken.length := by
          have bound := List.mem_range.mp inRange
          omega
        rw [same, ← last]
        exact fails
    have count := (List.subperm_of_subset (List.nodup_range.map distinct) all).length_le
    simp only [List.length_map, List.length_range] at count
    omega

namespace Registry

/-- Every mark makes a candidate longer. -/
theorem candidate_length_lt (kind : ScriptKind) (id : Int64) (base : String) {fewer more : Nat}
    (less : fewer < more)
    : (candidate kind id base fewer).length < (candidate kind id base more).length := by
  induction more with
  | zero => omega
  | succ more ih =>
      have step : (candidate kind id base more).length
          < (candidate kind id base (more + 1)).length := by
        simp only [candidate, String.length_append]
        have mark : "_".length = 1 := rfl
        omega
      rcases Nat.lt_succ_iff_lt_or_eq.mp less with below | rfl
      · exact Nat.lt_trans (ih below) step
      · exact step

theorem candidate_injective (kind : ScriptKind) (id : Int64) (base : String)
    : Function.Injective (candidate kind id base) := by
  intro first second same
  rcases Nat.lt_trichotomy first second with less | equal | greater
  · have shorter := candidate_length_lt kind id base less
    rw [same] at shorter
    omega
  · exact equal
  · have shorter := candidate_length_lt kind id base greater
    rw [same] at shorter
    omega

/-- A script gets the first candidate that no earlier script has. -/
theorem exists_freeName (registry : Registry) (kind : ScriptKind) (id : Int64)
    : ∃ marks,
        registry.freeName kind id = candidate kind id (registry.baseName kind id) marks
        ∧ registry.freeName kind id ∉ registry.taken
        ∧ ∀ fewer < marks,
            candidate kind id (registry.baseName kind id) fewer ∈ registry.taken := by
  have refused (index : Nat)
      (fails : (!registry.taken.contains (candidate kind id (registry.baseName kind id) index))
        = false)
      : candidate kind id (registry.baseName kind id) index ∈ registry.taken := by
    simpa using fails
  refine ⟨_, rfl, ?_, ?_⟩
  · have free := Search.least_passes_of_injective
      (candidate_injective kind id (registry.baseName kind id)) refused
    simpa [freeName] using free
  · intro fewer less
    exact refused fewer (Search.eq_false_of_lt_least less)

/-- A script is registered under a name exactly if no earlier script has that name, and it is the
script's base name or a marked form of it whose shorter forms earlier scripts all have.
-/
theorem freeName_eq_iff (registry : Registry) (kind : ScriptKind) (id : Int64) (name : String)
    : registry.freeName kind id = name
      ↔ name ∉ registry.taken
        ∧ (name = registry.baseName kind id
          ∨ ∃ marks,
              name = candidate kind id (registry.baseName kind id) (marks + 1)
              ∧ ∀ fewer ≤ marks,
                  candidate kind id (registry.baseName kind id) fewer ∈ registry.taken) := by
  obtain ⟨marks, shape, free, shorter⟩ := exists_freeName registry kind id
  constructor
  · rintro rfl
    refine ⟨free, ?_⟩
    cases marks with
    | zero => exact Or.inl shape
    | succ marks =>
        exact Or.inr ⟨marks, shape, fun fewer less => shorter fewer (Nat.lt_succ_of_le less)⟩
  · rintro ⟨unused, own⟩
    obtain ⟨other, rfl, otherShorter⟩ : ∃ other,
        name = candidate kind id (registry.baseName kind id) other
        ∧ ∀ fewer < other,
            candidate kind id (registry.baseName kind id) fewer ∈ registry.taken := by
      rcases own with rfl | ⟨marks, rfl, taken⟩
      · exact ⟨0, rfl, fun fewer less => absurd less (Nat.not_lt_zero fewer)⟩
      · exact ⟨marks + 1, rfl, fun fewer less => taken fewer (Nat.le_of_lt_succ less)⟩
    rw [shape] at free ⊢
    rcases Nat.lt_trichotomy marks other with less | rfl | greater
    · exact (free (otherShorter marks less)).elim
    · rfl
    · exact (unused (shorter other greater)).elim

/-- The entries that scripts of the given owners get, one after the other. -/
def registerAll : Registry → List (ScriptKind × Int64) → List Entry
  | _, [] => []
  | registry, (kind, id) :: rest =>
      (registry.register kind id).1 :: (registry.register kind id).2.registerAll rest

/-- Each entry has the first free name among its candidates, where the names of the entries before
it are taken; by induction over the owners.
-/
theorem registerAll_name_eq_iff {registry : Registry} {owners : List (ScriptKind × Int64)}
    {earlier later : List Entry} {entry : Entry} {name : String}
    (split : registry.registerAll owners = earlier ++ entry :: later)
    : entry.name = name
      ↔ name ∉ registry.taken ++ earlier.map Entry.name
        ∧ (name = registry.baseName entry.kind entry.id
          ∨ ∃ marks,
              name = candidate entry.kind entry.id
                (registry.baseName entry.kind entry.id) (marks + 1)
              ∧ ∀ fewer ≤ marks,
                  candidate entry.kind entry.id (registry.baseName entry.kind entry.id) fewer
                    ∈ registry.taken ++ earlier.map Entry.name) := by
  induction owners generalizing registry earlier with
  | nil => simp [registerAll] at split
  | cons owner rest ih =>
      obtain ⟨kind, id⟩ := owner
      cases earlier with
      | nil =>
          obtain ⟨rfl, -⟩ := List.cons.inj split
          simpa [register] using freeName_eq_iff registry kind id name
      | cons first earlier =>
          obtain ⟨rfl, below⟩ := List.cons.inj split
          have same (kind' : ScriptKind) (id' : Int64)
              : (registry.register kind id).2.baseName kind' id' = registry.baseName kind' id' :=
            rfl
          have member (other : String)
              : other ∈ (registry.register kind id).2.taken ++ earlier.map Entry.name
                ↔ other ∈ registry.taken
                  ++ ((registry.register kind id).1 :: earlier).map Entry.name := by
            simp only [register, List.cons_append, List.mem_cons, List.mem_append, List.map_cons]
            tauto
          rw [ih below]
          simp only [member, same]

end Registry

end TileLua
