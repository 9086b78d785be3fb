import TileLua.Proofs.Codegen.Run
import TileLua.Proofs.Script.RegistryNames
import TileLua.Proofs.Variable.Names

/-! The names that routes are called by.
Different routes can ask for the same name, and a numbered name of one can be the plain name of
another. A route gets the first of its candidates that no other route has. All candidates before it
stay occupied by other routes from then on, so the route finds the same name again.
-/

namespace TileLua

-----------------------------------------------------------------------------------------
-- Candidates
-----------------------------------------------------------------------------------------

namespace Route

theorem toString_injective : Function.Injective (toString : Nat → String) := by
  intro first second same
  have digits : Nat.toDigits 10 first = Nat.toDigits 10 second := by
    rw [← Nat.toList_repr, ← Nat.toList_repr, ← Nat.toString_eq_repr, ← Nat.toString_eq_repr, same]
  calc
    first = Nat.ofDigitChars 10 (Nat.toDigits 10 first) 0 := Nat.ofDigitChars_ten_toDigits.symm
    _ = Nat.ofDigitChars 10 (Nat.toDigits 10 second) 0 := by rw [digits]
    _ = second := Nat.ofDigitChars_ten_toDigits

/-- A numbered candidate is longer than the plain one, and numbers are written differently. -/
theorem candidate_injective (route : Route) : Function.Injective route.candidate := by
  have longer (index : Nat) : route.candidate 0 ≠ route.candidate (index + 1) := by
    intro same
    have lengths := congrArg String.length same
    simp only [candidate, String.length_append] at lengths
    have mark : "_".length = 1 := rfl
    omega
  intro first second same
  cases first with
  | zero =>
      cases second with
      | zero => rfl
      | succ second => exact (longer second same).elim
  | succ first =>
      cases second with
      | zero => exact (longer first same.symm).elim
      | succ second =>
          have lists := congrArg String.toList same
          simp only [candidate, String.toList_append] at lists
          have numbers := toString_injective (String.toList_inj.mp (List.append_cancel_left lists))
          omega

/-- A candidate is the lead and characters of names. -/
theorem toList_candidate (route : Route) (index : Nat)
    : ∃ rest,
        (route.candidate index).toList = lead.toList ++ rest
        ∧ ∀ c ∈ rest, Lua.isNameChar c = true := by
  have plain (text : String) : ∀ c ∈ (nameText text).toList, Lua.isNameChar c = true := by
    intro c member
    rw [nameText, String.toList_ofList] at member
    obtain ⟨original, _, rfl⟩ := List.mem_map.mp member
    split
    · assumption
    · decide
  cases index with
  | zero => exact ⟨_, String.toList_append, plain _⟩
  | succ index =>
      refine ⟨(nameText (route.script ++ "_" ++ route.handler)).toList
        ++ ("_".toList ++ (toString (index + 2)).toList), ?_, ?_⟩
      · simp only [candidate, baseName, String.toList_append, List.append_assoc]
      · intro c member
        rcases List.mem_append.mp member with base | number
        · exact plain _ c base
        · rcases List.mem_append.mp number with mark | digit
          · rw [List.mem_singleton.mp mark]
            decide
          · rw [Nat.toString_eq_repr, Nat.toList_repr] at digit
            have isDigit := Nat.isDigit_of_mem_toDigits (by decide) (by decide) digit
            simp [Lua.isNameChar, Char.isAlphanum, isDigit]

theorem startsWith_candidate (route : Route) (index : Nat)
    : Text.startsWith (route.candidate index) lead = true := by
  obtain ⟨rest, letters, -⟩ := route.toList_candidate index
  rw [Text.startsWith, letters, List.isPrefixOf_iff_prefix]
  exact List.prefix_append _ _

/-- Every candidate is an identifier, since its lead begins with an underscore. -/
theorem isIdentifier_candidate (route : Route) (index : Nat)
    : Lua.isIdentifier (route.candidate index) = true := by
  obtain ⟨rest, letters, named⟩ := route.toList_candidate index
  have shape : lead.toList = '_' :: "_OPTTAG__".toList := by decide
  have marks : ∀ c ∈ "_OPTTAG__".toList, Lua.isNameChar c = true := Lua.isNameChar_of_letters
  rw [shape, List.cons_append] at letters
  refine Lua.isIdentifier_of_underscore letters (fun c member => ?_)
  rcases List.mem_append.mp member with mark | later
  · exact marks c mark
  · exact named c later

end Route

-----------------------------------------------------------------------------------------
-- The name of a route
-----------------------------------------------------------------------------------------

namespace Routes

theorem eq_of_accepts {routes : Routes} {route other : Route} {name : String}
    (accepted : routes.accepts route name = true) (found : routes[name]? = some other)
    : other = route := by
  rw [accepts, found] at accepted
  exact eq_of_beq accepted

theorem accepts_eq_false_iff {routes : Routes} {route : Route} {name : String}
    : routes.accepts route name = false ↔ ∃ other, other ≠ route ∧ routes[name]? = some other := by
  unfold accepts
  cases routes[name]? with
  | none => simp
  | some found => simp

/-- The name of a route is its first candidate that is free or already stands for it: there is one
within the bound of the search, since at most as many candidates are refused as there are routes.
-/
theorem exists_nameOf (routes : Routes) (route : Route)
    : ∃ index,
        routes.nameOf route = route.candidate index
        ∧ routes.accepts route (routes.nameOf route) = true
        ∧ ∀ earlier < index, routes.accepts route (route.candidate earlier) = false := by
  refine ⟨_, rfl, ?_, fun earlier less => Search.eq_false_of_lt_least less⟩
  have refused (index : Nat) (fails : routes.accepts route (route.candidate index) = false)
      : route.candidate index ∈ routes.keys := by
    obtain ⟨other, -, found⟩ := accepts_eq_false_iff.mp fails
    rw [Std.TreeMap.mem_keys, Std.TreeMap.mem_iff_isSome_getElem?, found]
    rfl
  have passes := Search.least_passes_of_injective route.candidate_injective refused
  rw [Std.TreeMap.length_keys] at passes
  exact passes

/-- The routes with one more, unless it has a name already. -/
def add (routes : Routes) (route : Route) : Routes :=
  if routes.contains (routes.nameOf route) then routes
  else routes.insert (routes.nameOf route) route

/-- The name of a route stands for it once it is added, and other names stand for what they did. -/
theorem getElem?_add (routes : Routes) (route : Route) (name : String)
    : (routes.add route)[name]?
      = if name = routes.nameOf route then some route else routes[name]? := by
  obtain ⟨-, -, accepted, -⟩ := routes.exists_nameOf route
  unfold add
  split
  · rename_i present
    split
    · rename_i same
      obtain ⟨other, found⟩ := Option.isSome_iff_exists.mp
        (Std.TreeMap.mem_iff_isSome_getElem?.mp (Std.TreeMap.contains_iff_mem.mp present))
      rw [same, found, eq_of_accepts accepted found]
    · rfl
  · rw [Std.TreeMap.getElem?_insert]
    simp only [Std.LawfulEqCmp.compare_eq_iff_eq, eq_comm (a := name)]

/-- A name that stands for a route keeps to it. -/
theorem getElem?_add_of_found {routes : Routes} {name : String} {found : Route} (route : Route)
    (known : routes[name]? = some found)
    : (routes.add route)[name]? = some found := by
  obtain ⟨-, -, accepted, -⟩ := routes.exists_nameOf route
  rw [getElem?_add]
  split
  · rename_i same
    rw [same] at known
    rw [eq_of_accepts accepted known]
  · exact known

-----------------------------------------------------------------------------------------
-- Placed routes
-----------------------------------------------------------------------------------------

/-- Every route has a candidate of its own for a name, and other routes have all candidates before
it.
-/
def Placed (routes : Routes) : Prop :=
  ∀ (name : String) (route : Route),
    routes[name]? = some route
    → ∃ index,
        name = route.candidate index
        ∧ ∀ earlier < index, ∃ other, other ≠ route ∧ routes[route.candidate earlier]? = some other

theorem Placed.empty : Placed {} := by
  intro name route found
  simp at found

theorem Placed.add {routes : Routes} (placed : routes.Placed) (route : Route)
    : (routes.add route).Placed := by
  have occupied {target : Route} {index : Nat}
      (taken : ∃ other, other ≠ target ∧ routes[target.candidate index]? = some other)
      : ∃ other, other ≠ target ∧ (routes.add route)[target.candidate index]? = some other := by
    obtain ⟨other, different, found⟩ := taken
    exact ⟨other, different, getElem?_add_of_found route found⟩
  intro name target found
  rw [getElem?_add] at found
  split at found
  · rename_i same
    cases found
    obtain ⟨index, shape, -, refused⟩ := routes.exists_nameOf route
    refine ⟨index, same.trans shape, fun earlier less => ?_⟩
    exact occupied (accepts_eq_false_iff.mp (refused earlier less))
  · obtain ⟨index, shape, taken⟩ := placed name target found
    exact ⟨index, shape, fun earlier less => occupied (taken earlier less)⟩

/-- No route has two names: the candidate of the later one would come after a candidate that stands
for the route itself.
-/
theorem Placed.name_unique {routes : Routes} (placed : routes.Placed) {first second : String}
    {route : Route} (left : routes[first]? = some route) (right : routes[second]? = some route)
    : first = second := by
  obtain ⟨low, rfl, takenLow⟩ := placed first route left
  obtain ⟨high, rfl, takenHigh⟩ := placed second route right
  rcases Nat.lt_trichotomy low high with less | equal | greater
  · obtain ⟨other, different, found⟩ := takenHigh low less
    rw [left] at found
    exact (different (Option.some.inj found).symm).elim
  · rw [equal]
  · obtain ⟨other, different, found⟩ := takenLow high greater
    rw [right] at found
    exact (different (Option.some.inj found).symm).elim

-----------------------------------------------------------------------------------------
-- Runs
-----------------------------------------------------------------------------------------

/-- What calls for the names of routes do to the routes: each call's route stands under the name
that it got, nothing else is added, and what was there stays.
-/
structure Names (before : Routes) (calls : List (Route × String)) (after : Routes) : Prop where
  kept : ∀ (name : String) (route : Route), before[name]? = some route → after[name]? = some route
  named : ∀ call ∈ calls, after[call.2]? = some call.1
  called
    : ∀ (name : String) (route : Route),
        after[name]? = some route → before[name]? = some route ∨ (route, name) ∈ calls
  placed : before.Placed → after.Placed

namespace Names

theorem nil (routes : Routes) : routes.Names [] routes where
  kept := fun _ _ => id
  named := by
    intro call member
    cases member
  called := fun _ _ => Or.inl
  placed := id

/-- A call names its route, and further calls keep to that. -/
theorem cons {routes after : Routes} {route : Route} {calls : List (Route × String)}
    (rest : (routes.add route).Names calls after)
    : routes.Names ((route, routes.nameOf route) :: calls) after where
  kept := fun name target found => rest.kept name target (getElem?_add_of_found route found)
  named := by
    intro call member
    rcases List.mem_cons.mp member with rfl | later
    · apply rest.kept
      rw [getElem?_add, if_pos rfl]
    · exact rest.named call later
  called := by
    intro name target found
    rcases rest.called name target found with earlier | later
    · rw [getElem?_add] at earlier
      split at earlier
      · rename_i same
        cases earlier
        rw [same]
        exact Or.inr (List.mem_cons_self ..)
      · exact Or.inl earlier
    · exact Or.inr (List.mem_cons_of_mem _ later)
  placed := fun placed => rest.placed (placed.add route)

end Names

end Routes

namespace Codegen

theorem route_eq_ok (target : Route) (before : State)
    : ∃ journal,
        route target before
        = .ok (before.routes.nameOf target)
            { before with routes := before.routes.add target, journal } := by
  rw [route_apply, Routes.add]
  split
  · exact ⟨before.journal, rfl⟩
  · exact ⟨_, rfl⟩

/-- The name of a route is an identifier that stands for it. -/
theorem route_stands {target : Route} {before after : State} {name : String}
    (run : route target before = .ok name after)
    : after.routes[name]? = some target ∧ Lua.isIdentifier name = true := by
  obtain ⟨journal, result⟩ := route_eq_ok target before
  rw [result] at run
  cases run
  obtain ⟨index, shape, -, -⟩ := before.routes.exists_nameOf target
  refine ⟨?_, ?_⟩
  · rw [Routes.getElem?_add, if_pos rfl]
  · rw [shape]
    exact target.isIdentifier_candidate index

/-- Calls for the names of routes succeed one after the other, by induction over them. -/
theorem routes_names (targets : List Route) (before : State)
    : ∃ names after,
        targets.mapM route before = .ok names after
        ∧ names.length = targets.length
        ∧ before.routes.Names (targets.zip names) after.routes := by
  induction targets generalizing before with
  | nil => exact ⟨[], before, rfl, rfl, .nil _⟩
  | cons first rest ih =>
      obtain ⟨journal, run⟩ := route_eq_ok first before
      obtain ⟨names, after, runs, length, named⟩ :=
        ih { before with routes := before.routes.add first, journal }
      refine ⟨before.routes.nameOf first :: names, after, ?_, ?_, ?_⟩
      · rw [List.mapM_cons]
        exact bind_eq_ok.mpr ⟨_, _, run, bind_eq_ok.mpr ⟨_, _, runs, rfl⟩⟩
      · rw [List.length_cons, List.length_cons, length]
      · exact named.cons

/-- However calls are split in two parts, what stands after the first stands after the second. -/
theorem routes_kept {earlier later : List Route} {before after : State} {names : List String}
    (run : (earlier ++ later).mapM route before = .ok names after)
    : ∃ first middle last,
        earlier.mapM route before = .ok first middle
        ∧ later.mapM route middle = .ok last after
        ∧ names = first ++ last
        ∧ ∀ (name : String) (target : Route),
            middle.routes[name]? = some target → after.routes[name]? = some target := by
  obtain ⟨first, middle, runFirst, -, -⟩ := routes_names earlier before
  obtain ⟨last, final, runLast, -, named⟩ := routes_names later middle
  have whole : (earlier ++ later).mapM route before = .ok (first ++ last) final := by
    rw [List.mapM_append]
    exact bind_eq_ok.mpr ⟨_, _, runFirst, bind_eq_ok.mpr ⟨_, _, runLast, rfl⟩⟩
  rw [run] at whole
  cases whole
  exact ⟨first, middle, last, runFirst, runLast, rfl, named.kept⟩

/-- What calls for the names of routes leave behind that began without any route. -/
structure Distinguished (targets : List Route) (before : State) (names : List String)
    (after : State) : Prop where
  length : names.length = targets.length
  /-- Two calls get the same name exactly if they are for the same route. -/
  same_iff
    : ∀ call ∈ targets.zip names, ∀ other ∈ targets.zip names, call.2 = other.2 ↔ call.1 = other.1
  /-- The routes are exactly those of the calls. -/
  stands_iff (name : String) (target : Route)
    : after.routes[name]? = some target ↔ (target, name) ∈ targets.zip names
  /-- No route has two names. -/
  name_unique (name other : String) (target : Route)
    : after.routes[name]? = some target → after.routes[other]? = some target → name = other
  /-- What stands after some of the calls is not changed by the others. -/
  kept (earlier later : List Route)
    : targets = earlier ++ later
      → ∃ first middle last,
          earlier.mapM route before = .ok first middle
          ∧ later.mapM route middle = .ok last after
          ∧ names = first ++ last
          ∧ ∀ (name : String) (target : Route),
              middle.routes[name]? = some target → after.routes[name]? = some target
  /-- Every name is an identifier with the common lead, and the first candidate of its route that no
  other route has.
  -/
  candidate
    : ∀ call ∈ targets.zip names,
        Lua.isIdentifier call.2 = true
        ∧ Text.startsWith call.2 Route.lead = true
        ∧ ∃ index,
            call.2 = call.1.candidate index
            ∧ ∀ lower < index,
                ∃ other,
                  other ≠ call.1
                  ∧ after.routes[call.1.candidate lower]? = some other

/-- Calls for the names of any routes succeed when there are none yet, and their names tell the
routes apart.
-/
theorem route_names_distinguish (targets : List Route) (before : State)
    (fresh : before.routes = {})
    : ∃ names after,
        targets.mapM route before = .ok names after
        ∧ Distinguished targets before names after := by
  obtain ⟨names, after, run, length, named⟩ := routes_names targets before
  have placed : after.routes.Placed := by
    apply named.placed
    rw [fresh]
    exact .empty
  refine ⟨names, after, run, ?_⟩
  constructor
  case length => exact length
  case same_iff =>
    intro call member other otherMember
    have stands := named.named call member
    have otherStands := named.named other otherMember
    constructor
    · intro same
      rw [same, otherStands] at stands
      exact (Option.some.inj stands).symm
    · intro same
      rw [same] at stands
      exact placed.name_unique stands otherStands
  case stands_iff =>
    intro name target
    constructor
    · intro found
      rcases named.called name target found with earlier | called
      · simp [fresh] at earlier
      · exact called
    · exact named.named (target, name)
  case name_unique => exact fun name other target => placed.name_unique
  case kept =>
    intro earlier later split
    rw [split] at run
    exact routes_kept run
  case candidate =>
    intro call member
    obtain ⟨index, shape, taken⟩ := placed call.2 call.1 (named.named call member)
    refine ⟨?_, ?_, index, shape, taken⟩
    · rw [shape]
      exact call.1.isIdentifier_candidate index
    · rw [shape]
      exact call.1.startsWith_candidate index

/-- Routes that get in each other's way: the second asks for the second candidate of the others. -/
def crowded : List Route :=
  [⟨"a b", "c"⟩, ⟨"a", "b_c_2"⟩, ⟨"a", "b c"⟩, ⟨"a b", "c"⟩]

/-- A route that finds two candidates taken gets the third, and the first route keeps its name. -/
theorem route_names_of_crowded
    : ∃ names after,
        crowded.mapM route {} = .ok names after
        ∧ names
          = ["__OPTTAG__a_b_c", "__OPTTAG__a_b_c_2", "__OPTTAG__a_b_c_3", "__OPTTAG__a_b_c"]
        ∧ after.routes["__OPTTAG__a_b_c_3"]? = some ⟨"a", "b c"⟩ := by
  obtain ⟨names, after, run, distinguished⟩ := route_names_distinguish crowded {} rfl
  have value
      : (match crowded.mapM route {} with
          | .ok names _ => names
          | .error _ _ => [])
        = ["__OPTTAG__a_b_c", "__OPTTAG__a_b_c_2", "__OPTTAG__a_b_c_3", "__OPTTAG__a_b_c"] := by
    decide +kernel
  simp only [run] at value
  refine ⟨names, after, run, value, (distinguished.stands_iff _ _).mpr ?_⟩
  rw [value]
  decide

end Codegen

end TileLua
