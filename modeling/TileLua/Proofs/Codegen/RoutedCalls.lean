import TileLua.Proofs.Codegen.StepInvariant
import TileLua.Proofs.Route.Names
import TileLua.Proofs.Text.Lines

/-! Where a routed call goes.
The function that the call names, the handler that the name is bound to and the event that is handed
over are made separately. They agree if the call names its event by a literal. The handler of any
other call is the Lua text of the event, which is never the name that the text stands for.
-/

namespace TileLua

open Codegen (State Reachable)
open Text (between? between_eq_some linesOf linesOf_join)

-----------------------------------------------------------------------------------------
-- Reading bindings back
-----------------------------------------------------------------------------------------

namespace Codegen

/-- The route that a line binds a name to. -/
def bindingOf? (name line : String) : Option Route := do
  let source ← between? (name ++ " = __pulp:getScript(") "" line
  let (script, rest) ← Lua.readQuoted source.toList
  let member ← between? ")[" "" (String.ofList rest)
  let (handler, rest) ← Lua.readQuoted member.toList
  if rest = [']'] then some ⟨String.ofList script, String.ofList handler⟩ else none

/-- The routes that code binds a name to, line by line. -/
def boundRoutes (name code : String) : List Route :=
  (linesOf code).filterMap (bindingOf? name)

end Codegen

open Codegen (bindingOf? boundRoutes)

namespace Route

/-- The statement that binds a name to the handler of a route. -/
def binding (route : Route) (name : String) : String :=
  name ++ " = " ++ Engine.scriptTable route.script ++ "[" ++ Lua.quote route.handler ++ "]"

theorem binding_eq (route : Route) (name : String)
    : route.binding name
      = name ++ " = __pulp:getScript("
        ++ (Lua.quote route.script ++ (")[" ++ (Lua.quote route.handler ++ "]"))) := by
  unfold binding Engine.scriptTable
  simp [← String.toList_inj, String.toList_append]

theorem bindingOf_binding (route : Route) (name : String)
    : bindingOf? name (route.binding name) = some route := by
  have source : between? (name ++ " = __pulp:getScript(") "" (route.binding name)
      = some (Lua.quote route.script ++ (")[" ++ (Lua.quote route.handler ++ "]"))) := by
    rw [between_eq_some, binding_eq, String.append_empty]
  have member : between? ")[" "" (")[" ++ (Lua.quote route.handler ++ "]"))
      = some (Lua.quote route.handler ++ "]") := by
    rw [between_eq_some, String.append_empty]
  have script := Lua.readQuoted_quote route.script (")[" ++ (Lua.quote route.handler ++ "]")).toList
  have handler := Lua.readQuoted_quote route.handler "]".toList
  rw [← String.toList_append] at script handler
  simp only [bindingOf?, source, script, String.ofList_toList, member, handler,
    Option.bind_eq_bind, Option.bind_some]
  rfl

/-- A statement that binds one name does not bind another one, since names end before the blank. -/
theorem bindingOf_binding_of_ne {name other : String} (identifier : Lua.isIdentifier name = true)
    (otherIdentifier : Lua.isIdentifier other = true) (apart : other ≠ name) (route : Route)
    : bindingOf? name (route.binding other) = none := by
  have absent : between? (name ++ " = __pulp:getScript(") "" (route.binding other) = none := by
    rw [Option.eq_none_iff_forall_ne_some]
    intro source found
    rw [between_eq_some, binding_eq] at found
    have letters := congrArg (fun text => text.toList.takeWhile Lua.isNameChar) found
    have blank : " = __pulp:getScript(".toList = ' ' :: "= __pulp:getScript(".toList := by decide
    simp only [String.toList_append, List.append_assoc, blank, List.cons_append] at letters
    have ends : Lua.isNameChar ' ' = false := by decide
    rw [Lua.takeWhile_isNameChar otherIdentifier ends,
      Lua.takeWhile_isNameChar identifier ends] at letters
    exact apart (String.toList_inj.mp letters)
  simp [bindingOf?, absent]

theorem lineFeed_not_mem_binding (route : Route) {name : String}
    (identifier : Lua.isIdentifier name = true)
    : '\n' ∉ (route.binding name).toList := by
  have plain := Lua.lineFeed_not_mem_identifier identifier
  simp [binding_eq, String.toList_append, plain, Lua.lineFeed_not_mem_quote]

end Route

namespace Routes

theorem bindings_eq (routes : Routes)
    : routes.bindings
      = String.join
          ((routes.toList.map fun (name, route) => route.binding name).map fun line =>
            line ++ "\n") := by
  have line : "]\n" = "]" ++ "\n" := by simp
  simp only [bindings, Route.binding, List.map_map, Function.comp_def, line, String.append_assoc]

/-- A list of routes under different names has one route under each of them. -/
theorem filterMap_eq_singleton {entries : List (String × Route)} {name : String} {route : Route}
    (distinct : entries.Pairwise fun first second => first.1 ≠ second.1)
    (member : (name, route) ∈ entries)
    : entries.filterMap (fun entry => if entry.1 = name then some entry.2 else none) = [route] := by
  induction entries with
  | nil => cases member
  | cons first rest ih =>
      obtain ⟨apart, distinct⟩ := List.pairwise_cons.mp distinct
      rcases List.mem_cons.mp member with rfl | later
      · have others : rest.filterMap
            (fun entry => if entry.1 = name then some entry.2 else none) = [] := by
          rw [List.filterMap_eq_nil_iff]
          intro entry member
          exact if_neg (Ne.symm (apart entry member))
        rw [List.filterMap_cons, others]
        simp
      · rw [List.filterMap_cons, ih distinct later]
        simp [apart _ later]

/-- The statements bind each name to its route and to no other. -/
theorem Placed.boundRoutes {routes : Routes} (placed : routes.Placed) {name : String}
    {route : Route} (found : routes[name]? = some route)
    : boundRoutes name routes.bindings = [route] := by
  have identifiers {other : String} {target : Route} (listed : (other, target) ∈ routes.toList)
      : Lua.isIdentifier other = true := by
    obtain ⟨index, rfl, -⟩ :=
      placed other target (Std.TreeMap.mem_toList_iff_getElem?_eq_some.mp listed)
    exact target.isIdentifier_candidate index
  have listed := Std.TreeMap.mem_toList_iff_getElem?_eq_some.mpr found
  have single : ∀ line ∈ routes.toList.map fun (name, route) => route.binding name,
      '\n' ∉ line.toList := by
    intro line member
    obtain ⟨⟨other, target⟩, listed, rfl⟩ := List.mem_map.mp member
    exact target.lineFeed_not_mem_binding (identifiers listed)
  have distinct : routes.toList.Pairwise fun first second => first.1 ≠ second.1 := by
    refine Std.TreeMap.distinct_keys_toList.imp ?_
    intro first second apart same
    exact apart (Std.LawfulEqCmp.compare_eq_iff_eq.mpr same)
  rw [Codegen.boundRoutes, bindings_eq, linesOf_join single, List.filterMap_map,
    ← filterMap_eq_singleton distinct listed]
  refine List.filterMap_congr ?_
  intro entry member
  obtain ⟨other, target⟩ := entry
  by_cases same : other = name
  · rw [if_pos same, ← same]
    exact target.bindingOf_binding other
  · rw [if_neg same]
    exact target.bindingOf_binding_of_ne (identifiers listed) (identifiers member) same

end Routes

/-- The event that a call names by a literal. -/
def Callee.literal? : Callee → Option String
  | .name event => some event
  | .computed (.str event) => some event
  | .computed _ => none

namespace Codegen

/-- In every state that code generation can get into, the routes are placed. -/
theorem Reachable.placed {state : State} (reachable : Reachable state) : state.routes.Placed := by
  have kept : StepInvariant (State.Preserves fun _ _ routes => routes.Placed) := by
    refine preserves_invariant ?_ ?_
    · intro name before
      unfold useVariable
      split <;> exact id
    · intro target before
      obtain ⟨journal, run⟩ := route_eq_ok target before
      rw [finish_of_ok run]
      intro placed
      exact placed.add target
  obtain ⟨tiles, preserves⟩ := reachable.related kept
  exact preserves .empty

-----------------------------------------------------------------------------------------
-- The parts of a call
-----------------------------------------------------------------------------------------

/-- The text of the event that a call names. -/
def eventText (write : BlockWriter) : Callee → Codegen String
  | .name event => return Lua.quote event
  | .computed event => expr write event

theorem callForm_eq_ok {write : BlockWriter} {object : String} {callee : Callee}
    {before middle : State} {form : CallForm}
    (run : callForm write object callee before = .ok form middle)
    : eventText write callee before = .ok form.event middle
      ∧ form.handler = callee.literal?.getD form.event := by
  cases callee with
  | name event =>
      obtain ⟨rfl, rfl⟩ := pure_eq_ok.mp run
      exact ⟨rfl, rfl⟩
  | computed event =>
      obtain ⟨text, after, lowered, result⟩ := bind_eq_ok.mp run
      obtain ⟨rfl, rfl⟩ := pure_eq_ok.mp result
      refine ⟨lowered, ?_⟩
      cases event <;> rfl

/-- The literal of the handler is the text of the event exactly if the call names its event by a
literal. Otherwise the handler is that text itself, and no text is its own literal.
-/
theorem quote_handler_iff {write : BlockWriter} {callee : Callee} {before middle : State}
    {event : String} (run : eventText write callee before = .ok event middle)
    : Lua.quote (callee.literal?.getD event) = event ↔ callee.literal?.isSome = true := by
  have different : Lua.quote event ≠ event := by
    intro same
    have longer := Lua.length_lt_length_quote event
    rw [same] at longer
    omega
  cases callee with
  | name name =>
      obtain ⟨rfl, -⟩ := pure_eq_ok.mp run
      exact iff_of_true rfl rfl
  | computed tree =>
      cases tree with
      | str name =>
          obtain ⟨rfl, -⟩ := pure_eq_ok.mp run
          exact iff_of_true rfl rfl
      | _ => exact iff_of_false different (by simp [Callee.literal?])

/-- The last tag decides on the function of a call, by induction over the tags. -/
theorem routedDispatch_eq_ok {handler : String} {found dispatch : Dispatch} {tags : List RouteTag}
    {tag : RouteTag} {before after : State} (last : tags.getLast? = some tag)
    (run : routedDispatch handler found tags before = .ok dispatch after)
    : after.routes[dispatch.function]? = some ⟨tag.script, handler⟩
      ∧ Lua.isIdentifier dispatch.function = true := by
  induction tags generalizing found before with
  | nil => cases last
  | cons first rest ih =>
      obtain ⟨function, middle, routed, run⟩ := bind_eq_ok.mp run
      cases rest with
      | nil =>
          obtain ⟨rfl, rfl⟩ := pure_eq_ok.mp run
          rw [List.getLast?_singleton, Option.some.injEq] at last
          rw [← last]
          exact route_stands routed
      | cons second rest =>
          rw [List.getLast?_cons_cons] at last
          exact ih last run

/-- A call with routing tags names a function that stands for a route to the script of the last tag,
and the statements that bind the routes bind the function to that alone. The handler there is the
one that the call names if the call names its event by a literal: exactly then its literal is the
event that the call hands over. Otherwise the handler is the Lua text of the event.
-/
theorem routed_call_names_handler_iff (source : Script) (tags : Annotations) (tag : RouteTag)
    (last : tags.routes.getLast? = some tag) (callee : Callee) (before after : State)
    (text : String) (run : callSite (block source) tags callee before = .ok text after)
    : ∃ function handler event remark,
        text = function ++ "(__actor, event, " ++ event ++ ")" ++ remark
        ∧ (∃ middle, eventText (block source) callee before = .ok event middle)
        ∧ Lua.isIdentifier function = true
        ∧ after.routes[function]? = some ⟨tag.script, handler⟩
        ∧ (Reachable before
          → boundRoutes function after.routes.bindings = [⟨tag.script, handler⟩])
        ∧ handler = callee.literal?.getD event
        ∧ (Lua.quote handler = event ↔ callee.literal?.isSome = true) := by
  obtain ⟨form, middle, bound, dispatch, formed, -, routed, rfl⟩ := callSite_eq_ok run
  obtain ⟨eventRun, handler⟩ := callForm_eq_ok formed
  obtain ⟨stands, identifier⟩ := routedDispatch_eq_ok last routed
  refine ⟨dispatch.function, form.handler, form.event, _, dispatch.text_eq form.event,
    ⟨middle, eventRun⟩, identifier, stands, ?_, handler, ?_⟩
  · intro reachable
    have lowered : Reachable (finish (command source (block source) tags (.call callee)) before) :=
      .after reachable (.command source tags (.call callee))
    have whole : command source (block source) tags (.call callee) before
        = .ok (some (dispatch.text form.event)) after := by
      rw [command, map_eq_pure_bind]
      exact bind_eq_ok.mpr ⟨_, _, run, rfl⟩
    rw [finish_of_ok whole] at lowered
    exact lowered.placed.boundRoutes stands
  · rw [handler]
    exact quote_handler_iff eventRun

/-- A call whose event is put together from a single literal hands over that event, but the function
that it calls is bound to a handler whose name has quotes of its own.
-/
theorem routed_call_of_format_misses
    : ∃ text after function handler event remark,
        callSite (block { name := "hub" }) { routes := [⟨"door", "[SCRIPT:door]"⟩] }
          (.computed (.format [.str "open"])) {} = .ok text after
        ∧ text = function ++ "(__actor, event, " ++ event ++ ")" ++ remark
        ∧ event = Lua.quote "open"
        ∧ boundRoutes function after.routes.bindings = [⟨"door", handler⟩]
        ∧ handler = Lua.quote "open"
        ∧ Lua.quote handler ≠ event := by
  obtain ⟨text, after, run⟩
      : ∃ text after,
          callSite (block { name := "hub" }) { routes := [⟨"door", "[SCRIPT:door]"⟩] }
            (.computed (.format [.str "open"])) {} = .ok text after :=
    exists_ok_of_succeeds (by decide +kernel)
  obtain ⟨function, handler, event, remark, shape, lowered, -, -, bound, named, agrees⟩ :=
    routed_call_names_handler_iff { name := "hub" } _ ⟨"door", "[SCRIPT:door]"⟩ rfl _ {} after text
      run
  obtain ⟨middle, eventRun⟩ := lowered
  have value
      : (match eventText (block { name := "hub" }) (.computed (.format [.str "open"])) {} with
          | .ok event _ => event
          | .error _ _ => "")
        = Lua.quote "open" := by
    decide +kernel
  simp only [eventRun] at value
  exact ⟨text, after, function, handler, event, remark, run, shape, value, bound (.start {}),
    named.trans value, fun same => Bool.false_ne_true (agrees.mp same)⟩

end Codegen

end TileLua
