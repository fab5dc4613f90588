import BundlePlan.Proofs.Closure

/-! Resolution depends on nothing but what it asks for: two resolvers that give the same answers
about the plugins found by the first take the same steps, and so have the same outcome. -/
namespace BundlePlan.Resolver
open Worklist

/-- The two resolvers cannot be told apart by following this module: both or neither can look it
up, and it has the same declared and the same extra dependencies. -/
structure Agree (first second : Resolver) (platform : Platform) (id : ModuleId) : Prop where
  loads : (first.lookup id).value.isOk = (second.lookup id).value.isOk
  declared : declaredBy (first.lookup id).value = declaredBy (second.lookup id).value
  row : first.table.extra id platform = second.table.extra id platform

variable {first second : Resolver} {platform : Platform} {initial : ModuleSet} {id : ModuleId}

namespace Agree

private theorem of_failures {failure other : LookupFailure}
    (failed : (first.lookup id).value = .error failure)
    (failedToo : (second.lookup id).value = .error other)
    (row : first.table.extra id platform = second.table.extra id platform) :
    Agree first second platform id := by
  refine ⟨?_, ?_, row⟩
  · rw [failed, failedToo]
    rfl
  · rw [failed, failedToo]
    rfl

private theorem of_declarations {declaration other : Declaration}
    (loaded : (first.lookup id).value = .ok declaration)
    (loadedToo : (second.lookup id).value = .ok other)
    (same : ∀ target, target ∈ declaration.dependencies ↔ target ∈ other.dependencies)
    (row : first.table.extra id platform = second.table.extra id platform) :
    Agree first second platform id := by
  refine ⟨?_, ?_, row⟩
  · rw [loaded, loadedToo]
    rfl
  · rw [loaded, loadedToo]
    exact ModuleSet.ext_mem same

private theorem contribution (agree : Agree first second platform id) :
    first.contribution platform id = second.contribution platform id := by
  unfold Resolver.contribution
  rw [agree.declared, agree.row]

private theorem outgoing (agree : Agree first second platform id) :
    first.outgoing platform id = second.outgoing platform id := by
  unfold Resolver.outgoing
  rw [agree.contribution]

private theorem answer (agree : Agree first second platform id) (resolution : Resolution) :
    (answer id resolution (first.lookup id).value).value =
      (answer id resolution (second.lookup id).value).value := by
  have loads := agree.loads
  cases mine : (first.lookup id).value with
  | ok declaration =>
    cases yours : (second.lookup id).value with
    | ok other => rfl
    | error failure => simp [mine, yours, Except.isOk, Except.toBool] at loads
  | error failure =>
    cases yours : (second.lookup id).value with
    | ok other => simp [mine, yours, Except.isOk, Except.toBool] at loads
    | error other => rfl

end Agree

theorem isPlugin_congr (scope : first.scope = second.scope) (id : ModuleId) :
    first.isPlugin id = second.isPlugin id := by
  unfold isPlugin
  rw [scope]

private theorem Needs.congr (scope : first.scope = second.scope) {target : ModuleId}
    (agree : first.isPlugin id = true → Agree first second platform id)
    (needed : second.Needs platform id target) : first.Needs platform id target := by
  obtain ⟨plugin, kind, contributed⟩ := needs_iff.1 needed
  rw [← isPlugin_congr scope] at plugin
  rw [← (agree plugin).contribution] at contributed
  exact needs_iff.2 ⟨plugin, kind, contributed⟩

private theorem Reachable.congr (scope : first.scope = second.scope)
    (agree : ∀ id, first.Reachable platform initial id → first.isPlugin id = true →
      Agree first second platform id)
    (reached : second.Reachable platform initial id) : first.Reachable platform initial id := by
  apply reached.of_closed (first.Reachable platform initial)
  · intro start member
    exact .start member
  · intro origin target here needed
    exact here.step (needed.congr scope (agree origin here))

/-- While only reachable modules wait, both resolvers take the same next step. -/
theorem next?_congr (scope : first.scope = second.scope)
    (agree : ∀ id, first.Reachable platform initial id → first.isPlugin id = true →
      Agree first second platform id)
    (state : Worklist) (accounted : state.Accounted first platform initial) :
    state.next? first platform = state.next? second platform := by
  match state, accounted with
  | head _ [], _ => rfl
  | head _ (_ :: _), _ => rfl
  | inside _ (_ :: _) _ _, _ => rfl
  | inside _ [] [] _, _ => rfl
  | inside resolution [] (id :: queue) found, ⟨followed, accounts⟩ =>
    have waits : id ∈ resolution.graph.vertices := by
      rw [accounts.order]
      simp
    have plugins := isPlugin_congr scope id
    by_cases plugin : first.isPlugin id = true
    · have same := agree id (accounts.reached id waits) plugin
      rw [plugin] at plugins
      simp only [next?, plugin, ← plugins, if_true, same.answer, same.outgoing]
    · rw [Bool.not_eq_true] at plugin
      rw [plugin] at plugins
      simp only [next?, plugin, ← plugins]
      rfl

private theorem leads_congr (scope : first.scope = second.scope)
    (agree : ∀ id, first.Reachable platform initial id → first.isPlugin id = true →
      Agree first second platform id)
    {state : Worklist} (leads : Leads first platform (seed initial) state) :
    Leads second platform (seed initial) state := by
  induction leads with
  | refl => exact .refl
  | tail earlier step ih =>
    rw [next?_congr scope agree _ (Worklist.accounted earlier)] at step
    exact ih.tail step

theorem Worklist.leads_of_stopped {resolver : Resolver} {start state stopped : Worklist}
    (leads : Leads resolver platform start stopped) (ends : stopped.next? resolver platform = none)
    (leadsToo : Leads resolver platform start state) : Leads resolver platform state stopped := by
  have single : Relator.RightUnique fun before after : Worklist =>
      before.next? resolver platform = some after := by
    intro before after another step stepToo
    exact Option.some.inj (step.symm.trans stepToo)
  rcases leads.total_of_right_unique single leadsToo with further | onward
  · rcases further.cases_head with rfl | ⟨next, step, _⟩
    · exact .refl
    · rw [ends] at step
      cases step
  · exact onward

private theorem Worklist.eq_of_stopped {resolver : Resolver} {start one other : Worklist}
    (leads : Leads resolver platform start one) (stopped : one.next? resolver platform = none)
    (leadsToo : Leads resolver platform start other)
    (stoppedToo : other.next? resolver platform = none) : one = other := by
  have onward : Leads resolver platform one other := leads_of_stopped leadsToo stoppedToo leads
  rcases onward.cases_head with same | ⟨next, step, _⟩
  · exact same
  · rw [stopped] at step
    cases step

/-- Two resolvers for one namespace that agree on the plugins found by the first find the same: all
that can be seen of a run is part of its resolution, or computed from it. They agree whatever is
said of other modules and other platforms, whyever a lookup fails and in whatever form the same
dependencies are declared. -/
theorem resolve_local (first second : Resolver) (scope : first.scope = second.scope)
    (platform : Platform) (initial : ModuleSet) (bounded : first.Bounded platform initial) :
    let result := (first.resolve platform initial bounded).value
    ((∀ id ∈ result.modules, first.isPlugin id = true → Agree first second platform id) →
      ∃ boundedToo : second.Bounded platform initial,
        (second.resolve platform initial boundedToo).value = result) ∧
    (∀ id failure other, (first.lookup id).value = .error failure →
      (second.lookup id).value = .error other →
      first.table.extra id platform = second.table.extra id platform →
      Agree first second platform id) ∧
    ∀ id answer dependencies, (first.lookup id).value = .ok (.query answer) →
      (second.lookup id).value = .ok (.fixed dependencies) →
      (∀ target, target ∈ answer ↔ target ∈ dependencies) →
      first.table.extra id platform = second.table.extra id platform →
      Agree first second platform id := by
  intro result
  refine ⟨fun found => ?_, fun id failure other failed failedToo row => ?_,
    fun id answer dependencies loaded loadedToo same row => ?_⟩
  · have accounts : Accounts first platform initial result.graph.vertices [] [] result :=
      accounts_resolve bounded
    have agree : ∀ id, first.Reachable platform initial id → first.isPlugin id = true →
        Agree first second platform id := by
      intro id reached
      exact found id (accounts.mem_modules_iff.2 reached)
    have finite : {id | second.Reachable platform initial id}.Finite := by
      apply (bounded_iff_finite.1 bounded).subset
      intro id reached
      exact reached.congr scope agree
    have boundedToo : second.Bounded platform initial := bounded_iff_finite.2 finite
    -- Agreement is known only where the first run goes, so its steps are carried over to the second
    -- resolver, which cannot stop anywhere else.
    have leads : Leads second platform (seed initial) (head result []) :=
      leads_congr scope agree (resolve_leads first platform initial bounded)
    have leadsToo := resolve_leads second platform initial boundedToo
    have same := Worklist.eq_of_stopped leadsToo rfl leads rfl
    injection same with same
    exact ⟨boundedToo, same⟩
  · exact .of_failures failed failedToo row
  · apply Agree.of_declarations loaded loadedToo _ row
    intro target
    exact ModuleSet.mem_ofList.trans (same target)

/-- The knot with a list in place of the query, nothing at all about `ext.c`, and more said about
what is never asked for. -/
def retied : Resolver :=
  let catalog := (((Catalog.empty.declare extA [extB]).declare extB [extA]).declare driver
    [⟨"kernel", by decide⟩]).declare ⟨"ext.d", by decide⟩ [extA]
  let table := (PlatformTable.empty.insert extC .linux [driver]).insert extC .windows
    [⟨"ext.d", by decide⟩]
  ofCatalog catalog ⟨∅, []⟩ table knot.scope

theorem resolve_local_knot :
    ∃ bounded : knot.Bounded .linux knotStart, ∃ boundedToo : retied.Bounded .linux knotStart,
      (retied.resolve .linux knotStart boundedToo).value =
        (knot.resolve .linux knotStart bounded).value := by
  have bounded : knot.Bounded .linux knotStart := bounded_ofCatalog _ _ _ _ _ _
  obtain ⟨same, failures, queries⟩ := resolve_local knot retied rfl .linux knotStart bounded
  let range : List ModuleId := [driver, extA, extB, extC]
  have closed : knot.Closed .linux range := by
    unfold Closed
    decide
  refine ⟨bounded, same fun id member plugin => ?_⟩
  have reached := (accounts_resolve bounded).mem_modules_iff.1 member
  have inside : id ∈ range := reached.mem_of_closed (by decide) closed
  simp only [range, List.mem_cons, List.not_mem_nil, or_false] at inside
  rcases inside with rfl | rfl | rfl | rfl
  · exact absurd plugin (by decide)
  · exact ⟨rfl, by decide, by decide⟩
  · exact queries _ _ _ rfl rfl (fun target => ModuleSet.mem_ofList.symm) (by decide)
  · exact failures _ _ _ rfl rfl (by decide)

end BundlePlan.Resolver
