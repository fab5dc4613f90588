import BundlePlan.Proofs.Dependencies
import BundlePlan.Proofs.Distances

/-! Resolution composes. Two initial sets need together what each of them needs, by chains as short
as the shorter one of theirs; and resolving again what has been resolved adds nothing. -/
namespace BundlePlan.Resolver

variable {resolver : Resolver} {platform : Platform} {initial first second : ModuleSet}
  {resolution : Resolution} {id : ModuleId}

private theorem reachable_union : resolver.Reachable platform (first.union second) id ↔
    resolver.Reachable platform first id ∨ resolver.Reachable platform second id := by
  simp only [reachable_iff_walked, walked_union, exists_or]

private theorem bounded_union (here : resolver.Bounded platform first)
    (there : resolver.Bounded platform second) :
    resolver.Bounded platform (first.union second) := by
  apply bounded_iff_finite.2
  apply ((bounded_iff_finite.1 here).union (bounded_iff_finite.1 there)).subset
  intro id reached
  exact reachable_union.1 reached

private theorem Accounts.reachable_modules
    (accounts : Accounts resolver platform initial resolution.graph.vertices [] [] resolution) :
    resolver.Reachable platform resolution.modules id ↔
      resolver.Reachable platform initial id := by
  constructor
  · intro reached
    apply reached.of_closed (resolver.Reachable platform initial)
    · intro start member
      exact accounts.mem_modules_iff.1 member
    · intro origin target here needed
      exact here.step needed
  · intro reached
    exact .start (accounts.mem_modules_iff.2 reached)

private theorem Accounts.bounded_modules
    (accounts : Accounts resolver platform initial resolution.graph.vertices [] [] resolution)
    (bounded : resolver.Bounded platform initial) :
    resolver.Bounded platform resolution.modules := by
  apply bounded_iff_finite.2
  apply (bounded_iff_finite.1 bounded).subset
  intro id reached
  exact accounts.reachable_modules.1 reached

/-- From a set that holds all it needs there is one round at most, which finds nothing. -/
theorem growth_of_closed (bounded : resolver.Bounded platform initial)
    (closed : ∀ id, resolver.Reachable platform initial id → id ∈ initial) :
    (resolver.resolve platform initial bounded).value.growth =
      if initial.size = 0 then [0] else [initial.size, initial.size] := by
  obtain ⟨last, layered⟩ := resolve_layered bounded
  have near : ∀ id n, resolver.Distance platform initial id n → n = 0 := by
    intro id n distance
    have member := closed id (reachable_iff_walked.2 ⟨n, distance.1⟩)
    exact distance.unique (distance_zero_iff.2 member)
  have short : last ≤ 1 := by
    by_contra long
    obtain ⟨id, distance⟩ := layered.filled 1 (by omega)
    exact absurd (near id 1 distance) (by omega)
  have positive : 0 < last ↔ initial.size ≠ 0 := by
    rw [layered.last_pos_iff, ← Nat.pos_iff_ne_zero]
    exact List.length_pos_iff_exists_mem.symm
  rw [layered.growth]
  obtain rfl | rfl : last = 0 ∨ last = 1 := by omega
  · have none : initial.size = 0 := by omega
    simp [none]
  · have some : initial.size ≠ 0 := by omega
    have all := layered.within_last
    simp [List.range_succ, ← all, some]

private theorem Accounts.length_explain_union {one other joint : Resolution}
    (here : Accounts resolver platform first one.graph.vertices [] [] one)
    (there : Accounts resolver platform second other.graph.vertices [] [] other)
    (both : Accounts resolver platform (first.union second) joint.graph.vertices [] [] joint)
    (id : ModuleId) : (joint.explain id).map List.length = Option.merge min
      ((one.explain id).map List.length) ((other.explain id).map List.length) := by
  rcases distance_or_not_walked resolver platform first id with ⟨m, near⟩ | unwalked
  · rw [here.length_explain near]
    rcases distance_or_not_walked resolver platform second id with ⟨n, nearToo⟩ | unwalkedToo
    · rw [there.length_explain nearToo, both.length_explain (near.union nearToo)]
      exact congrArg some (Nat.succ_min_succ m n).symm
    · rw [there.explain_eq_none unwalkedToo, both.length_explain (near.union_left unwalkedToo)]
      rfl
  · rw [here.explain_eq_none unwalked]
    rcases distance_or_not_walked resolver platform second id with ⟨n, nearToo⟩ | unwalkedToo
    · rw [there.length_explain nearToo, both.length_explain (nearToo.union_right unwalked)]
      rfl
    · have none : ∀ n, ¬ resolver.Walked platform (first.union second) n id := by
        intro n walked
        exact (walked_union.1 walked).elim (unwalked n) (unwalkedToo n)
      rw [there.explain_eq_none unwalkedToo, both.explain_eq_none none]
      rfl

/-- The run from two initial sets together finds what the runs from each find, reports the same of
it and explains each module by a chain as short as the shorter of theirs. It makes no difference if
one of the sets is resolved beforehand, and doing so again takes no more than one round. -/
theorem resolve_union (resolver : Resolver) (platform : Platform) (first second : ModuleSet)
    (here : resolver.Bounded platform first) (there : resolver.Bounded platform second) :
    let one := (resolver.resolve platform first here).value
    let other := (resolver.resolve platform second there).value
    ∃ (both : resolver.Bounded platform (first.union second))
      (extended : resolver.Bounded platform (one.modules.union second))
      (again : resolver.Bounded platform one.modules),
      let joint := (resolver.resolve platform (first.union second) both).value
      let repeated := (resolver.resolve platform one.modules again).value
      joint.modules = one.modules.union other.modules ∧
      joint.modules =
        (resolver.resolve platform (one.modules.union second) extended).value.modules ∧
      joint.unavailable = one.unavailable.union other.unavailable ∧
      (∀ id ∈ one.modules, joint.dependenciesOf id = one.dependenciesOf id) ∧
      (∀ id, (joint.explain id).map List.length = Option.merge min
        ((one.explain id).map List.length) ((other.explain id).map List.length)) ∧
      repeated.modules = one.modules ∧
      repeated.growth =
        if one.modules.size = 0 then [0] else [one.modules.size, one.modules.size] := by
  intro one other
  have accounts : Accounts resolver platform first one.graph.vertices [] [] one :=
    accounts_resolve here
  have accountsToo : Accounts resolver platform second other.graph.vertices [] [] other :=
    accounts_resolve there
  have both := bounded_union here there
  have again := accounts.bounded_modules here
  have extended := bounded_union again there
  refine ⟨both, extended, again, ?_⟩
  intro joint repeated
  have joined : Accounts resolver platform (first.union second) joint.graph.vertices [] [] joint :=
    accounts_resolve both
  have members : ∀ id, id ∈ joint.modules ↔ id ∈ one.modules ∨ id ∈ other.modules := by
    intro id
    rw [joined.mem_modules_iff, accounts.mem_modules_iff, accountsToo.mem_modules_iff,
      reachable_union]
  refine ⟨?_, ?_, ?_, ?_, ?_, ?_, ?_⟩
  · apply ModuleSet.ext_mem
    intro id
    simp [members]
  · apply ModuleSet.ext_mem
    intro id
    rw [joined.mem_modules_iff, (accounts_resolve extended).mem_modules_iff, reachable_union,
      reachable_union, accounts.reachable_modules]
  · apply ModuleSet.ext_mem
    intro id
    rw [ModuleSet.mem_union, joined.mem_unavailable_iff, accounts.mem_unavailable_iff,
      accountsToo.mem_unavailable_iff, members, or_and_right]
  · intro id member
    have inside := (members id).2 (.inl member)
    rw [joined.dependenciesOf_eq, accounts.dependenciesOf_eq]
    simp only [member, inside, true_and]
  · exact accounts.length_explain_union accountsToo joined
  · apply ModuleSet.ext_mem
    intro id
    rw [(accounts_resolve again).mem_modules_iff, accounts.reachable_modules,
      accounts.mem_modules_iff]
  · apply growth_of_closed
    intro id reached
    exact accounts.mem_modules_iff.2 (accounts.reachable_modules.1 reached)

theorem resolve_union_knot :
    ∃ (here : knot.Bounded .linux (.ofList [extA]))
      (there : knot.Bounded .linux (.ofList [extC])) (both : knot.Bounded .linux _),
      let one := (knot.resolve .linux _ here).value
      let other := (knot.resolve .linux _ there).value
      let joint := (knot.resolve .linux
        ((ModuleSet.ofList [extA]).union (.ofList [extC])) both).value
      joint.modules = one.modules.union other.modules ∧
      extC ∈ joint.unavailable ∧
      joint.dependenciesOf extB = one.dependenciesOf extB := by
  have here : knot.Bounded .linux (.ofList [extA]) := bounded_ofCatalog _ _ _ _ _ _
  have there : knot.Bounded .linux (.ofList [extC]) :=
    bounded_ofCatalog _ _ _ _ _ _
  obtain ⟨both, _, _, modules, _, unavailable, dependencies, _⟩ :=
    resolve_union knot .linux _ _ here there
  have found : extB ∈ (knot.resolve .linux _ here).value.modules :=
    (accounts_resolve here).mem_modules_iff.2 ((Reachable.start (by decide)).step knot_needs)
  have failed : extC ∈ (knot.resolve .linux _ there).value.unavailable := by
    apply (accounts_resolve there).mem_unavailable_iff.2
    exact ⟨(accounts_resolve there).initial_mem (by decide), by decide, _, rfl⟩
  refine ⟨here, there, both, modules, ?_, dependencies _ found⟩
  rw [unavailable]
  exact ModuleSet.mem_union.2 (.inr failed)

end BundlePlan.Resolver
