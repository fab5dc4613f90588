import BundlePlan.Proofs.Distances

/-! Resolution is monotone: with more initial modules, a wider namespace and more dependencies it
finds more modules, and explains those found before by chains that are no longer. -/
namespace BundlePlan.Resolver

def contributed (resolver : Resolver) (platform : Platform) (id : ModuleId) : ModuleSet :=
  (declaredBy (resolver.lookup id).value).union (resolver.table.extra id platform)

/-- One namespace lies within another; where there is none, everything does. -/
def Narrower (inner outer : Option ModuleId) : Prop :=
  ∀ scope ∈ outer, ∃ own ∈ inner, own.isWithin scope = true

/-- What the one resolver follows the other one follows too, and it brings in no less. -/
structure Below (less more : Resolver) (platform : Platform) : Prop where
  narrower : Narrower less.scope more.scope
  contributes : ∀ id, ∀ target ∈ less.contributed platform id, target ∈ more.contributed platform id

variable {resolver less more : Resolver} {platform : Platform} {initial fewer : ModuleSet}
  {id target : ModuleId}

private theorem Narrower.refl (scope : Option ModuleId) : Narrower scope scope := by
  intro own same
  exact ⟨own, same, own.isWithin_refl⟩

private theorem Narrower.isPlugin (narrower : Narrower less.scope more.scope)
    (plugin : less.isPlugin id = true) : more.isPlugin id = true := by
  unfold Resolver.isPlugin at plugin ⊢
  rw [Option.all_eq_true] at plugin ⊢
  intro outer same
  obtain ⟨inner, own, within⟩ := narrower outer same
  exact ModuleId.isWithin_trans (plugin inner own) within

private theorem needs_iff_contributed : resolver.Needs platform id target ↔
    resolver.isPlugin id = true ∧ target ∈ resolver.contributed platform id := by
  simp [needs_iff, contributed, contribution]

namespace Below

private theorem of_failures (table : less.table = more.table)
    (narrower : Narrower less.scope more.scope)
    (lookups : ∀ id, (less.lookup id).value = (more.lookup id).value ∨
      ∃ failure, (less.lookup id).value = .error failure) : Below less more platform := by
  refine ⟨narrower, ?_⟩
  intro id target member
  unfold contributed at member ⊢
  rw [ModuleSet.mem_union, table] at member
  rw [ModuleSet.mem_union]
  rcases member with declared | extra
  · rcases lookups id with same | ⟨failure, failed⟩
    · exact .inl (same ▸ declared)
    · rw [failed] at declared
      exact absurd declared (ModuleSet.not_mem_empty target)
  · exact .inr extra

private theorem needs (below : Below less more platform) (id target : ModuleId)
    (needed : less.Needs platform id target) : more.Needs platform id target := by
  obtain ⟨plugin, member⟩ := needs_iff_contributed.1 needed
  exact needs_iff_contributed.2 ⟨below.narrower.isPlugin plugin, below.contributes id target member⟩

private theorem bounded (below : Below less more platform) (initially : ∀ id ∈ fewer, id ∈ initial)
    (bounded : more.Bounded platform initial) : less.Bounded platform fewer := by
  apply bounded_iff_finite.2
  apply (bounded_iff_finite.1 bounded).subset
  intro id reached
  obtain ⟨n, walked⟩ := reachable_iff_walked.1 reached
  exact reachable_iff_walked.2 ⟨n, walked.mono initially below.needs⟩

private theorem explained {smaller larger : Resolution} (below : Below less more platform)
    (initially : ∀ id ∈ fewer, id ∈ initial)
    (accounts : Accounts less platform fewer smaller.graph.vertices [] [] smaller)
    (accountsToo : Accounts more platform initial larger.graph.vertices [] [] larger)
    (member : id ∈ smaller.modules) :
    id ∈ larger.modules ∧ ∃ chain longer, larger.explain id = some chain ∧
      smaller.explain id = some longer ∧ chain.length ≤ longer.length := by
  obtain ⟨n, walked⟩ := reachable_iff_walked.1 (accounts.mem_modules_iff.1 member)
  have walkedToo := walked.mono initially below.needs
  obtain ⟨longer, explained⟩ := accounts.exists_explain walked
  obtain ⟨chain, explainedToo⟩ := accountsToo.exists_explain walkedToo
  obtain ⟨far, size, distance⟩ := accounts.distance_of_explain explained
  obtain ⟨near, sizeToo, distanceToo⟩ := accountsToo.distance_of_explain explainedToo
  have least : near ≤ far := distanceToo.2 (distance.1.mono initially below.needs)
  refine ⟨accountsToo.mem_modules_iff.2 (reachable_iff_walked.2 ⟨n, walkedToo⟩), chain, longer,
    explainedToo, explained, ?_⟩
  omega

end Below

/-- From fewer initial modules, in a narrower namespace and with fewer dependencies no other modules
are found, and none is explained by a shorter chain. If lookups fail that did not fail, or only part
of a namespace is followed, modules may be lost but no initial one. -/
theorem resolve_mono (more : Resolver) (platform : Platform) (initial : ModuleSet)
    (bounded : more.Bounded platform initial) :
    let result := (more.resolve platform initial bounded).value
    (∀ (less : Resolver) (fewer : ModuleSet), Below less more platform →
      (∀ id ∈ fewer, id ∈ initial) →
      ∃ boundedToo : less.Bounded platform fewer,
        let smaller := (less.resolve platform fewer boundedToo).value
        ∀ id ∈ smaller.modules, id ∈ result.modules ∧ ∃ chain longer,
          result.explain id = some chain ∧ smaller.explain id = some longer ∧
            chain.length ≤ longer.length) ∧
    ∀ less : Resolver, less.table = more.table →
      less.scope = more.scope ∨ Narrower less.scope more.scope →
      (∀ id, (less.lookup id).value = (more.lookup id).value ∨
        ∃ failure, (less.lookup id).value = .error failure) →
      ∃ boundedToo : less.Bounded platform initial,
        let smaller := (less.resolve platform initial boundedToo).value
        (∀ id ∈ smaller.modules, id ∈ result.modules) ∧ ∀ id ∈ initial, id ∈ smaller.modules := by
  intro result
  have accounts : Accounts more platform initial result.graph.vertices [] [] result :=
    accounts_resolve bounded
  constructor
  · intro less fewer below initially
    have boundedToo := below.bounded initially bounded
    refine ⟨boundedToo, fun id member => ?_⟩
    exact below.explained initially (accounts_resolve boundedToo) accounts member
  · intro less table scopes lookups
    have narrower : Narrower less.scope more.scope := by
      rcases scopes with same | narrower
      · rw [same]
        exact Narrower.refl more.scope
      · exact narrower
    have below : Below less more platform := .of_failures table narrower lookups
    have kept : ∀ id ∈ initial, id ∈ initial := fun _ member => member
    have boundedToo := below.bounded kept bounded
    refine ⟨boundedToo, fun id member => ?_, fun id member => ?_⟩
    · exact (below.explained kept (accounts_resolve boundedToo) accounts member).1
    · exact (accounts_resolve boundedToo).initial_mem member

/-- The knot with `ext.b` missing, of which only `ext.a` is followed. -/
def frayed : Resolver where
  lookup id := if id = extB then pure (.error (.missing id)) else knot.lookup id
  table := knot.table
  scope := some extA

theorem resolve_mono_frayed :
    ∃ (bounded : knot.Bounded .linux knotStart) (boundedToo : frayed.Bounded .linux knotStart),
      let result := (knot.resolve .linux knotStart bounded).value
      let smaller := (frayed.resolve .linux knotStart boundedToo).value
      (∀ id ∈ smaller.modules, id ∈ result.modules) ∧ extC ∈ smaller.modules ∧
      ∃ chain longer, result.explain extB = some chain ∧
        smaller.explain extB = some longer ∧ chain.length ≤ longer.length := by
  have bounded : knot.Bounded .linux knotStart := bounded_ofCatalog _ _ _ _ _ _
  have narrower : Narrower frayed.scope knot.scope := by
    intro scope same
    obtain rfl := Option.some.inj same
    exact ⟨extA, rfl, by decide⟩
  have lookups : ∀ id, (frayed.lookup id).value = (knot.lookup id).value ∨
      ∃ failure, (frayed.lookup id).value = .error failure := by
    intro id
    unfold frayed
    dsimp only
    split
    · exact .inr ⟨_, rfl⟩
    · exact .inl rfl
  obtain ⟨compared, lost⟩ := resolve_mono knot .linux knotStart bounded
  obtain ⟨boundedToo, explained⟩ :=
    compared frayed knotStart (.of_failures rfl narrower lookups) fun _ member => member
  obtain ⟨_, remaining, kept⟩ := lost frayed rfl (.inr narrower) lookups
  have needed : frayed.Needs .linux extA extB :=
    .declared (by decide) _ rfl (by decide)
  have found : extB ∈ (frayed.resolve .linux knotStart boundedToo).value.modules :=
    (accounts_resolve boundedToo).mem_modules_iff.2 ((Reachable.start (by decide)).step needed)
  exact ⟨bounded, boundedToo, remaining, kept _ (by decide), (explained _ found).2⟩

end BundlePlan.Resolver
