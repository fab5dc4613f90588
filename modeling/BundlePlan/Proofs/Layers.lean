import BundlePlan.Proofs.Rounds
import Mathlib.Data.Set.Card

/-! Resolution is a breadth-first search: the modules present after a number of rounds are those to
which so many needs lead or fewer, so that the sizes recorded are the profile of the distances from
the initial set. -/
namespace BundlePlan.Resolver

/-- A chain of so many needs leads from an initial module to this one. -/
inductive Walked (resolver : Resolver) (platform : Platform) (initial : ModuleSet) :
    Nat → ModuleId → Prop
  | start {id : ModuleId} (member : id ∈ initial) : Walked resolver platform initial 0 id
  | step {n : Nat} {id target : ModuleId} (walked : Walked resolver platform initial n id)
      (needed : resolver.Needs platform id target) : Walked resolver platform initial (n + 1) target

/-- The length of a shortest chain of needs from an initial module. -/
def Distance (resolver : Resolver) (platform : Platform) (initial : ModuleSet) (id : ModuleId)
    (n : Nat) : Prop := IsLeast {n | resolver.Walked platform initial n id} n

def Within (resolver : Resolver) (platform : Platform) (initial : ModuleSet) (k : Nat) :
    Set ModuleId := {id | ∃ n ≤ k, resolver.Distance platform initial id n}

variable {resolver : Resolver} {platform : Platform} {initial : ModuleSet}

theorem Walked.exists_distance {n : Nat} {id : ModuleId}
    (walked : resolver.Walked platform initial n id) :
    ∃ m ≤ n, resolver.Distance platform initial id m := by
  classical
  have some : ∃ m, resolver.Walked platform initial m id := ⟨n, walked⟩
  refine ⟨Nat.find some, Nat.find_min' some walked, Nat.find_spec some, ?_⟩
  intro m other
  exact Nat.find_min' some other

theorem reachable_iff_walked {id : ModuleId} :
    resolver.Reachable platform initial id ↔ ∃ n, resolver.Walked platform initial n id := by
  constructor
  · intro reached
    apply reached.of_closed fun id => ∃ n, resolver.Walked platform initial n id
    · intro start member
      exact ⟨0, .start member⟩
    · intro origin target ⟨n, walked⟩ needed
      exact ⟨n + 1, walked.step needed⟩
  · intro ⟨n, walked⟩
    induction walked with
    | start member => exact .start member
    | step _ needed ih => exact ih.step needed

theorem distance_zero_iff {id : ModuleId} :
    resolver.Distance platform initial id 0 ↔ id ∈ initial := by
  constructor
  · intro distance
    cases distance.1 with
    | start member => exact member
  · intro member
    exact ⟨.start member, fun m _ => Nat.zero_le m⟩

@[simp] theorem mem_within_zero {id : ModuleId} :
    id ∈ resolver.Within platform initial 0 ↔ id ∈ initial := by
  constructor
  · rintro ⟨n, small, distance⟩
    have none : n = 0 := by omega
    exact distance_zero_iff.1 (none ▸ distance)
  · intro member
    exact ⟨0, Nat.le_refl 0, distance_zero_iff.2 member⟩

theorem mem_within_succ {k : Nat} {target : ModuleId} :
    target ∈ resolver.Within platform initial (k + 1) ↔
      target ∈ resolver.Within platform initial k ∨
        ∃ id, resolver.Distance platform initial id k ∧ resolver.Needs platform id target := by
  constructor
  · rintro ⟨n, small, distance⟩
    by_cases near : n ≤ k
    · exact .inl ⟨n, near, distance⟩
    · obtain rfl : n = k + 1 := by omega
      right
      cases distance.1 with
      | @step _ id _ walked needed =>
        -- A shorter walk to the module before the last would make a shorter one to the target.
        refine ⟨id, ⟨walked, ?_⟩, needed⟩
        intro m other
        have least : k + 1 ≤ m + 1 := distance.2 (Walked.step other needed)
        omega
  · rintro (⟨n, small, distance⟩ | ⟨id, distance, needed⟩)
    · exact ⟨n, by omega, distance⟩
    · exact (Walked.step distance.1 needed).exists_distance

theorem distance_succ_iff {k : Nat} {id : ModuleId} :
    resolver.Distance platform initial id (k + 1) ↔
      id ∈ resolver.Within platform initial (k + 1) ∧
        id ∉ resolver.Within platform initial k := by
  constructor
  · intro distance
    refine ⟨⟨k + 1, Nat.le_refl _, distance⟩, ?_⟩
    rintro ⟨n, small, other⟩
    have same : n = k + 1 := other.unique distance
    omega
  · rintro ⟨⟨n, small, distance⟩, far⟩
    have beyond : ¬ n ≤ k := fun near => far ⟨n, near, distance⟩
    have same : n = k + 1 := by omega
    exact same ▸ distance

/-- A round under way: besides the modules present before it those gained so far are present, and
the ones among them that were not present before have been found. -/
structure Gains (before : ModuleSet) (gained : ModuleId → Prop) (progress : Progress) : Prop where
  modules : ∀ id, id ∈ progress.resolution.modules ↔ id ∈ before ∨ gained id
  found : ∀ id, id ∈ progress.found ↔ id ∉ before ∧ gained id

namespace Gains

variable {before : ModuleSet} {gained : ModuleId → Prop} {progress : Progress}

private theorem congr {other : ModuleId → Prop} (gains : Gains before gained progress)
    (same : ∀ id, gained id ↔ other id) : Gains before other progress := by
  have equal : gained = other := funext fun id => propext (same id)
  exact equal ▸ gains

private theorem record (gains : Gains before gained progress) (origin : ModuleId)
    (target : ModuleId × EdgeKind) :
    Gains before (fun id => gained id ∨ id = target.1) (record origin progress target).value := by
  by_cases present : target.1 ∈ progress.resolution.modules
  · rw [record_of_mem progress target present]
    have known : target.1 ∈ before ∨ gained target.1 := (gains.modules _).1 present
    constructor
    · intro id
      rw [gains.modules]
      grind
    · intro id
      rw [gains.found]
      grind
  · rw [record_of_not_mem progress target present]
    have unknown : ¬ (target.1 ∈ before ∨ gained target.1) := fun known =>
      present ((gains.modules _).2 known)
    constructor
    · intro id
      rw [ModuleSet.mem_insert, gains.modules]
      grind
    · intro id
      rw [List.mem_append, List.mem_singleton, gains.found]
      grind

private theorem foldlM {β : Type} {step : Progress → β → Logged Progress}
    {gain : β → ModuleId → Prop}
    (each : ∀ gained progress b, Gains before gained progress →
      Gains before (fun id => gained id ∨ gain b id) (step progress b).value)
    (list : List β) (gains : Gains before gained progress) :
    Gains before (fun id => gained id ∨ ∃ b ∈ list, gain b id)
      (list.foldlM step progress).value := by
  induction list generalizing gained progress with
  | nil =>
    refine gains.congr fun id => ?_
    simp
  | cons b rest ih =>
    have first := each gained progress b gains
    refine (ih first).congr fun id => ?_
    simp [or_assoc]

private theorem follow (gains : Gains before gained progress) (id : ModuleId) :
    Gains before (fun target => gained target ∨ resolver.Needs platform id target)
      (resolver.follow platform progress id).value := by
  by_cases plugin : resolver.isPlugin id = true
  · rw [value_follow_plugin resolver platform progress plugin]
    have start : Gains before gained (resolver.asked progress id) := by
      refine ⟨fun x => ?_, gains.found⟩
      rw [asked, modules_answer]
      exact gains.modules x
    have all := foldlM (fun _ _ target here => here.record id target)
      (resolver.contribution platform id) start
    refine all.congr fun target => ?_
    rw [needs_iff]
    simp [plugin]
  · rw [follow_other resolver platform progress plugin]
    refine gains.congr fun target => ?_
    rw [needs_iff]
    simp [plugin]

end Gains

private theorem round_gains (resolution : Resolution) (queue : List ModuleId) :
    Gains resolution.modules (fun target => ∃ id ∈ queue, resolver.Needs platform id target)
      (resolver.round platform resolution queue).value := by
  have start : Gains resolution.modules (fun _ => False) ⟨resolution, []⟩ := by
    constructor <;> simp
  have each (gained : ModuleId → Prop) (progress : Progress) (id : ModuleId)
      (here : Gains resolution.modules gained progress) :
      Gains resolution.modules (fun target => gained target ∨ resolver.Needs platform id target)
        (resolver.follow platform progress id).value := here.follow id
  exact (start.foldlM each queue).congr fun target => by simp

/-- The loop before a round that follows the modules at distance `k`. -/
structure Layered (resolver : Resolver) (platform : Platform) (initial : ModuleSet) (k : Nat)
    (resolution : Resolution) (queue : List ModuleId) : Prop where
  modules : ∀ id, id ∈ resolution.modules ↔ id ∈ resolver.Within platform initial k
  queued : ∀ id, id ∈ queue ↔ resolver.Distance platform initial id k
  growth : resolution.growth =
    (List.range (k + 1)).map fun j => (resolver.Within platform initial j).ncard
  filled : ∀ j < k, ∃ id, resolver.Distance platform initial id j

@[simp] theorem ncard_mem (modules : ModuleSet) : {id | id ∈ modules}.ncard = modules.size := by
  classical
  have same : {id | id ∈ modules} = ↑modules.toList.toFinset := by
    ext id
    simp
  rw [same, Set.ncard_coe_finset, List.toFinset_card_of_nodup modules.nodup]
  rfl

@[simp] theorem ncard_within_zero : (resolver.Within platform initial 0).ncard = initial.size := by
  have within : resolver.Within platform initial 0 = {id | id ∈ initial} :=
    Set.ext fun id => mem_within_zero
  rw [within, ncard_mem]

theorem layered_seed (initial : ModuleSet) :
    Layered resolver platform initial 0 (.seed initial) initial.toList where
  modules id := mem_within_zero.symm
  queued id := distance_zero_iff.symm
  growth := by simp [Resolution.seed]
  filled j less := absurd less (Nat.not_lt_zero j)

namespace Layered

variable {k : Nat} {resolution : Resolution} {queue : List ModuleId}

private theorem within_eq (layered : Layered resolver platform initial k resolution queue) :
    resolver.Within platform initial k = {id | id ∈ resolution.modules} :=
  Set.ext fun id => (layered.modules id).symm

/-- A round that has something to follow takes the loop to the next distance. -/
theorem turn {first : ModuleId} {rest : List ModuleId}
    (layered : Layered resolver platform initial k resolution (first :: rest)) :
    let done := (resolver.round platform resolution (first :: rest)).value
    Layered resolver platform initial (k + 1) done.close done.found := by
  intro done
  have gains : Gains resolution.modules
      (fun target => ∃ id ∈ first :: rest, resolver.Needs platform id target) done :=
    round_gains resolution (first :: rest)
  have modules : ∀ id, id ∈ done.resolution.modules ↔
      id ∈ resolver.Within platform initial (k + 1) := by
    intro id
    rw [gains.modules, layered.modules, mem_within_succ]
    simp only [layered.queued]
  refine { modules := modules, queued := ?_, growth := ?_, filled := ?_ }
  · intro id
    rw [distance_succ_iff, ← modules, ← layered.modules, gains.modules, gains.found]
    tauto
  · have within : resolver.Within platform initial (k + 1) = {id | id ∈ done.resolution.modules} :=
      Set.ext fun id => (modules id).symm
    have size := ncard_mem done.resolution.modules
    rw [List.range_succ, List.map_append, ← layered.growth]
    simp only [Progress.close, List.map_cons, List.map_nil, within, size]
    rw [growth_round]
  · intro j less
    by_cases last : j = k
    · subst last
      exact ⟨first, (layered.queued first).1 List.mem_cons_self⟩
    · exact layered.filled j (by omega)

end Layered

private theorem rounds_layered (bounded : resolver.Bounded platform initial)
    (resolution : Resolution) (queue : List ModuleId)
    (ranged : ∀ id ∈ resolution.modules, id ∈ bounded.choose)
    (queued : ∀ id ∈ queue, id ∈ resolution.modules) (k : Nat)
    (layered : Layered resolver platform initial k resolution queue) :
    ∃ last, Layered resolver platform initial last
      (resolver.rounds platform initial bounded resolution queue ranged queued).value [] := by
  induction resolution, queue, ranged, queued using rounds.induct generalizing k with
  | case1 resolution ranged queued =>
    rw [rounds.eq_1]
    exact ⟨k, layered⟩
  | case2 resolution ranged first rest queued done kept _ ih =>
    rw [rounds.eq_2]
    exact ih (k + 1) layered.turn

theorem resolve_layered (bounded : resolver.Bounded platform initial) :
    ∃ last, Layered resolver platform initial last
      (resolver.resolve platform initial bounded).value [] :=
  rounds_layered bounded (.seed initial) initial.toList _ _ 0 (layered_seed initial)

namespace Layered

variable {last : Nat} {result : Resolution}

private theorem rounds_eq (layered : Layered resolver platform initial last result []) :
    result.rounds = last := by
  simp [Resolution.rounds, layered.growth]

private theorem within_modules (layered : Layered resolver platform initial last result [])
    {j : Nat} (small : j ≤ last) :
    {id | id ∈ result.modules ∧ ∃ n ≤ j, resolver.Distance platform initial id n} =
      resolver.Within platform initial j := by
  ext id
  constructor
  · rintro ⟨_, near⟩
    exact near
  · rintro ⟨n, near, distance⟩
    exact ⟨(layered.modules id).2 ⟨n, near.trans small, distance⟩, n, near, distance⟩

private theorem getElem_growth (layered : Layered resolver platform initial last result [])
    (j : Nat) (inside : j < result.growth.length) :
    result.growth[j] = (resolver.Within platform initial j).ncard := by
  simp only [layered.growth, List.getElem_map, List.getElem_range]

private theorem finite_within (layered : Layered resolver platform initial last result []) {j : Nat}
    (small : j ≤ last) : (resolver.Within platform initial j).Finite := by
  rw [← layered.within_modules small]
  exact (List.finite_toSet result.modules.toList).subset fun id member => member.1

/-- Before the last round there is a module at each distance. -/
theorem ncard_lt (layered : Layered resolver platform initial last result []) {i j : Nat}
    (less : i < j) (inside : j < last) :
    (resolver.Within platform initial i).ncard < (resolver.Within platform initial j).ncard := by
  obtain ⟨id, distance⟩ := layered.filled j inside
  apply Set.ncard_lt_ncard _ (layered.finite_within (Nat.le_of_lt inside))
  refine Set.ssubset_iff_of_subset ?_ |>.2 ⟨id, ⟨j, Nat.le_refl j, distance⟩, ?_⟩
  · rintro other ⟨n, near, short⟩
    exact ⟨n, by omega, short⟩
  · rintro ⟨n, near, short⟩
    have same : n = j := short.unique distance
    omega

private theorem no_last (layered : Layered resolver platform initial last result [])
    (id : ModuleId) : ¬ resolver.Distance platform initial id last :=
  fun distance => List.not_mem_nil ((layered.queued id).2 distance)

theorem within_last (layered : Layered resolver platform initial (last + 1) result []) :
    resolver.Within platform initial last = resolver.Within platform initial (last + 1) := by
  ext id
  have none := layered.no_last id
  rw [distance_succ_iff] at none
  constructor
  · rintro ⟨n, near, distance⟩
    exact ⟨n, by omega, distance⟩
  · intro member
    by_contra far
    exact none ⟨member, far⟩

private theorem greatest (layered : Layered resolver platform initial (last + 1) result []) :
    IsGreatest {n | ∃ id ∈ result.modules, resolver.Distance platform initial id n} last := by
  constructor
  · obtain ⟨id, distance⟩ := layered.filled last (Nat.lt_succ_self last)
    exact ⟨id, (layered.modules id).2 ⟨last, Nat.le_succ last, distance⟩, distance⟩
  · rintro n ⟨id, member, distance⟩
    rw [layered.modules, ← layered.within_last] at member
    obtain ⟨m, near, short⟩ := member
    have same : m = n := short.unique distance
    omega

theorem last_pos_iff (layered : Layered resolver platform initial last result []) :
    0 < last ↔ ∃ id, id ∈ initial := by
  constructor
  · intro positive
    obtain ⟨id, distance⟩ := layered.filled 0 positive
    exact ⟨id, distance_zero_iff.1 distance⟩
  · rintro ⟨id, member⟩
    by_contra none
    have zero : last = 0 := by omega
    have distance : resolver.Distance platform initial id 0 := distance_zero_iff.2 member
    exact layered.no_last id (zero ▸ distance)

private theorem head?_growth (layered : Layered resolver platform initial last result []) :
    result.growth.head? = some initial.size := by
  simp [layered.growth, List.range_succ_eq_map]

private theorem getLast?_growth (layered : Layered resolver platform initial last result []) :
    result.growth.getLast? = some result.modules.size := by
  simp [layered.growth, List.range_succ, layered.within_eq]

private theorem pairwise_dropLast_growth
    (layered : Layered resolver platform initial last result []) :
    result.growth.dropLast.Pairwise (· < ·) := by
  rw [layered.growth, List.range_succ, List.map_append, List.map_cons, List.map_nil,
    List.dropLast_concat, List.pairwise_map]
  apply List.pairwise_lt_range.imp_of_mem
  intro i j _ inside less
  exact layered.ncard_lt less (List.mem_range.1 inside)

end Layered

/-- The sizes recorded say how many modules lie at each distance or nearer. They start with the
initial modules and grow with every round but the last, after which all modules are there; there is
one round more than the largest distance, and none at all without initial modules. -/
theorem growth_profile (resolver : Resolver) (platform : Platform) (initial : ModuleSet)
    (bounded : resolver.Bounded platform initial) :
    let result := (resolver.resolve platform initial bounded).value
    (∀ k (inside : k < result.growth.length), result.growth[k] =
      {id | id ∈ result.modules ∧ ∃ n ≤ k, resolver.Distance platform initial id n}.ncard) ∧
    result.growth.length = result.rounds + 1 ∧
    result.initial = initial ∧ result.growth.head? = some result.initial.size ∧
    result.growth.dropLast.Pairwise (· < ·) ∧
    (0 < result.rounds → result.growth[result.rounds - 1]? = result.growth[result.rounds]?) ∧
    result.growth.getLast? = some result.modules.size ∧
    (initial = ∅ → result.rounds = 0) ∧
    (initial ≠ ∅ → ∃ last, result.rounds = last + 1 ∧
      IsGreatest {n | ∃ id ∈ result.modules, resolver.Distance platform initial id n} last) := by
  intro result
  obtain ⟨last, layered⟩ : ∃ last, Layered resolver platform initial last result [] :=
    resolve_layered bounded
  have initially : result.initial = initial := (accounts_resolve bounded).initially
  have rounds : result.rounds = last := layered.rounds_eq
  have length : result.growth.length = last + 1 := by simp [layered.growth]
  refine ⟨?_, by rw [rounds, length], initially, ?_, ?_, ?_, ?_, ?_, ?_⟩
  · intro k inside
    have small : k ≤ last := by omega
    rw [layered.getElem_growth, layered.within_modules small]
  · rw [initially, layered.head?_growth]
  · exact layered.pairwise_dropLast_growth
  · intro ran
    obtain ⟨before, rfl⟩ : ∃ before, last = before + 1 := ⟨last - 1, by omega⟩
    simp [rounds, layered.growth, layered.within_last]
  · exact layered.getLast?_growth
  · rintro rfl
    by_contra ran
    have positive : 0 < last := by omega
    obtain ⟨id, member⟩ := layered.last_pos_iff.1 positive
    exact ModuleSet.not_mem_empty id member
  · intro nonempty
    have positive := layered.last_pos_iff.2 (ModuleSet.exists_mem nonempty)
    obtain ⟨before, rfl⟩ : ∃ before, last = before + 1 := ⟨last - 1, by omega⟩
    exact ⟨before, rounds, layered.greatest⟩

theorem growth_profile_knot :
    ∃ bounded : knot.Bounded .linux knotStart,
      let result := (knot.resolve .linux knotStart bounded).value
      result.growth.head? = some 2 ∧ ∃ last, result.rounds = last + 1 ∧ 1 ≤ last := by
  have bounded : knot.Bounded .linux knotStart := bounded_ofCatalog _ _ _ _ _ _
  obtain ⟨_, _, initially, first, _, _, _, _, rounds⟩ :=
    growth_profile knot .linux knotStart bounded
  obtain ⟨last, many, greatest⟩ := rounds (by decide)
  have walked : knot.Walked .linux knotStart 1 extB := .step (.start (by decide)) knot_needs
  obtain ⟨n, _, distance⟩ := walked.exists_distance
  have found : extB ∈ (knot.resolve .linux knotStart bounded).value.modules :=
    (accounts_resolve bounded).mem_modules_iff.2 ((Reachable.start (by decide)).step knot_needs)
  have near : n ≤ last := greatest.2 ⟨_, found, distance⟩
  have away : n ≠ 0 := by
    rintro rfl
    exact absurd (distance_zero_iff.1 distance) (by decide)
  rw [initially] at first
  exact ⟨bounded, first, last, many, by omega⟩

end BundlePlan.Resolver
