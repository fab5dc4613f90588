import BundlePlan.Proofs.Layers
import BundlePlan.Proofs.Transcript

/-! One order governs a run of resolution: the initial modules, then the modules in the order in
which their discovery is reported. Lookups are made in this order, the graph numbers its vertices by
it, and each report names the first module in it through which the module could be found. -/
namespace BundlePlan.Resolver

variable {resolver : Resolver} {platform : Platform} {initial : ModuleSet}
  {resolution : Resolution} {followed : List ModuleId} {events : List Event}

/-- None of these modules is nearer than one before it. -/
def Outward (resolver : Resolver) (platform : Platform) (initial : ModuleSet)
    (followed : List ModuleId) : Prop :=
  followed.Pairwise fun before after => ∀ m n, resolver.Distance platform initial before m →
    resolver.Distance platform initial after n → m ≤ n

/-- The loop before the round that follows the modules at distance `k`: all that are nearer have
been followed, outward. -/
structure Swept (resolver : Resolver) (platform : Platform) (initial : ModuleSet) (k : Nat)
    (followed queue : List ModuleId) (resolution : Resolution) (events : List Event) : Prop where
  layered : Layered resolver platform initial k resolution queue
  reported : Reported resolver platform initial followed queue resolution events
  nearer : ∀ id ∈ followed, ∃ n < k, resolver.Distance platform initial id n
  outward : resolver.Outward platform initial followed

private theorem swept_seed (initial : ModuleSet) :
    Swept resolver platform initial 0 [] initial.toList (.seed initial) [] where
  layered := layered_seed initial
  reported := reported_seed initial
  nearer _ member := absurd member List.not_mem_nil
  outward := List.Pairwise.nil

private theorem Swept.turn {k : Nat} {first : ModuleId} {rest : List ModuleId}
    (swept : Swept resolver platform initial k followed (first :: rest) resolution events) :
    let done := resolver.round platform resolution (first :: rest)
    Swept resolver platform initial (k + 1) (followed ++ first :: rest) done.value.found
      done.value.close (events ++ done.events) := by
  intro done
  have here : ∀ id ∈ first :: rest, resolver.Distance platform initial id k :=
    fun id member => (swept.layered.queued id).1 member
  have reported : Reported resolver platform initial (followed ++ first :: rest) done.value.found
      done.value.resolution (events ++ done.events) := by
    let start : Progress := ⟨resolution, []⟩
    have opening : Reported resolver platform initial followed ((first :: rest) ++ start.found)
        start.resolution events := by
      rw [List.append_nil]
      exact swept.reported
    exact opening.round
  refine { layered := swept.layered.turn, reported := ?_, nearer := ?_, outward := ?_ }
  · exact { reported with accounts := reported.accounts.close }
  · intro id member
    rcases List.mem_append.1 member with before | now
    · obtain ⟨n, less, distance⟩ := swept.nearer id before
      exact ⟨n, by omega, distance⟩
    · exact ⟨k, Nat.lt_succ_self k, here id now⟩
  · refine List.pairwise_append.2 ⟨swept.outward, ?_, ?_⟩
    · apply List.pairwise_of_forall_mem_list
      intro one memberOne other memberOther m n distance distanceToo
      have same : m = k := distance.unique (here one memberOne)
      have sameToo : n = k := distanceToo.unique (here other memberOther)
      omega
    · intro one memberOne other memberOther m n distance distanceToo
      obtain ⟨l, less, short⟩ := swept.nearer one memberOne
      have same : m = l := distance.unique short
      have sameToo : n = k := distanceToo.unique (here other memberOther)
      omega

private theorem rounds_swept (bounded : resolver.Bounded platform initial) (resolution : Resolution)
    (queue : List ModuleId) (ranged : ∀ id ∈ resolution.modules, id ∈ bounded.choose)
    (queued : ∀ id ∈ queue, id ∈ resolution.modules) (k : Nat) (followed : List ModuleId)
    (events : List Event)
    (swept : Swept resolver platform initial k followed queue resolution events) :
    let done := resolver.rounds platform initial bounded resolution queue ranged queued
    ∃ last all, Swept resolver platform initial last all [] done.value (events ++ done.events) := by
  induction resolution, queue, ranged, queued using rounds.induct generalizing k followed events with
  | case1 resolution ranged queued =>
    rw [rounds.eq_1]
    refine ⟨k, followed, ?_⟩
    have none : events ++ (pure resolution : Logged Resolution).events = events := List.append_nil _
    rw [none]
    exact swept
  | case2 resolution ranged first rest queued done kept _ ih =>
    rw [rounds.eq_2]
    have all := ih (k + 1) (followed ++ first :: rest) (events ++ done.events) swept.turn
    dsimp only at all
    rw [List.append_assoc] at all
    exact all

/-- The order of the modules: the initial ones, then what these records say was found. -/
def ordered (initial : ModuleSet) (records : List Arc) : List ModuleId :=
  initial.toList ++ records.map Arc.target

/-- A run that goes by one order throughout. -/
structure Enumerates (resolver : Resolver) (platform : Platform) (initial : ModuleSet)
    (records : List Arc) (run : Logged Resolution) : Prop where
  /-- A lookup reports once, and right after it what became of it is reported. -/
  log : run.events = run.value.lookups.flatMap (resolver.heard records) ++
    [.resolved initial.size run.value.modules.size run.value.rounds platform]
  found : resolver.Quiet → run.events.filterMap Event.arc? = records
  warned : resolver.Quiet → ∃ warned, warned.Perm run.value.unavailable.toList ∧
    List.Forall₂ (fun id failure => (resolver.lookup id).value = .error failure) warned
      (run.events.filterMap Event.failure?)
  distinct : (ordered initial records).Nodup
  complete : ∀ id, id ∈ run.value.modules ↔ id ∈ ordered initial records
  lookups : run.value.lookups = (ordered initial records).filter resolver.isPlugin
  /-- A plugin is evaluated after each lookup of it, and at no other time. -/
  evaluated : run.queried = run.value.lookups.flatMap resolver.evaluations
  /-- Where lookups evaluate nothing themselves, those of the modules looked up that are declared
  with a query are queried, in turn. -/
  queried : resolver.Lazy → run.queried = run.value.lookups.filter resolver.isQuery
  once : resolver.Lazy → ∀ id, run.queried.count id =
    if id ∈ run.value.modules ∧ resolver.isPlugin id = true ∧ resolver.isQuery id = true
    then 1 else 0
  vertices : run.value.graph.vertices = ordered initial records
  earliest : ∀ arc ∈ records, ∃ before after, run.value.lookups = before ++ arc.source :: after ∧
    ∀ id ∈ before, ∀ kind, (arc.target, kind) ∉ run.value.dependenciesOf id
  labelled : ∀ arc ∈ records, ∀ kind,
    (arc.target, kind) ∈ run.value.dependenciesOf arc.source ↔ kind = arc.kind
  outward : ∀ arc ∈ records, ∃ n, resolver.Distance platform initial arc.source n ∧
    resolver.Distance platform initial arc.target (n + 1)

private theorem first_lookup {arc : Arc}
    (member : arc ∈ resolver.discoveries platform initial followed) :
    ∃ before after, followed.filter resolver.isPlugin = before ++ arc.source :: after ∧
      ∀ id ∈ before, ¬ resolver.Needs platform id arc.target := by
  obtain ⟨_, earlier, later, split, apart⟩ := Arc.mem_discoveries member
  have source : arc.source ∈ followed.filter resolver.isPlugin := by
    obtain ⟨inside, plugin, _⟩ := mem_arcsFrom.1 (Arc.mem_of_mem_discoveries member)
    exact List.mem_filter.2 ⟨inside, plugin⟩
  obtain ⟨before, after, lookups, absent⟩ := List.eq_append_cons_of_mem source
  refine ⟨before, after, lookups, ?_⟩
  intro id inside needed
  obtain ⟨_, kind, contributed⟩ := needs_iff.1 needed
  have recorded : ⟨id, arc.target, kind⟩ ∈ before.flatMap (resolver.outgoing platform) :=
    List.mem_flatMap.2 ⟨id, inside, mem_outgoing.2 ⟨rfl, contributed⟩⟩
  rw [arcsFrom, lookups, List.flatMap_append] at split
  -- The arcs of these lookups stand before those of the source, and so before the arc itself.
  rcases List.append_eq_append_iff.1 split with ⟨rest, same, _⟩ | ⟨rest, same, others⟩
  · rw [same] at apart
    exact apart _ (List.mem_append_left rest recorded) rfl
  · cases rest with
    | nil =>
      rw [same, List.append_nil] at recorded
      exact apart _ recorded rfl
    | cons next rest =>
      obtain rfl : arc = next := (List.cons.inj others).1
      have among : arc ∈ before.flatMap (resolver.outgoing platform) := by
        rw [same]
        exact List.mem_append_right earlier List.mem_cons_self
      obtain ⟨origin, member, leaving⟩ := List.mem_flatMap.1 among
      exact absent ((mem_outgoing.1 leaving).1 ▸ member)

private theorem Swept.distances {last : Nat} {arc : Arc}
    (swept : Swept resolver platform initial last resolution.graph.vertices [] resolution events)
    (member : arc ∈ resolver.discoveries platform initial resolution.graph.vertices) :
    ∃ n, resolver.Distance platform initial arc.source n ∧
      resolver.Distance platform initial arc.target (n + 1) := by
  obtain ⟨new, _⟩ := Arc.mem_discoveries member
  have needed : resolver.Needs platform arc.source arc.target :=
    needs_of_mem_arcsFrom (Arc.mem_of_mem_discoveries member)
  obtain ⟨n, _, distance⟩ := swept.nearer arc.source (source_of_mem_discoveries member)
  have walked : resolver.Walked platform initial (n + 1) arc.target := .step distance.1 needed
  obtain ⟨k, small, short⟩ := walked.exists_distance
  refine ⟨n, distance, ?_⟩
  cases k with
  | zero => exact absurd (distance_zero_iff.1 short) new
  | succ m =>
    -- The module before the last of a shortest chain is looked up too, and not before the source.
    obtain ⟨near, far⟩ := distance_succ_iff.1 short
    obtain ⟨id, distanceToo, neededToo⟩ := (mem_within_succ.1 near).resolve_left far
    obtain ⟨before, after, lookups, apart⟩ := first_lookup member
    have numbered : id ∈ resolution.graph.vertices :=
      (swept.reported.accounts.members id).1 (swept.reported.accounts.mem_modules_iff.2
        (reachable_iff_walked.2 ⟨m, distanceToo.1⟩))
    have asked : id ∈ before ++ arc.source :: after := by
      rw [← lookups]
      exact List.mem_filter.2 ⟨numbered, (needs_iff.1 neededToo).1⟩
    have sorted : resolver.Outward platform initial (before ++ arc.source :: after) := by
      rw [← lookups]
      exact swept.outward.filter _
    have least : n ≤ m := by
      rcases List.mem_append.1 asked with earlier | here
      · exact absurd neededToo (apart id earlier)
      · rcases List.mem_cons.1 here with rfl | later
        · exact (distance.unique distanceToo).le
        · have rest := (List.pairwise_append.1 sorted).2.1
          exact (List.pairwise_cons.1 rest).1 id later n m distance distanceToo
    have same : n = m := by omega
    rw [same]
    exact short

private theorem resolve_swept (bounded : resolver.Bounded platform initial) :
    let run := resolver.resolve platform initial bounded
    ∃ last events, Swept resolver platform initial last run.value.graph.vertices [] run.value events ∧
      run.events = events ++
        [.resolved initial.size run.value.modules.size run.value.rounds platform] := by
  intro run
  obtain ⟨last, followed, swept⟩ := rounds_swept bounded (.seed initial) initial.toList
    bounded.choose_spec.1 (fun _ member => member) 0 [] [] (swept_seed initial)
  have all : run.value.graph.vertices = followed := by
    rw [← List.append_nil followed]
    exact swept.reported.accounts.order
  rw [all]
  exact ⟨last, _, swept, rfl⟩

private theorem Swept.enumerates {last : Nat} {run : Logged Resolution}
    (swept : Swept resolver platform initial last run.value.graph.vertices [] run.value events)
    (closing : run.events = events ++
      [.resolved initial.size run.value.modules.size run.value.rounds platform])
    (evaluated : run.queried = run.value.lookups.flatMap resolver.evaluations) :
    Enumerates resolver platform initial
      (resolver.discoveries platform initial run.value.graph.vertices) run := by
  have accounts := swept.reported.accounts
  have order : run.value.graph.vertices = ordered initial
      (resolver.discoveries platform initial run.value.graph.vertices) := swept.reported.vertices
  have distinct : run.value.graph.vertices.Nodup := accounts.followed_nodup
  have log : run.events = run.value.lookups.flatMap (resolver.heard
      (resolver.discoveries platform initial run.value.graph.vertices)) ++
        [.resolved initial.size run.value.modules.size run.value.rounds platform] := by
    rw [closing, swept.reported.events, accounts.lookups]
    rfl
  have queried (idle : resolver.Lazy) : run.queried = run.value.lookups.filter resolver.isQuery :=
    evaluated.trans (idle.flatMap_evaluations run.value.lookups)
  exact {
    log := log
    found := by
      intro quiet
      rw [closing, List.filterMap_append, swept.reported.events, quiet.arcs_transcript distinct]
      exact List.append_nil _
    warned := by
      intro quiet
      obtain ⟨warned, all, aligned⟩ := quiet.warned
        (resolver.discoveries platform initial run.value.graph.vertices) accounts
      refine ⟨warned, all, ?_⟩
      rw [log, List.filterMap_append]
      exact (List.append_nil _).symm ▸ aligned
    distinct := order ▸ distinct
    complete := by rw [← order]; exact accounts.members
    lookups := by rw [← order]; exact accounts.lookups
    evaluated := evaluated
    queried := queried
    once := by
      intro idle id
      have turns : run.queried.Nodup := by
        rw [queried idle, accounts.lookups]
        exact (distinct.filter _).filter _
      have turn : id ∈ run.queried ↔ id ∈ run.value.modules ∧ resolver.isPlugin id = true ∧
          resolver.isQuery id = true := by
        rw [queried idle, accounts.lookups, List.mem_filter, List.mem_filter, accounts.members,
          and_assoc]
      split_ifs with among
      · exact List.count_eq_one_of_mem turns (turn.2 among)
      · exact List.count_eq_zero.2 (mt turn.1 among)
    vertices := order
    earliest := by
      intro arc member
      obtain ⟨before, after, lookups, apart⟩ := first_lookup member
      refine ⟨before, after, accounts.lookups.trans lookups, ?_⟩
      intro id inside kind listed
      obtain ⟨_, plugin, contributed⟩ := accounts.mem_dependenciesOf.1 listed
      exact apart id inside (needs_iff.2 ⟨plugin, kind, contributed⟩)
    labelled := by
      intro arc member kind
      obtain ⟨inside, plugin, contributed⟩ := mem_arcsFrom.1 (Arc.mem_of_mem_discoveries member)
      have listed : (arc.target, arc.kind) ∈ run.value.dependenciesOf arc.source :=
        accounts.mem_dependenciesOf.2 ⟨(accounts.members _).2 inside, plugin, contributed⟩
      refine ⟨fun listedToo => ?_, fun same => same ▸ listed⟩
      have contributedToo := (accounts.mem_dependenciesOf.1 listedToo).2.2
      exact (mem_labelled.1 contributedToo).2.trans (mem_labelled.1 contributed).2.symm
    outward := fun arc member => swept.distances member }

/-- One order governs a run of resolution: the initial modules in ascending order, then the modules
in the order in which they are found. The modules enter the graph and are looked up in that order,
each once, and the queries among what they are declared with are evaluated in it, each once; what
fails is reported once; and a module is found through the first one that needs it, which is one step
nearer to the initial modules. -/
theorem resolve_enumerates (resolver : Resolver) (platform : Platform) (initial : ModuleSet)
    (bounded : resolver.Bounded platform initial) :
    ∃ records, Enumerates resolver platform initial records
      (resolver.resolve platform initial bounded) := by
  obtain ⟨last, events, swept, closing⟩ := resolve_swept bounded
  exact ⟨_, swept.enumerates closing (queried_resolve bounded)⟩

theorem resolve_enumerates_knot :
    ∃ bounded : knot.Bounded .linux knotStart,
      let run := knot.resolve .linux knotStart bounded
      run.queried.count extB = 1 ∧ run.queried.count extA = 0 ∧
      ∃ arc ∈ run.events.filterMap Event.arc?, arc.target = extB ∧
        ∃ n, knot.Distance .linux knotStart arc.source n ∧
          knot.Distance .linux knotStart arc.target (n + 1) := by
  have bounded : knot.Bounded .linux knotStart := bounded_ofCatalog _ _ _ _ _ _
  obtain ⟨records, enumerates⟩ := resolve_enumerates knot .linux knotStart bounded
  have idle : knot.Lazy := lazy_ofCatalog _ _ _ _
  have found : extB ∈ (knot.resolve .linux knotStart bounded).value.modules :=
    (accounts_resolve bounded).mem_modules_iff.2 ((Reachable.start (by decide)).step knot_needs)
  have later : extB ∉ knotStart := by decide
  rcases List.mem_append.1 ((enumerates.complete _).1 found) with initially | recorded
  · exact absurd initially later
  · obtain ⟨arc, member, target⟩ := List.mem_map.1 recorded
    refine ⟨bounded, ?_, ?_, arc, ?_, target, enumerates.outward arc member⟩
    · rw [enumerates.once idle, if_pos ⟨found, by decide, by decide⟩]
    · rw [enumerates.once idle, if_neg fun all => absurd all.2.2 (by decide)]
    · rw [enumerates.found (quiet_ofCatalog _ _ _ _)]
      exact member

end BundlePlan.Resolver
