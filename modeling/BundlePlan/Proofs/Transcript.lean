import BundlePlan.Proofs.Closure

/-! What a run of resolution reports. The arcs that the followed plugins contribute determine it: of
all arcs to a module that is not an initial one the first is reported, when its plugin is followed,
and the module gets its number then. -/
namespace BundlePlan

/-- Of these arcs the first one to each module that is not known yet. -/
def Arc.discoveries (known : List ModuleId) : List Arc → List Arc
  | [] => []
  | arc :: rest =>
    if arc.target ∈ known then discoveries known rest
    else arc :: discoveries (known ++ [arc.target]) rest

def Arc.event (arc : Arc) : Event := .discovered arc.target arc.source arc.kind

def Event.arc? : Event → Option Arc
  | .discovered found origin kind => some ⟨origin, found, kind⟩
  | _ => none

def Event.failure? : Event → Option LookupFailure
  | .notFollowed failure => some failure
  | _ => none

namespace Arc

private theorem discoveries_cons_of_mem {known : List ModuleId} {arc : Arc}
    (old : arc.target ∈ known) (rest : List Arc) :
    discoveries known (arc :: rest) = discoveries known rest := by
  simp only [discoveries, old, if_true]

private theorem discoveries_cons_of_not_mem {known : List ModuleId} {arc : Arc}
    (new : arc.target ∉ known) (rest : List Arc) :
    discoveries known (arc :: rest) = arc :: discoveries (known ++ [arc.target]) rest := by
  simp only [discoveries, new, if_false]

private theorem discoveries_append (known : List ModuleId) (first second : List Arc) :
    discoveries known (first ++ second) = discoveries known first ++
      discoveries (known ++ (discoveries known first).map target) second := by
  induction first generalizing known with
  | nil => simp only [discoveries, List.nil_append, List.map_nil, List.append_nil]
  | cons arc rest ih =>
    by_cases old : arc.target ∈ known
    · rw [List.cons_append, discoveries_cons_of_mem old, discoveries_cons_of_mem old, ih]
    · rw [List.cons_append, discoveries_cons_of_not_mem old, discoveries_cons_of_not_mem old, ih,
        List.map_cons, List.append_assoc]
      rfl

theorem mem_discoveries {known : List ModuleId} {arcs : List Arc} {arc : Arc}
    (member : arc ∈ discoveries known arcs) : arc.target ∉ known ∧
      ∃ before after, arcs = before ++ arc :: after ∧
        ∀ other ∈ before, other.target ≠ arc.target := by
  induction arcs generalizing known with
  | nil => cases member
  | cons first rest ih =>
    by_cases old : first.target ∈ known
    · rw [discoveries_cons_of_mem old] at member
      obtain ⟨new, before, after, rfl, apart⟩ := ih member
      refine ⟨new, first :: before, after, rfl, ?_⟩
      rw [List.forall_mem_cons]
      exact ⟨fun same => new (same ▸ old), apart⟩
    · rw [discoveries_cons_of_not_mem old, List.mem_cons] at member
      rcases member with rfl | later
      · exact ⟨old, [], rest, rfl, fun other none => nomatch none⟩
      · obtain ⟨new, before, after, rfl, apart⟩ := ih later
        rw [List.mem_append, List.mem_singleton, not_or] at new
        refine ⟨new.1, first :: before, after, rfl, ?_⟩
        rw [List.forall_mem_cons]
        exact ⟨fun same => new.2 same.symm, apart⟩

theorem mem_of_mem_discoveries {known : List ModuleId} {arcs : List Arc} {arc : Arc}
    (member : arc ∈ discoveries known arcs) : arc ∈ arcs := by
  obtain ⟨_, before, after, rfl, _⟩ := mem_discoveries member
  exact List.mem_append_right before List.mem_cons_self

private theorem filterMap_event (arcs : List Arc) :
    (arcs.map event).filterMap Event.arc? = arcs := by
  rw [List.filterMap_map]
  exact List.filterMap_some

end Arc

namespace Resolver

def discoveries (resolver : Resolver) (platform : Platform) (initial : ModuleSet)
    (followed : List ModuleId) : List Arc :=
  Arc.discoveries initial.toList (resolver.arcsFrom platform followed)

def complaint : Except LookupFailure Declaration → List Event
  | .ok _ => []
  | .error failure => [.notFollowed failure]

/-- What is reported while a plugin is followed: what its lookup reports, that it fails, and what
is found through the plugin. -/
def heard (resolver : Resolver) (records : List Arc) (id : ModuleId) : List Event :=
  (resolver.lookup id).events ++ complaint (resolver.lookup id).value ++
    (records.filter fun arc => arc.source = id).map Arc.event

variable {resolver : Resolver} {platform : Platform} {initial : ModuleSet}
  {resolution : Resolution} {followed waiting queue : List ModuleId} {events : List Event}

private theorem events_record_of_mem {origin : ModuleId} {progress : Progress}
    {target : ModuleId × EdgeKind} (present : target.1 ∈ progress.resolution.modules) :
    (record origin progress target).events = [] := by
  simp only [record, present, if_true]
  rfl

private theorem events_record_of_not_mem {origin : ModuleId} {progress : Progress}
    {target : ModuleId × EdgeKind} (absent : target.1 ∉ progress.resolution.modules) :
    (record origin progress target).events = [.discovered target.1 origin target.2] := by
  simp only [record, absent, if_false]
  rfl

@[simp] theorem events_answer (id : ModuleId) (outcome : Except LookupFailure Declaration) :
    (answer id resolution outcome).events = complaint outcome := by cases outcome <;> rfl

@[simp] theorem queried_answer (id : ModuleId) (outcome : Except LookupFailure Declaration) :
    (answer id resolution outcome).queried = [] := by cases outcome <;> rfl

/-- The arcs of one plugin are recorded in turn, and those that lead to something new are reported
and enter their targets. -/
theorem foldlM_record (id : ModuleId) (targets : List (ModuleId × EdgeKind)) (progress : Progress)
    (accounts : Accounts resolver platform initial followed (queue ++ progress.found)
      (targets.map fun target => ⟨id, target.1, target.2⟩) progress.resolution) :
    let done := targets.foldlM (record id) progress
    let new := Arc.discoveries progress.resolution.graph.vertices
      (targets.map fun target => ⟨id, target.1, target.2⟩)
    Accounts resolver platform initial followed (queue ++ done.value.found) []
        done.value.resolution ∧
      done.value.resolution.graph.vertices =
        progress.resolution.graph.vertices ++ new.map Arc.target ∧
      done.events = new.map Arc.event := by
  induction targets generalizing progress with
  | nil => exact ⟨accounts, (List.append_nil _).symm, rfl⟩
  | cons target rest ih =>
    obtain ⟨kept, vertices, events⟩ := ih (record id progress target).value accounts.record
    have entered : (record id progress target).value.resolution.graph.vertices =
        Graph.extended progress.resolution.graph.vertices target.1 := by
      rw [graph_record]
      exact accounts.next_vertices
    have heard : ((target :: rest).foldlM (record id) progress).events =
        (record id progress target).events ++
          (rest.foldlM (record id) (record id progress target).value).events := rfl
    rw [entered] at vertices events
    dsimp only
    rw [heard, events, List.map_cons]
    refine ⟨kept, ?_⟩
    by_cases present : target.1 ∈ progress.resolution.modules
    · have old : target.1 ∈ progress.resolution.graph.vertices :=
        (accounts.members target.1).1 present
      rw [Graph.extended, if_pos old] at vertices ⊢
      rw [events_record_of_mem present, Arc.discoveries_cons_of_mem old]
      exact ⟨vertices, List.nil_append _⟩
    · have new : target.1 ∉ progress.resolution.graph.vertices :=
        fun member => present ((accounts.members target.1).2 member)
      rw [Graph.extended, if_neg new] at vertices ⊢
      rw [events_record_of_not_mem present, Arc.discoveries_cons_of_not_mem new]
      refine ⟨?_, rfl⟩
      rw [List.map_cons, List.append_cons]
      exact vertices

def transcript (resolver : Resolver) (platform : Platform) (initial : ModuleSet)
    (followed : List ModuleId) : List Event :=
  (followed.filter resolver.isPlugin).flatMap
    (resolver.heard (resolver.discoveries platform initial followed))

theorem source_of_mem_discoveries {arc : Arc}
    (member : arc ∈ resolver.discoveries platform initial followed) : arc.source ∈ followed :=
  (mem_arcsFrom.1 (Arc.mem_of_mem_discoveries member)).1

def discoveriesAfter (resolver : Resolver) (platform : Platform) (initial : ModuleSet)
    (followed : List ModuleId) (id : ModuleId) : List Arc :=
  Arc.discoveries (initial.toList ++ (resolver.discoveries platform initial followed).map Arc.target)
    (resolver.outgoing platform id)

private theorem source_of_mem_discoveriesAfter {arc : Arc} {id : ModuleId}
    (member : arc ∈ resolver.discoveriesAfter platform initial followed id) : arc.source = id :=
  (mem_outgoing.1 (Arc.mem_of_mem_discoveries member)).1

private theorem discoveries_plugin {id : ModuleId} (plugin : resolver.isPlugin id = true) :
    resolver.discoveries platform initial (followed ++ [id]) =
      resolver.discoveries platform initial followed ++
        resolver.discoveriesAfter platform initial followed id := by
  rw [discoveries, arcsFrom_append, arcsFrom_plugin plugin, Arc.discoveries_append]
  rfl

private theorem discoveries_other {id : ModuleId} (other : ¬ resolver.isPlugin id = true) :
    resolver.discoveries platform initial (followed ++ [id]) =
      resolver.discoveries platform initial followed := by
  rw [discoveries, arcsFrom_append, arcsFrom_other other, List.append_nil]
  rfl

private theorem heard_earlier {id earlier : ModuleId} (fresh : id ∉ followed)
    (member : earlier ∈ followed) :
    resolver.heard (resolver.discoveries platform initial followed ++
        resolver.discoveriesAfter platform initial followed id) earlier =
      resolver.heard (resolver.discoveries platform initial followed) earlier := by
  have none : (resolver.discoveriesAfter platform initial followed id).filter
      (fun arc => arc.source = earlier) = [] := by
    apply List.filter_eq_nil_iff.2
    intro arc inside same
    rw [source_of_mem_discoveriesAfter inside] at same
    exact fresh (of_decide_eq_true same ▸ member)
  rw [heard, List.filter_append, none, List.append_nil]
  rfl

private theorem heard_last {id : ModuleId} (fresh : id ∉ followed) :
    resolver.heard (resolver.discoveries platform initial followed ++
        resolver.discoveriesAfter platform initial followed id) id =
      (resolver.lookup id).events ++ complaint (resolver.lookup id).value ++
        (resolver.discoveriesAfter platform initial followed id).map Arc.event := by
  have none : (resolver.discoveries platform initial followed).filter
      (fun arc => arc.source = id) = [] := by
    apply List.filter_eq_nil_iff.2
    intro arc inside same
    exact fresh (of_decide_eq_true same ▸ source_of_mem_discoveries inside)
  have all : (resolver.discoveriesAfter platform initial followed id).filter
      (fun arc => arc.source = id) = resolver.discoveriesAfter platform initial followed id := by
    apply List.filter_eq_self.2
    intro arc inside
    exact decide_eq_true (source_of_mem_discoveriesAfter inside)
  rw [heard, List.filter_append, none, all, List.nil_append]

private theorem transcript_plugin {id : ModuleId} (fresh : id ∉ followed)
    (plugin : resolver.isPlugin id = true) :
    resolver.transcript platform initial (followed ++ [id]) =
      resolver.transcript platform initial followed ++
        ((resolver.lookup id).events ++ complaint (resolver.lookup id).value ++
          (resolver.discoveriesAfter platform initial followed id).map Arc.event) := by
  rw [transcript, discoveries_plugin plugin, List.filter_append, List.filter_cons_of_pos plugin,
    List.filter_nil, List.flatMap_append, List.flatMap_singleton, heard_last fresh]
  apply congrArg (· ++ _)
  apply List.flatMap_congr
  intro earlier member
  exact heard_earlier fresh (List.mem_of_mem_filter member)

private theorem transcript_other {id : ModuleId} (other : ¬ resolver.isPlugin id = true) :
    resolver.transcript platform initial (followed ++ [id]) =
      resolver.transcript platform initial followed := by
  rw [transcript, discoveries_other other, List.filter_append, List.filter_cons_of_neg other,
    List.filter_nil, List.append_nil]
  rfl

/-- The books together with the reports: vertices enter and reports are made in one order. -/
structure Reported (resolver : Resolver) (platform : Platform) (initial : ModuleSet)
    (followed waiting : List ModuleId) (resolution : Resolution) (events : List Event) : Prop where
  accounts : Accounts resolver platform initial followed waiting [] resolution
  vertices : resolution.graph.vertices =
    initial.toList ++ (resolver.discoveries platform initial followed).map Arc.target
  events : events = resolver.transcript platform initial followed

theorem reported_seed (initial : ModuleSet) :
    Reported resolver platform initial [] initial.toList (.seed initial) [] where
  accounts := accounts_seed initial
  vertices := (seed_vertices initial).trans (List.append_nil _).symm
  events := rfl

private theorem Accounts.next_fresh {id : ModuleId} {left : List Arc}
    (accounts : Accounts resolver platform initial followed (id :: waiting) left resolution) :
    id ∉ followed := by
  obtain ⟨_, records, _⟩ := accounts.recorded
  have distinct := records.distinct
  rw [accounts.order] at distinct
  intro member
  exact (List.nodup_append.1 distinct).2.2 id member id List.mem_cons_self rfl

private theorem Reported.follow {id : ModuleId} {progress : Progress}
    (reported : Reported resolver platform initial followed (id :: (queue ++ progress.found))
      progress.resolution events) :
    let done := resolver.follow platform progress id
    Reported resolver platform initial (followed ++ [id]) (queue ++ done.value.found)
      done.value.resolution (events ++ done.events) := by
  intro done
  have fresh : id ∉ followed := reported.accounts.next_fresh
  by_cases plugin : resolver.isPlugin id = true
  · have told : done.events = (resolver.lookup id).events ++
        (complaint (resolver.lookup id).value ++ ((resolver.contribution platform id).foldlM
          (record id) (resolver.asked progress id)).events) := by
      simp [done, Resolver.follow, plugin, contribution, asked]
    have same : (resolver.asked progress id).resolution.graph.vertices =
        progress.resolution.graph.vertices := congrArg Graph.vertices (graph_answer id _)
    obtain ⟨kept, vertices, heard⟩ := foldlM_record id (resolver.contribution platform id)
      (resolver.asked progress id) (reported.accounts.follow plugin)
    rw [same, reported.vertices] at vertices heard
    rw [told, value_follow_plugin resolver platform progress plugin]
    refine { accounts := kept, vertices := ?_, events := ?_ }
    · rw [discoveries_plugin plugin, List.map_append]
      exact vertices.trans (List.append_assoc _ _ _)
    · rw [transcript_plugin fresh plugin, heard, ← reported.events,
        List.append_assoc _ (complaint _)]
      rfl
  · have same : done = pure progress := follow_other resolver platform progress plugin
    rw [same]
    exact {
      accounts := reported.accounts.skip plugin
      vertices := by rw [discoveries_other plugin]; exact reported.vertices
      events := by
        rw [transcript_other plugin, Logged.events_pure, List.append_nil]
        exact reported.events }

theorem Reported.round {progress : Progress}
    (reported : Reported resolver platform initial followed (queue ++ progress.found)
      progress.resolution events) :
    let done := queue.foldlM (resolver.follow platform) progress
    Reported resolver platform initial (followed ++ queue) done.value.found done.value.resolution
      (events ++ done.events) := by
  induction queue generalizing followed progress events with
  | nil =>
    dsimp only
    rw [List.append_nil]
    have same : events ++ (([] : List ModuleId).foldlM (resolver.follow platform) progress).events =
        events := List.append_nil _
    rw [same]
    exact reported
  | cons id rest ih =>
    have all := ih reported.follow
    dsimp only at all
    rw [List.append_assoc, List.append_assoc] at all
    exact all

/-- Lookups report nothing of their own that reads as a report of the loop. -/
def Quiet (resolver : Resolver) : Prop :=
  ∀ id, ∀ event ∈ (resolver.lookup id).events, event.arc? = none ∧ event.failure? = none

theorem quiet_ofCatalog (catalog : Catalog) (disk : Disk) (table : PlatformTable)
    (scope : Option ModuleId) : (ofCatalog catalog disk table scope).Quiet := by
  intro id event member
  simp only [ofCatalog, Catalog.declaration] at member
  split at member
  · exact absurd member List.not_mem_nil
  · exact absurd member List.not_mem_nil
  · split at member
    · exact absurd member List.not_mem_nil
    · rw [List.mem_singleton.1 member]
      exact ⟨rfl, rfl⟩

namespace Quiet

private theorem arcs_lookup (quiet : resolver.Quiet) (id : ModuleId) :
    (resolver.lookup id).events.filterMap Event.arc? = [] :=
  List.filterMap_eq_nil_iff.2 fun event member => (quiet id event member).1

private theorem failures_lookup (quiet : resolver.Quiet) (id : ModuleId) :
    (resolver.lookup id).events.filterMap Event.failure? = [] :=
  List.filterMap_eq_nil_iff.2 fun event member => (quiet id event member).2

theorem arcs_transcript (quiet : resolver.Quiet) (distinct : followed.Nodup) :
    (resolver.transcript platform initial followed).filterMap Event.arc? =
      resolver.discoveries platform initial followed := by
  induction followed using List.reverseRecOn with
  | nil => rfl
  | append_singleton earlier id ih =>
    obtain ⟨before, _, apart⟩ := List.nodup_append.1 distinct
    have fresh : id ∉ earlier := fun member => apart id member id (List.mem_singleton.2 rfl) rfl
    by_cases plugin : resolver.isPlugin id = true
    · have silent : (complaint (resolver.lookup id).value).filterMap Event.arc? = [] := by
        cases (resolver.lookup id).value <;> rfl
      rw [transcript_plugin fresh plugin, discoveries_plugin plugin, List.filterMap_append,
        List.filterMap_append, List.filterMap_append, quiet.arcs_lookup, silent,
        Arc.filterMap_event, ih before]
      rfl
    · rw [transcript_other plugin, discoveries_other plugin, ih before]

private theorem failures_heard (quiet : resolver.Quiet) (records : List Arc) (id : ModuleId) :
    (resolver.heard records id).filterMap Event.failure? =
      (complaint (resolver.lookup id).value).filterMap Event.failure? := by
  have discoveries : ((records.filter fun arc => arc.source = id).map Arc.event).filterMap
      Event.failure? = [] := by
    rw [List.filterMap_map]
    exact List.filterMap_eq_nil_iff.2 fun _ _ => rfl
  rw [heard, List.filterMap_append, List.filterMap_append, quiet.failures_lookup, discoveries,
    List.nil_append, List.append_nil]

private theorem exists_warned (quiet : resolver.Quiet) (records : List Arc)
    (lookups : List ModuleId) :
    ∃ warned, warned.Sublist lookups ∧
      (∀ id, id ∈ warned ↔ id ∈ lookups ∧ ∃ failure, (resolver.lookup id).value = .error failure) ∧
      List.Forall₂ (fun id failure => (resolver.lookup id).value = .error failure) warned
        ((lookups.flatMap (resolver.heard records)).filterMap Event.failure?) := by
  induction lookups with
  | nil => exact ⟨[], .refl [], by simp, .nil⟩
  | cons id rest ih =>
    obtain ⟨warned, sublist, members, aligned⟩ := ih
    rw [List.flatMap_cons, List.filterMap_append, quiet.failures_heard]
    cases outcome : (resolver.lookup id).value with
    | ok declaration =>
      refine ⟨warned, sublist.cons id, ?_, aligned⟩
      intro x
      rw [members, List.mem_cons]
      constructor
      · rintro ⟨member, failed⟩
        exact ⟨.inr member, failed⟩
      · rintro ⟨rfl | member, failure, failed⟩
        · rw [outcome] at failed
          cases failed
        · exact ⟨member, failure, failed⟩
    | error failure =>
      refine ⟨id :: warned, sublist.cons_cons id, ?_, .cons outcome aligned⟩
      intro x
      rw [List.mem_cons, List.mem_cons, members]
      constructor
      · rintro (rfl | ⟨member, failed⟩)
        · exact ⟨.inl rfl, failure, outcome⟩
        · exact ⟨.inr member, failed⟩
      · rintro ⟨rfl | member, failed⟩
        · exact .inl rfl
        · exact .inr ⟨member, failed⟩

theorem warned (quiet : resolver.Quiet) (records : List Arc)
    (accounts : Accounts resolver platform initial resolution.graph.vertices [] [] resolution) :
    ∃ warned, warned.Perm resolution.unavailable.toList ∧
      List.Forall₂ (fun id failure => (resolver.lookup id).value = .error failure) warned
        ((resolution.lookups.flatMap (resolver.heard records)).filterMap Event.failure?) := by
  obtain ⟨warned, sublist, members, aligned⟩ := quiet.exists_warned records resolution.lookups
  have asked : resolution.lookups.Nodup := accounts.lookups ▸ accounts.followed_nodup.filter _
  refine ⟨warned, ?_, aligned⟩
  apply (List.perm_ext_iff_of_nodup (asked.sublist sublist) resolution.unavailable.nodup).2
  intro id
  rw [members, accounts.lookups, List.mem_filter, and_assoc]
  exact (accounts.unavailable id).symm

end Quiet

def isQuery (resolver : Resolver) (id : ModuleId) : Bool :=
  (resolver.lookup id).value.toOption.any Declaration.isQuery

/-- What is queried while a plugin is followed: what its lookup queries, and the query that it is
declared with. -/
def evaluations (resolver : Resolver) (id : ModuleId) : List ModuleId :=
  (resolver.lookup id).queried ++ (evaluate id (resolver.lookup id).value).queried

/-- From the earlier lookups to the later ones each plugin asked for has been evaluated. -/
def Asks (resolver : Resolver) (before after queried : List ModuleId) : Prop :=
  ∃ asked, after = before ++ asked ∧ queried = asked.flatMap resolver.evaluations

namespace Asks

variable {before between after queried more : List ModuleId}

private theorem refl (lookups : List ModuleId) : resolver.Asks lookups lookups [] :=
  ⟨[], (List.append_nil lookups).symm, rfl⟩

private theorem trans (first : resolver.Asks before between queried)
    (second : resolver.Asks between after more) : resolver.Asks before after (queried ++ more) := by
  obtain ⟨asked, rfl, rfl⟩ := first
  obtain ⟨others, rfl, rfl⟩ := second
  exact ⟨asked ++ others, List.append_assoc _ _ _, List.flatMap_append.symm⟩

private theorem foldlM {β : Type} {step : Progress → β → Logged Progress}
    (each : ∀ progress b, resolver.Asks progress.resolution.lookups
      (step progress b).value.resolution.lookups (step progress b).queried)
    (list : List β) (start : Progress) :
    resolver.Asks start.resolution.lookups (list.foldlM step start).value.resolution.lookups
      (list.foldlM step start).queried := by
  induction list generalizing start with
  | nil => exact refl _
  | cons b rest ih => exact (each start b).trans (ih (step start b).value)

private theorem record (origin : ModuleId) (progress : Progress) (target : ModuleId × EdgeKind) :
    let done := record origin progress target
    resolver.Asks progress.resolution.lookups done.value.resolution.lookups done.queried := by
  intro done
  simp only [done, Resolver.record]
  split <;> exact refl _

private theorem follow (progress : Progress) (id : ModuleId) :
    let done := resolver.follow platform progress id
    resolver.Asks progress.resolution.lookups done.value.resolution.lookups done.queried := by
  intro done
  by_cases plugin : resolver.isPlugin id = true
  · have answered : resolver.Asks progress.resolution.lookups
        (resolver.asked progress id).resolution.lookups (resolver.evaluations id) :=
      ⟨[id], lookups_answer id _, (List.append_nil _).symm⟩
    have queried : done.queried = resolver.evaluations id ++
        ((resolver.contribution platform id).foldlM (Resolver.record id)
          (resolver.asked progress id)).queried := by
      simp [done, Resolver.follow, plugin, contribution, evaluations, asked]
    rw [queried, value_follow_plugin resolver platform progress plugin]
    exact answered.trans (foldlM (record id) (resolver.contribution platform id) _)
  · have same : done = pure progress := follow_other resolver platform progress plugin
    rw [same]
    exact refl _

private theorem rounds (bounded : resolver.Bounded platform initial) (resolution : Resolution)
    (queue : List ModuleId) (ranged : ∀ id ∈ resolution.modules, id ∈ bounded.choose)
    (queued : ∀ id ∈ queue, id ∈ resolution.modules) :
    let done := resolver.rounds platform initial bounded resolution queue ranged queued
    resolver.Asks resolution.lookups done.value.lookups done.queried := by
  induction resolution, queue, ranged, queued using rounds.induct with
  | case1 resolution ranged queued =>
    rw [rounds.eq_1]
    exact refl _
  | case2 resolution ranged first rest queued done kept _ ih =>
    rw [rounds.eq_2]
    exact (foldlM follow (first :: rest) ⟨resolution, []⟩).trans ih

end Asks

/-- In a run each lookup is evaluated in its turn, and nothing else is. -/
theorem queried_resolve (bounded : resolver.Bounded platform initial) :
    let run := resolver.resolve platform initial bounded
    run.queried = run.value.lookups.flatMap resolver.evaluations := by
  obtain ⟨asked, lookups, queried⟩ := Asks.rounds bounded (.seed initial) initial.toList
    bounded.choose_spec.1 fun _ member => member
  have all : (resolver.resolve platform initial bounded).value.lookups = asked := lookups
  dsimp only
  rw [all, ← queried]
  exact List.append_nil _

/-- Lookups leave the queries to be evaluated by those who look up. -/
def Lazy (resolver : Resolver) : Prop := ∀ id, (resolver.lookup id).queried = []

theorem lazy_ofCatalog (catalog : Catalog) (disk : Disk) (table : PlatformTable)
    (scope : Option ModuleId) : (ofCatalog catalog disk table scope).Lazy := by
  intro id
  simp only [ofCatalog, Catalog.declaration]
  split
  · rfl
  · rfl
  · split <;> rfl

theorem Lazy.flatMap_evaluations (lazy : resolver.Lazy) (lookups : List ModuleId) :
    lookups.flatMap resolver.evaluations = lookups.filter resolver.isQuery := by
  induction lookups with
  | nil => rfl
  | cons id rest ih =>
    rw [List.flatMap_cons, ih, evaluations, lazy id, queried_evaluate, List.nil_append,
      List.filter_cons, isQuery]
    split <;> rfl

end Resolver
end BundlePlan
