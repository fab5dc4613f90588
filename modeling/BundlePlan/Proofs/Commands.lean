import BundlePlan.CommandLine.Session
import BundlePlan.Proofs.Distances
import BundlePlan.Proofs.Pieces
import BundlePlan.Proofs.Reproducibility

/-! What the command leaves behind. Faults of the arguments and of the configuration are met before
anything is written, and nothing is printed before all else has succeeded. Explanations come in the
order in which they are asked for, up to the first module that is not there. -/
namespace BundlePlan

private theorem Resolver.Accounts.isSome_explain {resolver : Resolver} {platform : Platform}
    {initial : ModuleSet} {resolution : Resolution}
    (accounts : Accounts resolver platform initial resolution.graph.vertices [] [] resolution)
    (id : ModuleId) : (resolution.explain id).isSome = true ↔ id ∈ resolution.modules := by
  rw [accounts.mem_modules_iff, reachable_iff_walked]
  constructor
  · intro explained
    by_contra unreached
    rw [accounts.explain_eq_none (not_exists.1 unreached)] at explained
    cases explained
  · rintro ⟨n, walked⟩
    exact Option.isSome_iff_exists.2 (accounts.exists_explain walked)

def Session.written (lines : List String) : String := String.join (lines.map (· ++ "\n"))

namespace Plan

/-- The line that tells why a module is in the bundle, or would be if it were not excluded. -/
def Explains (plan : Plan) (id : ModuleId) (line : String) : Prop :=
  ∃ chain, plan.resolution.explain id = some chain ∧
    line = id.text ++ ": " ++ " -> ".intercalate (chain.map ModuleId.text) ++
      if id ∈ plan.descriptor.excludes then " (excluded)" else ""

/-- The text tells why these modules are in the bundle, in this order and with one line for each. -/
def Tells (plan : Plan) (ids : List ModuleId) (text : String) : Prop :=
  ∃ lines, List.Forall₂ plan.Explains ids lines ∧ (∀ line ∈ lines, '\n' ∉ line.toList) ∧
    text = Session.written lines

private theorem Explains.newline_not_mem {plan : Plan} {id : ModuleId} {line : String}
    (explains : plan.Explains id line) : '\n' ∉ line.toList := by
  obtain ⟨chain, _, rfl⟩ := explains
  have linked : '\n' ∉ " -> ".toList.intercalate (chain.map fun id => id.text.toList) := by
    apply not_mem_intercalate (by decide)
    exact List.forall_mem_map.2 fun id _ => id.newline_not_mem
  have marked : '\n' ∉ (if id ∈ plan.descriptor.excludes then " (excluded)" else "").toList := by
    split <;> decide
  simp only [String.toList_append, String.toList_intercalate, List.map_map, List.mem_append,
    not_or]
  exact ⟨⟨⟨id.newline_not_mem, by decide⟩, linked⟩, marked⟩

private theorem tells_written {plan : Plan} {ids : List ModuleId} {lines : List String}
    (explained : List.Forall₂ plan.Explains ids lines) :
    plan.Tells ids (Session.written lines) := by
  refine ⟨lines, explained, ?_, rfl⟩
  induction explained with
  | nil => nofun
  | cons here _ ih => exact List.forall_mem_cons.2 ⟨here.newline_not_mem, ih⟩

/-- What explaining a module relies on. -/
structure Explainable (plan : Plan) : Prop where
  explained : ∀ id, (plan.resolution.explain id).isSome = true ↔ id ∈ plan.resolution.modules
  bundled : ∀ id ∈ plan.resolution.modules,
    id ∈ plan.descriptor.hiddenImports ↔ id ∉ plan.descriptor.excludes

private theorem explainable_ofConfiguration {configuration : Configuration} {files : Disk}
    {platform : Platform} {plan : Plan} (searched : configuration.searchPaths ≠ [])
    (made : (ofConfiguration files configuration platform).value = .ok plan) :
    plan.Explainable := by
  obtain ⟨bounded, made'⟩ := value_ofConfiguration searched files platform
  obtain rfl := Except.ok.inj (made'.symm.trans made)
  refine ⟨(Resolver.accounts_resolve bounded).isSome_explain, fun id member => ?_⟩
  exact mem_hiddenImports.trans (and_iff_right member)

end Plan

namespace Arguments

/-- The configuration that a run goes by: the one loaded, but for the manifests asked for. -/
def adjust (arguments : Arguments) (configuration : Configuration) : Configuration :=
  match arguments.manifests with
  | none => configuration
  | some directory => configuration.setManifestDirectory directory

/-- The plan that the arguments lead to. -/
def Plans (arguments : Arguments) (disk : Disk) (plan : Plan) : Prop :=
  ∃ configuration, (Configuration.load disk arguments.config).value = .ok configuration ∧
    (Plan.ofConfiguration disk (arguments.adjust configuration)
      (arguments.platform.getD .host)).value = .ok plan

variable {arguments : Arguments} {disk : Disk} {plan : Plan}

private theorem searchPaths_adjust {configuration : Configuration}
    (loaded : (Configuration.load disk arguments.config).value = .ok configuration) :
    (arguments.adjust configuration).searchPaths ≠ [] := by
  have searched : configuration.searchPaths ≠ [] := by
    unfold Configuration.load at loaded
    split at loaded
    · cases loaded
    · exact Configuration.searchPaths_ne_nil loaded
  unfold adjust
  split
  · exact searched
  · exact searched

theorem exists_plans {configuration : Configuration}
    (loaded : (Configuration.load disk arguments.config).value = .ok configuration) :
    ∃ plan, arguments.Plans disk plan := by
  obtain ⟨_, made⟩ := Plan.value_ofConfiguration (searchPaths_adjust loaded) disk
    (arguments.platform.getD .host)
  exact ⟨_, configuration, loaded, made⟩

private theorem Plans.explainable (plans : arguments.Plans disk plan) : plan.Explainable := by
  obtain ⟨configuration, loaded, made⟩ := plans
  exact Plan.explainable_ofConfiguration (searchPaths_adjust loaded) made

private theorem parse?_of_fault? (valid : arguments.fault? = none) :
    ∀ name ∈ arguments.explain, (ModuleId.parse? name).isSome = true := by
  intro name member
  unfold fault? at valid
  split at valid
  · cases valid
  · rename_i sound
    have parsed := List.find?_eq_none.1 sound name member
    rwa [Option.isNone_iff_eq_none, ← ne_eq, ← Option.isSome_iff_ne_none] at parsed

private theorem map_text_explained (valid : arguments.fault? = none) :
    arguments.explained.map ModuleId.text = arguments.explain := by
  have parsed := parse?_of_fault? valid
  unfold explained
  generalize arguments.explain = names at parsed
  induction names with
  | nil => rfl
  | cons name rest ih =>
    obtain ⟨here, later⟩ := List.forall_mem_cons.1 parsed
    obtain ⟨id, found⟩ := Option.isSome_iff_exists.1 here
    rw [List.filterMap_cons_some found, List.map_cons, ih later, ModuleId.text_of_parse? found]

end Arguments

def Disk.store (disk : Disk) (path : FilePath) (text : String) : Disk × Except FileFailure Unit :=
  match disk.ensureDirectories path.enclosing with
  | (made, .error failure) => (made, .error failure)
  | (made, .ok ()) =>
    match made.writeText path text with
    | .error failure => (made, .error failure)
    | .ok written => (written, .ok ())

namespace Session

variable {α β : Type} {first : Session α} {next : α → Session β} {transcript reached : Transcript}
  {plan : Plan} {arguments : Arguments} {disk : Disk}

def runFrom (session : Session α) (transcript : Transcript) : Except Failure α × Transcript :=
  (ExceptT.run session).run transcript

theorem runFrom_bind_ok {value : α} (done : runFrom first transcript = (.ok value, reached)) :
    runFrom (first >>= next) transcript = runFrom (next value) reached := by
  simp only [runFrom] at done
  simp only [runFrom, ExceptT.run_bind, StateT.run_bind, done]
  rfl

theorem runFrom_bind_error {failure : Failure}
    (failed : runFrom first transcript = (.error failure, reached)) :
    runFrom (first >>= next) transcript = (.error failure, reached) := by
  simp only [runFrom] at failed
  simp only [runFrom, ExceptT.run_bind, StateT.run_bind, failed]
  rfl

private theorem runFrom_get (transcript : Transcript) :
    runFrom get transcript = (.ok transcript, transcript) := rfl

def noting (transcript : Transcript) (events : List Event) : Transcript :=
  { transcript with events := transcript.events ++ events }

def telling (transcript : Transcript) (text : String) : Transcript :=
  { transcript with diagnostics := transcript.diagnostics ++ text }

private theorem telling_cons (transcript : Transcript) (line : String) (lines : List String) :
    telling transcript (written (line :: lines)) =
      telling (telling transcript (line ++ "\n")) (written lines) := by
  simp only [telling, written, List.map_cons, String.join_cons, String.append_assoc]

private theorem runFrom_logged (work : Disk → Logged (Except ConfigurationFault α))
    (transcript : Transcript) :
    runFrom (logged work) transcript =
      ((work transcript.disk).value.mapError .configuration,
        noting transcript (work transcript.disk).events) := by
  unfold logged
  rw [runFrom_bind_ok (runFrom_get transcript)]
  rcases work transcript.disk with ⟨value, events⟩
  cases value with
  | ok value => rfl
  | error fault => rfl

private theorem runFrom_printDiagnostic (line : String) (transcript : Transcript) :
    runFrom (printDiagnostic line) transcript = (.ok (), telling transcript (line ++ "\n")) := by
  rw [telling, ← String.append_assoc]
  rfl

private theorem runFrom_explain_of_mem (explainable : plan.Explainable) {id : ModuleId}
    (member : id ∈ plan.resolution.modules) (transcript : Transcript) :
    ∃ line, plan.Explains id line ∧
      runFrom (explain plan id) transcript = (.ok (), telling transcript (line ++ "\n")) := by
  obtain ⟨chain, explained⟩ := Option.isSome_iff_exists.1 ((explainable.explained id).2 member)
  refine ⟨_, ⟨chain, explained, rfl⟩, ?_⟩
  unfold explain
  rw [explained]
  by_cases excluded : id ∈ plan.descriptor.excludes
  · have unbundled : id ∉ plan.descriptor.hiddenImports := fun bundled =>
      (explainable.bundled id member).1 bundled excluded
    simp only [if_pos excluded, if_neg unbundled]
    exact runFrom_printDiagnostic _ transcript
  · simp only [if_neg excluded, if_pos ((explainable.bundled id member).2 excluded)]
    exact runFrom_printDiagnostic _ transcript

private theorem runFrom_explain_of_not_mem (explainable : plan.Explainable) {id : ModuleId}
    (absent : id ∉ plan.resolution.modules) (transcript : Transcript) :
    runFrom (explain plan id) transcript = (.error (.unknownModule id.text), transcript) := by
  have unexplained : plan.resolution.explain id = none := by
    rw [← Option.not_isSome_iff_eq_none, explainable.explained id]
    exact absent
  unfold explain
  rw [unexplained]
  rfl

private theorem runFrom_explains (explainable : plan.Explainable) {ids : List ModuleId}
    (members : ∀ id ∈ ids, id ∈ plan.resolution.modules) (transcript : Transcript) :
    ∃ lines, List.Forall₂ plan.Explains ids lines ∧
      runFrom (forM ids (explain plan)) transcript =
        (.ok (), telling transcript (written lines)) := by
  induction ids generalizing transcript with
  | nil =>
    refine ⟨[], .nil, ?_⟩
    have same : telling transcript (written []) = transcript := by
      simp only [telling, written, List.map_nil, String.join_nil, String.append_empty]
    rw [same]
    rfl
  | cons id rest ih =>
    obtain ⟨here, later⟩ := List.forall_mem_cons.1 members
    obtain ⟨line, explains, done⟩ := runFrom_explain_of_mem explainable here transcript
    obtain ⟨lines, explained, doneToo⟩ := ih later (telling transcript (line ++ "\n"))
    refine ⟨line :: lines, .cons explains explained, ?_⟩
    rw [List.forM_cons, runFrom_bind_ok done, doneToo, telling_cons]

/-- The part of a run that writes: the graph first, if it is asked for, then the descriptor. -/
def handOver (arguments : Arguments) (plan : Plan) : Session Unit := do
  match arguments.graph with
  | none => pure ()
  | some path => deliver plan.resolution.dot (some path)
  deliver (plan.descriptor.render arguments.format) arguments.output

private theorem resolve_eq (arguments : Arguments) : resolve arguments =
    loadConfiguration arguments >>= fun configuration =>
      logged (fun disk => Plan.ofConfiguration disk configuration
        (arguments.platform.getD Platform.host)) >>= fun plan =>
      forM arguments.explained (explain plan) >>= fun _ => handOver arguments plan := by
  unfold resolve handOver
  cases arguments.graph with
  | none => rfl
  | some path => rfl

private theorem runFrom_ensureDirectories (directories : List FilePath) (transcript : Transcript) :
    runFrom (ensureDirectories directories) transcript =
      ((transcript.disk.ensureDirectories directories).2.mapError .files,
        { transcript with disk := (transcript.disk.ensureDirectories directories).1 }) := by
  unfold ensureDirectories
  rw [runFrom_bind_ok (runFrom_get transcript)]
  rcases transcript.disk.ensureDirectories directories with ⟨disk, outcome⟩
  cases outcome with
  | ok done => rfl
  | error failure => rfl

private theorem runFrom_writeText (path : FilePath) (text : String) (transcript : Transcript) :
    runFrom (writeText path text) transcript =
      match transcript.disk.writeText path text with
      | .ok disk => (.ok (), { transcript with disk := disk })
      | .error failure => (.error (.files failure), transcript) := by
  unfold writeText
  rw [runFrom_bind_ok (runFrom_get transcript)]
  cases transcript.disk.writeText path text with
  | ok disk => rfl
  | error failure => rfl

theorem runFrom_deliver (text : String) (path : FilePath) (transcript : Transcript) :
    runFrom (deliver text (some path)) transcript =
      match transcript.disk.store path text with
      | (disk, .ok ()) => (.ok (), noting { transcript with disk := disk } [.wrote path])
      | (disk, .error failure) => (.error (.files failure), { transcript with disk := disk }) := by
  have ensured := runFrom_ensureDirectories path.enclosing transcript
  unfold deliver Disk.store
  rcases same : transcript.disk.ensureDirectories path.enclosing with ⟨made, outcome⟩
  rw [same] at ensured
  cases outcome with
  | error failure => exact runFrom_bind_error ensured
  | ok done =>
    rw [runFrom_bind_ok ensured]
    have wrote := runFrom_writeText path text { transcript with disk := made }
    dsimp only at wrote ⊢
    cases attempt : made.writeText path text with
    | error failure =>
      rw [attempt] at wrote
      exact runFrom_bind_error wrote
    | ok disk =>
      rw [attempt] at wrote
      rw [runFrom_bind_ok wrote]
      rfl

private theorem deliver_cases (text : String) (path : FilePath) (transcript : Transcript) :
    ∃ disk events,
      runFrom (deliver text (some path)) transcript =
          (.ok (), { transcript with disk := disk, events := events }) ∨
        ∃ failure, runFrom (deliver text (some path)) transcript =
          (.error (.files failure), { transcript with disk := disk, events := events }) := by
  rw [runFrom_deliver]
  rcases transcript.disk.store path text with ⟨disk, outcome⟩
  cases outcome with
  | ok done => exact ⟨disk, _, .inl rfl⟩
  | error failure => exact ⟨disk, transcript.events, .inr ⟨failure, rfl⟩⟩

def printed (arguments : Arguments) (plan : Plan) : String :=
  if arguments.output.isNone then plan.descriptor.render arguments.format else ""

private theorem deliver_output_cases (arguments : Arguments) (plan : Plan)
    (transcript : Transcript) :
    ∃ disk events,
      runFrom (deliver (plan.descriptor.render arguments.format) arguments.output) transcript =
          (.ok (), ⟨disk, transcript.output ++ printed arguments plan, transcript.diagnostics,
            events⟩) ∨
        ∃ failure,
          runFrom (deliver (plan.descriptor.render arguments.format) arguments.output) transcript =
            (.error (.files failure), { transcript with disk := disk, events := events }) := by
  cases named : arguments.output with
  | none =>
    have here : printed arguments plan = plan.descriptor.render arguments.format :=
      if_pos (by rw [named]; rfl)
    rw [here]
    exact ⟨transcript.disk, transcript.events, .inl rfl⟩
  | some path =>
    have nothing : printed arguments plan = "" := if_neg (by rw [named]; exact Bool.noConfusion)
    rw [nothing, String.append_empty]
    exact deliver_cases _ path transcript

private theorem handOver_cases (arguments : Arguments) (plan : Plan) (transcript : Transcript) :
    ∃ disk events,
      runFrom (handOver arguments plan) transcript =
          (.ok (), ⟨disk, transcript.output ++ printed arguments plan, transcript.diagnostics,
            events⟩) ∨
        ∃ failure, runFrom (handOver arguments plan) transcript =
          (.error (.files failure), { transcript with disk := disk, events := events }) := by
  unfold handOver
  cases arguments.graph with
  | none => exact deliver_output_cases arguments plan transcript
  | some path =>
    obtain ⟨disk, events, done | ⟨failure, failed⟩⟩ :=
      deliver_cases plan.resolution.dot path transcript
    · rw [runFrom_bind_ok done]
      exact deliver_output_cases arguments plan _
    · exact ⟨disk, events, .inr ⟨failure, runFrom_bind_error failed⟩⟩

private theorem loadConfiguration_ok (transcript : Transcript) {configuration : Configuration}
    (loaded : (Configuration.load transcript.disk arguments.config).value = .ok configuration) :
    runFrom (loadConfiguration arguments) transcript =
      (.ok (arguments.adjust configuration),
        noting transcript (Configuration.load transcript.disk arguments.config).events) := by
  have read := runFrom_logged (fun disk => Configuration.load disk arguments.config) transcript
  rw [loaded] at read
  unfold loadConfiguration Arguments.adjust
  rw [runFrom_bind_ok read]
  cases arguments.manifests with
  | none => rfl
  | some directory => rfl

private theorem loadConfiguration_error (transcript : Transcript) {fault : ConfigurationFault}
    (refused : (Configuration.load transcript.disk arguments.config).value = .error fault) :
    runFrom (loadConfiguration arguments) transcript =
      (.error (.configuration fault),
        noting transcript (Configuration.load transcript.disk arguments.config).events) := by
  have read := runFrom_logged (fun disk => Configuration.load disk arguments.config) transcript
  rw [refused] at read
  exact runFrom_bind_error read

private theorem run_of_fault? {reason : String} (invalid : arguments.fault? = some reason) :
    (command arguments).run disk = (.error (.invalidArguments reason), start disk) := by
  unfold command
  rw [invalid]
  rfl

private theorem run_of_refused (valid : arguments.fault? = none) {fault : ConfigurationFault}
    (refused : (Configuration.load disk arguments.config).value = .error fault) :
    ∃ events, (command arguments).run disk =
      (.error (.configuration fault), noting (start disk) events) := by
  unfold command
  rw [valid, resolve_eq]
  exact ⟨_, runFrom_bind_error (loadConfiguration_error (start disk) refused)⟩

private theorem run_of_plans (valid : arguments.fault? = none) (plans : arguments.Plans disk plan) :
    ∃ events, (command arguments).run disk =
      runFrom (forM arguments.explained (explain plan) >>= fun _ => handOver arguments plan)
        (noting (start disk) events) := by
  obtain ⟨configuration, loaded, made⟩ := plans
  have planned := runFrom_logged (fun disk => Plan.ofConfiguration disk
    (arguments.adjust configuration) (arguments.platform.getD .host))
    (noting (start disk) (Configuration.load disk arguments.config).events)
  have here : (noting (start disk) (Configuration.load disk arguments.config).events).disk = disk :=
    rfl
  rw [here, made] at planned
  refine ⟨(Configuration.load disk arguments.config).events ++ (Plan.ofConfiguration disk
    (arguments.adjust configuration) (arguments.platform.getD .host)).events, ?_⟩
  unfold command
  rw [valid, resolve_eq]
  refine (runFrom_bind_ok (loadConfiguration_ok (start disk) loaded)).trans ?_
  exact runFrom_bind_ok planned

private theorem explains_of_known (plans : arguments.Plans disk plan)
    (known : ∀ id ∈ arguments.explained, id ∈ plan.resolution.modules) (transcript : Transcript) :
    ∃ lines, plan.Tells arguments.explained (written lines) ∧
      runFrom (forM arguments.explained (explain plan) >>= fun _ => handOver arguments plan)
        transcript = runFrom (handOver arguments plan) (telling transcript (written lines)) := by
  obtain ⟨lines, explained, done⟩ := runFrom_explains plans.explainable known transcript
  exact ⟨lines, Plan.tells_written explained, runFrom_bind_ok done⟩

private theorem explains_of_unknown (plans : arguments.Plans disk plan)
    {before after : List ModuleId} {id : ModuleId}
    (asked : arguments.explained = before ++ id :: after)
    (known : ∀ earlier ∈ before, earlier ∈ plan.resolution.modules)
    (absent : id ∉ plan.resolution.modules) (transcript : Transcript) :
    ∃ lines, plan.Tells before (written lines) ∧
      runFrom (forM arguments.explained (explain plan) >>= fun _ => handOver arguments plan)
        transcript = (.error (.unknownModule id.text), telling transcript (written lines)) := by
  obtain ⟨lines, explained, done⟩ := runFrom_explains plans.explainable known transcript
  have stopped := runFrom_explain_of_not_mem plans.explainable absent
    (telling transcript (written lines))
  refine ⟨lines, Plan.tells_written explained, runFrom_bind_error ?_⟩
  rw [asked, List.forM_append, runFrom_bind_ok done, List.forM_cons]
  exact runFrom_bind_error stopped

private theorem all_known_or_first_unknown (plan : Plan) (ids : List ModuleId) :
    (∀ id ∈ ids, id ∈ plan.resolution.modules) ∨
      ∃ before id after, ids = before ++ id :: after ∧
        (∀ earlier ∈ before, earlier ∈ plan.resolution.modules) ∧
        id ∉ plan.resolution.modules := by
  cases found : ids.find? (· ∉ plan.resolution.modules) with
  | none =>
    left
    intro id member
    by_contra absent
    exact List.find?_eq_none.1 found id member (decide_eq_true absent)
  | some id =>
    obtain ⟨absent, before, after, split, known⟩ := List.find?_eq_some_iff_append.1 found
    refine .inr ⟨before, id, after, split, fun earlier member => ?_, of_decide_eq_true absent⟩
    simpa using known earlier member

/-- What a run with this plan answers to the modules asked for. -/
structure Answers (arguments : Arguments) (plan : Plan) (outcome : Except Failure Unit)
    (left : Transcript) : Prop where
  unknown : (∃ name, outcome = .error (.unknownModule name)) ↔
    ∃ id ∈ arguments.explained, id ∉ plan.resolution.modules
  stopped : ∀ before id after, arguments.explained = before ++ id :: after →
    (∀ earlier ∈ before, earlier ∈ plan.resolution.modules) → id ∉ plan.resolution.modules →
    outcome = .error (.unknownModule id.text) ∧ plan.Tells before left.diagnostics
  told : (∀ id ∈ arguments.explained, id ∈ plan.resolution.modules) →
    plan.Tells arguments.explained left.diagnostics

private theorem run_of_unknown (valid : arguments.fault? = none) (plans : arguments.Plans disk plan)
    {before after : List ModuleId} {id : ModuleId}
    (asked : arguments.explained = before ++ id :: after)
    (known : ∀ earlier ∈ before, earlier ∈ plan.resolution.modules)
    (absent : id ∉ plan.resolution.modules) :
    ∃ text events, plan.Tells before text ∧
      (command arguments).run disk = (.error (.unknownModule id.text), ⟨disk, "", text, events⟩) := by
  obtain ⟨events, run⟩ := run_of_plans valid plans
  obtain ⟨lines, tells, stopped⟩ := explains_of_unknown plans asked known absent
    (noting (start disk) events)
  refine ⟨written lines, (noting (start disk) events).events, tells, ?_⟩
  rw [run, stopped, telling, noting, start, String.empty_append]

theorem run_of_known (valid : arguments.fault? = none) (plans : arguments.Plans disk plan)
    (known : ∀ id ∈ arguments.explained, id ∈ plan.resolution.modules) :
    ∃ text events, plan.Tells arguments.explained text ∧ (command arguments).run disk =
      runFrom (handOver arguments plan) ⟨disk, "", text, events⟩ := by
  obtain ⟨events, run⟩ := run_of_plans valid plans
  obtain ⟨lines, tells, told⟩ := explains_of_known plans known (noting (start disk) events)
  refine ⟨written lines, (noting (start disk) events).events, tells, ?_⟩
  rw [run, told, telling, noting, start, String.empty_append]

private theorem answers (valid : arguments.fault? = none) (plans : arguments.Plans disk plan) :
    Answers arguments plan ((command arguments).run disk).1 ((command arguments).run disk).2 where
  unknown := by
    rcases all_known_or_first_unknown plan arguments.explained with
      known | ⟨before, id, after, asked, known, absent⟩
    · obtain ⟨text, events, _, run⟩ := run_of_known valid plans known
      obtain ⟨_, _, done | ⟨failure, failed⟩⟩ :=
        handOver_cases arguments plan ⟨disk, "", text, events⟩
      · simpa [run, done] using known
      · simpa [run, failed] using known
    · obtain ⟨_, _, _, run⟩ := run_of_unknown valid plans asked known absent
      rw [run]
      exact ⟨fun _ => ⟨id, by simp [asked], absent⟩, fun _ => ⟨id.text, rfl⟩⟩
  stopped := by
    intro before id after asked known absent
    obtain ⟨_, _, tells, run⟩ := run_of_unknown valid plans asked known absent
    rw [run]
    exact ⟨rfl, tells⟩
  told := by
    intro known
    obtain ⟨text, events, tells, run⟩ := run_of_known valid plans known
    obtain ⟨_, _, done | ⟨failure, failed⟩⟩ :=
      handOver_cases arguments plan ⟨disk, "", text, events⟩
    · rw [run, done]
      exact tells
    · rw [run, failed]
      exact tells

/-- A run fails before anything is written, or it comes to the part that writes. -/
theorem run_cases (arguments : Arguments) (disk : Disk) :
    (∃ failure text events, (∀ cause, failure ≠ .files cause) ∧
      (command arguments).run disk = (.error failure, ⟨disk, "", text, events⟩)) ∨
    ∃ plan text events, arguments.Plans disk plan ∧
      (command arguments).run disk = runFrom (handOver arguments plan) ⟨disk, "", text, events⟩ := by
  cases valid : arguments.fault? with
  | some reason =>
    exact .inl ⟨.invalidArguments reason, "", [], nofun, run_of_fault? valid⟩
  | none =>
    cases loaded : (Configuration.load disk arguments.config).value with
    | error fault =>
      obtain ⟨events, run⟩ := run_of_refused valid loaded
      exact .inl ⟨.configuration fault, "", events, nofun, run⟩
    | ok configuration =>
      obtain ⟨plan, plans⟩ := Arguments.exists_plans loaded
      rcases all_known_or_first_unknown plan arguments.explained with
        known | ⟨before, id, after, asked, known, absent⟩
      · obtain ⟨text, events, _, run⟩ := run_of_known valid plans known
        exact .inr ⟨plan, text, events, plans, run⟩
      · obtain ⟨text, events, _, run⟩ := run_of_unknown valid plans asked known absent
        exact .inl ⟨.unknownModule id.text, text, events, nofun, run⟩

/-- How a run can end: before anything is written, at a file, or well. -/
theorem run_ends (arguments : Arguments) (disk : Disk) :
    ∃ disk' text events,
      (∃ failure, (∀ cause, failure ≠ .files cause) ∧
        (command arguments).run disk = (.error failure, ⟨disk, "", text, events⟩)) ∨
      (∃ failure, (command arguments).run disk =
        (.error (.files failure), ⟨disk', "", text, events⟩)) ∨
      ∃ plan, arguments.Plans disk plan ∧
        (command arguments).run disk = (.ok (), ⟨disk', printed arguments plan, text, events⟩) := by
  rcases run_cases arguments disk with ⟨failure, text, events, early, run⟩ |
    ⟨plan, text, events, plans, run⟩
  · exact ⟨disk, text, events, .inl ⟨failure, early, run⟩⟩
  · obtain ⟨disk', events', done | ⟨failure, failed⟩⟩ :=
      handOver_cases arguments plan ⟨disk, "", text, events⟩
    · exact ⟨disk', text, events', .inr (.inr ⟨plan, plans, by simpa using run.trans done⟩)⟩
    · exact ⟨disk', text, events', .inr (.inl ⟨failure, run.trans failed⟩)⟩

/-- What a run of the command owes to its arguments and to the files that it finds. Only a failure
at a file can come after something was written. -/
structure Faithful (arguments : Arguments) (disk : Disk) (outcome : Except Failure Unit)
    (left : Transcript) : Prop where
  inert : ∀ failure, outcome = .error failure → (∀ cause, failure ≠ .files cause) → left.disk = disk
  silent : ∀ failure, outcome = .error failure → left.output = ""
  printed : outcome = .ok () → ∃ plan, arguments.Plans disk plan ∧
    left.output = if arguments.output = none then plan.descriptor.render arguments.format else ""
  asked : arguments.fault? = none → arguments.explained.map ModuleId.text = arguments.explain
  planned : ∀ configuration,
    (Configuration.load disk arguments.config).value = .ok configuration →
    ∃ plan, arguments.Plans disk plan
  answers : arguments.fault? = none → ∀ plan, arguments.Plans disk plan →
    Answers arguments plan outcome left

/-- Whatever the arguments and the files are: the files are left as they are by a run that fails for
any other reason than a file, nothing is printed by a run that fails, and exactly the descriptor by
one that succeeds and has no file for it. Of the modules to be explained the first one that is not
there is reported, and each one before it has its line. -/
theorem command_faithful (arguments : Arguments) (disk : Disk) :
    Faithful arguments disk ((command arguments).run disk).1 ((command arguments).run disk).2 := by
  obtain ⟨disk', text, events, ends⟩ := run_ends arguments disk
  refine {
    asked := Arguments.map_text_explained
    planned := fun _ => Arguments.exists_plans
    answers := fun valid _ => answers valid
    inert := ?_, silent := ?_, printed := ?_ }
  · rintro failure failed early
    rcases ends with ⟨_, _, run⟩ | ⟨cause, run⟩ | ⟨_, _, run⟩
    · rw [run]
    · rw [run] at failed
      exact absurd (Except.error.inj failed).symm (early cause)
    · rw [run] at failed
      cases failed
  · rintro failure failed
    rcases ends with ⟨_, _, run⟩ | ⟨_, run⟩ | ⟨_, _, run⟩
    · rw [run]
    · rw [run]
    · rw [run] at failed
      cases failed
  · intro done
    rcases ends with ⟨_, _, run⟩ | ⟨_, run⟩ | ⟨plan, plans, run⟩
    · rw [run] at done
      cases done
    · rw [run] at done
      cases done
    · refine ⟨plan, plans, ?_⟩
      rw [run]
      simp only [Session.printed, Option.isNone_iff_eq_none]

end Session
end BundlePlan
