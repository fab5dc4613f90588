import BundlePlan.Proofs.Storage

/-! What the two files of a run hold when it has succeeded. The graph is written first, so it is the
descriptor that a file holds to which both paths lead. Arguments are refused when the parts of the
two paths are equal; paths with other parts can still lead to one file. -/
namespace BundlePlan

namespace Disk

variable {disk next : Disk} {path other : FilePath} {text content : String}

theorem store_eq_ok (stored : disk.store path text = (next, .ok ())) :
    next.cwd = disk.cwd ∧
      ∃ made, disk.tree.Keeps made ∧ made.writeText disk.cwd path text = .ok next.tree := by
  have keeps := disk.tree.ensureDirectories_keeps disk.cwd path.enclosing
  unfold store ensureDirectories writeText at stored
  dsimp only at stored
  rcases ensured : disk.tree.ensureDirectories disk.cwd path.enclosing with ⟨made, outcome⟩
  rw [ensured] at keeps stored
  cases outcome with
  | error failure => cases stored
  | ok done =>
    dsimp only at stored keeps
    cases wrote : made.writeText disk.cwd path text with
    | error failure =>
      rw [wrote] at stored
      cases stored
    | ok later =>
      rw [wrote] at stored
      cases stored
      exact ⟨rfl, made, keeps, wrote⟩

theorem readText_store (stored : disk.store path text = (next, .ok ())) :
    next.readText path = .ok text := by
  obtain ⟨here, made, _, wrote⟩ := store_eq_ok stored
  obtain ⟨directory, name, found, short, free, later⟩ := FileTree.writeText_eq_ok.1 wrote
  have grows := FileTree.grows_put_file free (by simp) text.toUTF8
  unfold readText
  rw [here, later]
  refine FileTree.readText_eq_ok.2 ⟨directory, name, grows.locate found, short, ?_⟩
  rw [FileTree.find_put _ _ (by simp), if_pos rfl]

/-- Storing a text changes what is read under exactly the paths that lead to the same place. -/
theorem readText_of_store (before : disk.readText other = .ok content)
    (stored : disk.store path text = (next, .ok ())) :
    next.readText other =
      .ok (if path.place disk.cwd = other.place disk.cwd then text else content) := by
  obtain ⟨here, made, keeps, wrote⟩ := store_eq_ok stored
  obtain ⟨directory, name, found, _, free, later⟩ := FileTree.writeText_eq_ok.1 wrote
  obtain ⟨folder, title, foundToo, shortToo, there⟩ := FileTree.readText_eq_ok.1 before
  have grows := FileTree.grows_put_file free (by simp) text.toUTF8
  have target : directory ++ [name] = path.place disk.cwd := FileTree.location_of_locate found
  have place : folder ++ [title] = other.place disk.cwd := FileTree.location_of_locate foundToo
  unfold readText
  rw [here, later]
  refine FileTree.readText_eq_ok.2
    ⟨folder, title, grows.locate (keeps.grows.locate foundToo), shortToo, ?_⟩
  rw [FileTree.find_put _ _ (by simp), target, place]
  by_cases same : path.place disk.cwd = other.place disk.cwd
  · rw [if_pos same.symm, if_pos same]
  · rw [if_neg (Ne.symm same), if_neg same, ← place]
    exact keeps _ _ there

end Disk

namespace Session

variable {arguments : Arguments} {plan : Plan} {disk : Disk} {transcript left : Transcript}

private theorem deliver_ok {text : String} {path : FilePath}
    (done : runFrom (deliver text (some path)) transcript = (.ok (), left)) :
    transcript.disk.store path text = (left.disk, .ok ()) := by
  rw [runFrom_deliver] at done
  rcases stored : transcript.disk.store path text with ⟨disk, outcome⟩
  rw [stored] at done
  cases outcome with
  | error failure => cases done
  | ok kept =>
    cases done
    rfl

private theorem handOver_ok {output graph : FilePath} (wanted : arguments.output = some output)
    (drawn : arguments.graph = some graph)
    (done : runFrom (handOver arguments plan) transcript = (.ok (), left)) :
    ∃ between, transcript.disk.store graph plan.resolution.dot = (between, .ok ()) ∧
      between.store output (plan.descriptor.render arguments.format) = (left.disk, .ok ()) := by
  unfold handOver at done
  rw [wanted, drawn] at done
  dsimp only at done
  cases first : runFrom (deliver plan.resolution.dot (some graph)) transcript with
  | mk outcome reached =>
    cases outcome with
    | error failure =>
      rw [runFrom_bind_error first] at done
      cases done
    | ok sent =>
      rw [runFrom_bind_ok first] at done
      exact ⟨reached.disk, deliver_ok first, deliver_ok done⟩

/-- When both files are written, the descriptor is in its own, and the graph is in its own too
unless both paths lead to the same place: there the descriptor has taken over. -/
theorem readText_of_handOver {output graph : FilePath} (wanted : arguments.output = some output)
    (drawn : arguments.graph = some graph)
    (done : runFrom (handOver arguments plan) transcript = (.ok (), left)) :
    left.disk.readText output = .ok (plan.descriptor.render arguments.format) ∧
      left.disk.readText graph =
        .ok (if output.place transcript.disk.cwd = graph.place transcript.disk.cwd
          then plan.descriptor.render arguments.format else plan.resolution.dot) := by
  obtain ⟨between, first, second⟩ := handOver_ok wanted drawn done
  have overwritten := Disk.readText_of_store (Disk.readText_store first) second
  rw [(Disk.store_eq_ok first).1] at overwritten
  exact ⟨Disk.readText_store second, overwritten⟩

/-- After a run that succeeds the file for the descriptor holds the descriptor, and the file for the
graph holds the graph exactly if it is another file. -/
theorem files_of_run {output graph : FilePath} (wanted : arguments.output = some output)
    (drawn : arguments.graph = some graph)
    (done : (command arguments).run disk = (.ok (), left)) :
    ∃ plan, arguments.Plans disk plan ∧
      left.disk.readText output = .ok (plan.descriptor.render arguments.format) ∧
      left.disk.readText graph = .ok (if output.place disk.cwd = graph.place disk.cwd
        then plan.descriptor.render arguments.format else plan.resolution.dot) := by
  rcases run_cases arguments disk with ⟨_, _, _, _, run⟩ | ⟨plan, text, events, plans, run⟩
  · rw [run] at done
    cases done
  · rw [run] at done
    exact ⟨plan, plans, readText_of_handOver wanted drawn done⟩

def bothFiles (output graph : String) : Arguments where
  config := ⟨"bundle.toml"⟩
  manifests := none
  platform := some .linux
  format := .json
  output := some ⟨output⟩
  explain := []
  graph := some ⟨graph⟩

def configured : Disk :=
  ⟨((∅ : FileTree).put ["work"] .directory).put ["work", "bundle.toml"] (.file
    "[bundle]\nentry_point = \"main.py\"\nsearch_paths = [\"src\"]\nalways_included = [\"core\"]\n".toUTF8),
    ["work"]⟩

private theorem run_bothFiles (output graph : String)
    (valid : (bothFiles output graph).fault? = none)
    (storable : ∀ plan text events, (runFrom (handOver (bothFiles output graph) plan)
      ⟨configured, "", text, events⟩).1 = .ok ()) :
    ∃ plan transcript left, (bothFiles output graph).Plans configured plan ∧
      transcript.disk = configured ∧
      runFrom (handOver (bothFiles output graph) plan) transcript = (.ok (), left) ∧
      (command (bothFiles output graph)).run configured = (.ok (), left) := by
  have readable : (Configuration.load configured ⟨"bundle.toml"⟩).value.isOk = true := by
    decide +kernel
  cases loaded : (Configuration.load configured ⟨"bundle.toml"⟩).value with
  | error fault =>
    rw [loaded] at readable
    cases readable
  | ok configuration =>
    obtain ⟨plan, plans⟩ : ∃ plan, (bothFiles output graph).Plans configured plan :=
      Arguments.exists_plans loaded
    obtain ⟨text, events, _, run⟩ := run_of_known valid plans nofun
    have stored := storable plan text events
    rcases done : runFrom (handOver (bothFiles output graph) plan) ⟨configured, "", text, events⟩
      with ⟨outcome, left⟩
    rw [done] at run stored
    obtain rfl : outcome = .ok () := stored
    exact ⟨plan, _, left, plans, rfl, done, run⟩

theorem files_of_run_made_directory :
    ∃ left, (command (bothFiles "./made/plan.out" "made/../plan.out")).run configured =
        (.ok (), left) ∧
      ∃ plan, (bothFiles "./made/plan.out" "made/../plan.out").Plans configured plan ∧
        left.disk.readText ⟨"./made/plan.out"⟩ = .ok (plan.descriptor.render .json) ∧
        left.disk.readText ⟨"made/../plan.out"⟩ = .ok plan.resolution.dot := by
  obtain ⟨_, _, left, _, _, _, run⟩ := run_bothFiles "./made/plan.out" "made/../plan.out"
    (by decide) (fun _ _ _ => rfl)
  obtain ⟨plan, plans, described, drawn⟩ := files_of_run rfl rfl run
  have apart : FilePath.place ⟨"./made/plan.out"⟩ configured.cwd ≠
      FilePath.place ⟨"made/../plan.out"⟩ configured.cwd := by decide
  rw [if_neg apart] at drawn
  exact ⟨left, run, plan, plans, described, drawn⟩

private theorem render_json_ne_dot (descriptor : Descriptor) (resolution : Resolution) :
    descriptor.render .json ≠ resolution.dot := by
  intro same
  have heads := congrArg (fun text => text.toList.head?) same
  simp [Descriptor.render, Json.document, Resolution.dot, Graph.dot] at heads

/-- Two paths with other parts pass for two files though they lead to the same one, which then holds
the descriptor and not the graph. -/
theorem graph_overwritten :
    (bothFiles "./plan.out" "plan.out").fault? = none ∧
      ∃ left, (command (bothFiles "./plan.out" "plan.out")).run configured = (.ok (), left) ∧
        ∃ plan, (bothFiles "./plan.out" "plan.out").Plans configured plan ∧
          left.disk.readText ⟨"plan.out"⟩ = .ok (plan.descriptor.render .json) ∧
          left.disk.readText ⟨"plan.out"⟩ ≠ .ok plan.resolution.dot := by
  obtain ⟨plan, transcript, left, plans, here, done, run⟩ :=
    run_bothFiles "./plan.out" "plan.out" (by decide) (fun _ _ _ => rfl)
  obtain ⟨_, overwritten⟩ := readText_of_handOver rfl rfl done
  have same : FilePath.place ⟨"./plan.out"⟩ configured.cwd =
      FilePath.place ⟨"plan.out"⟩ configured.cwd := by decide
  rw [here, if_pos same] at overwritten
  refine ⟨by decide, left, run, plan, plans, overwritten, ?_⟩
  rw [overwritten]
  exact fun text => render_json_ne_dot _ _ (Except.ok.inj text)

end Session
end BundlePlan
