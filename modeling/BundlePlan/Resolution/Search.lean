import BundlePlan.Resolution.Graph
import BundlePlan.Resolution.Measure
import BundlePlan.Resolution.Queue
import BundlePlan.Dictionary

/-! The search for a shortest walk in a graph: the queue holds walks to go on from, and a vertex
is entered again only by a walk shorter than all that have reached it before. Every such entry
either reaches a vertex for the first time or lowers a recorded length, so the search ends on
every graph, with or without cycles. -/
namespace BundlePlan

/-- The least length known for each vertex reached, and the walks still to go on from. -/
structure Frontier where
  lengths : Dictionary Nat Nat
  queue : Queue

namespace Frontier

def start (vertex : Nat) : Frontier :=
  ⟨(∅ : Dictionary Nat Nat).insert vertex 0, Queue.empty.push ⟨vertex, []⟩⟩

/-- Whether a walk of this length to `vertex` is no gain. -/
def settled (frontier : Frontier) (vertex length : Nat) : Bool :=
  (frontier.lengths.find? vertex).any (· ≤ length)

def enter (frontier : Frontier) (walk : Walk) : Frontier :=
  if frontier.settled walk.vertex walk.length then frontier
  else ⟨frontier.lengths.insert walk.vertex walk.length, frontier.queue.push walk⟩

def unreached (graph : Graph) (frontier : Frontier) : Nat :=
  graph.edges.countP fun edge => (frontier.lengths.find? edge.target).isNone

def sumOfLengths : List (Nat × Nat) → Nat
  | [] => 0
  | entry :: rest => entry.2 + sumOfLengths rest

def totalLength (frontier : Frontier) : Nat := sumOfLengths frontier.lengths.entries

/-- Entries make progress: more vertices are reached, or the same by shorter walks. -/
def Improves (graph : Graph) (after before : Frontier) : Prop :=
  after.unreached graph < before.unreached graph ∨
    after.unreached graph = before.unreached graph ∧ after.totalLength < before.totalLength

theorem Improves.trans {graph : Graph} {last middle first : Frontier}
    (later : Improves graph last middle) (earlier : Improves graph middle first) :
    Improves graph last first := by
  unfold Improves at *
  omega

private theorem sum_put_lt {key value old : Nat} {entries : List (Nat × Nat)}
    (held : (entries.find? fun entry => entry.1 = key).map Prod.snd = some old)
    (less : value < old) :
    sumOfLengths (Dictionary.put key value entries) < sumOfLengths entries := by
  induction entries with
  | nil => simp at held
  | cons entry rest ih =>
    by_cases same : entry.1 = key
    · simp only [List.find?_cons, same, decide_true, Option.map_some, Option.some.injEq] at held
      simp only [Dictionary.put, same, if_true, sumOfLengths]
      omega
    · have further := ih (by simpa [same] using held)
      simp only [Dictionary.put, same, if_false, sumOfLengths]
      omega

theorem enter_cases (graph : Graph) (frontier : Frontier) (walk : Walk)
    (target : walk.vertex ∈ graph.edges.map Edge.target) :
    frontier.enter walk = frontier ∨ Improves graph (frontier.enter walk) frontier := by
  unfold enter
  split
  · exact .inl rfl
  · rename_i gain
    refine .inr ?_
    have found (x : Nat) := frontier.lengths.find?_insert walk.vertex x walk.length
    have kept : ∀ edge ∈ graph.edges,
        ((frontier.lengths.insert walk.vertex walk.length).find? edge.target).isNone = true →
          (frontier.lengths.find? edge.target).isNone = true := by
      intro edge _ none
      rw [found] at none
      split at none
      · simp at none
      · exact none
    cases held : frontier.lengths.find? walk.vertex with
    | none =>
      obtain ⟨edge, member, same⟩ := List.mem_map.1 target
      refine .inl (countP_lt_of_lost kept member ?_ ?_)
      · simp [same, held]
      · simp [found, same]
    | some old =>
      have less : walk.length < old := by
        simpa [settled, held] using gain
      refine .inr ⟨?_, sum_put_lt held less⟩
      refine List.countP_congr fun edge _ => ?_
      rw [found]
      split
      · rename_i same; simp [← same, held]
      · rfl

theorem enter_fold_cases (graph : Graph) (walks : List Walk) (frontier : Frontier)
    (targets : ∀ walk ∈ walks, walk.vertex ∈ graph.edges.map Edge.target) :
    walks.foldl enter frontier = frontier ∨
      Improves graph (walks.foldl enter frontier) frontier := by
  induction walks generalizing frontier with
  | nil => exact .inl rfl
  | cons walk rest ih =>
    have later := ih (frontier.enter walk) fun w inside => targets w (List.mem_cons_of_mem _ inside)
    have first := enter_cases graph frontier walk (targets walk List.mem_cons_self)
    simp only [List.foldl_cons]
    rcases first with same | better
    · rw [same] at later ⊢; exact later
    · rcases later with same | further
      · rw [same]; exact .inr better
      · exact .inr (further.trans better)

end Frontier

namespace Graph

theorem mem_successors {graph : Graph} {index next : Nat} (member : next ∈ graph.successors index) :
    next ∈ graph.edges.map Edge.target := by
  simp only [successors, List.mem_reverse, List.mem_map, List.mem_filter] at member
  obtain ⟨edge, ⟨inside, _⟩, same⟩ := member
  exact List.mem_map.2 ⟨edge, inside, same⟩

def steps (graph : Graph) (walk : Walk) : List Walk :=
  (graph.successors walk.vertex).map walk.extend

theorem steps_targets {graph : Graph} {walk next : Walk} (member : next ∈ graph.steps walk) :
    next.vertex ∈ graph.edges.map Edge.target := by
  obtain ⟨vertex, inside, same⟩ := List.mem_map.1 member
  rw [← same]
  exact mem_successors inside

/-- Goes on until the goal comes out of the queue or the queue is empty. A walk longer than the
least length known for its vertex is passed over. -/
def searchFrom (graph : Graph) (goal : Nat) (frontier : Frontier) : Option Walk :=
  match _popped : frontier.queue.pop? with
  | none => none
  | some (walk, queue) =>
    if walk.vertex = goal then some walk
    else if (frontier.lengths.find? walk.vertex).any (· < walk.length) then
      searchFrom graph goal { frontier with queue := queue }
    else
      searchFrom graph goal
        ((graph.steps walk).foldl Frontier.enter { frontier with queue := queue })
termination_by (frontier.unreached graph, frontier.totalLength, frontier.queue.size)
decreasing_by
  · exact Prod.Lex.right _ (Prod.Lex.right _ (Queue.size_pop? _popped))
  · have cases := Frontier.enter_fold_cases graph (graph.steps walk)
      { frontier with queue := queue } fun next member => steps_targets member
    rcases cases with same | fewer | ⟨equal, shorter⟩
    · rw [same]
      exact Prod.Lex.right _ (Prod.Lex.right _ (Queue.size_pop? _popped))
    · exact Prod.Lex.left _ _ fewer
    · exact Prod.lex_def.2 (.inr ⟨equal, Prod.Lex.left _ _ shorter⟩)

def shortestWalk? (graph : Graph) (origin goal : Nat) : Option Walk :=
  graph.searchFrom goal (.start origin)

end Graph
end BundlePlan
