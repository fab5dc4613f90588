import BundlePlan.Proofs.Heap
import BundlePlan.Resolution.Search
import Mathlib.Data.Prod.Lex
import Mathlib.Logic.Relation

/-! The search in a graph comes to an end and finds a shortest walk. As long as it goes on, a walk
of any length is matched by one in the queue that is no longer, unless its last vertex has been
gone on from already; and the goal is never gone on from. -/
namespace BundlePlan

namespace Graph

/-- The walks along the edges that set out from `origin`. -/
inductive IsWalk (graph : Graph) (origin : Nat) : Walk → Prop
  | start : IsWalk graph origin ⟨origin, []⟩
  | extend {walk : Walk} {next : Nat} (earlier : IsWalk graph origin walk)
      (edge : next ∈ graph.successors walk.vertex) : IsWalk graph origin (walk.extend next)

/-- How the search goes on; it does not once the queue is empty or gives out a walk to the goal. -/
def advance? (graph : Graph) (goal : Nat) (frontier : Frontier) : Option Frontier :=
  match frontier.queue.pop? with
  | none => none
  | some (walk, queue) =>
    if walk.vertex = goal then none
    else if (frontier.lengths.find? walk.vertex).any (· < walk.length) then
      some { frontier with queue := queue }
    else some ((graph.steps walk).foldl Frontier.enter { frontier with queue := queue })

def SearchLeads (graph : Graph) (goal : Nat) : Frontier → Frontier → Prop :=
  Relation.ReflTransGen fun before after => graph.advance? goal before = some after

variable {graph : Graph} {origin goal : Nat} {frontier after : Frontier} {walk : Walk}
  {queue : Queue}

private theorem searchFrom_of_popped (popped : frontier.queue.pop? = some (walk, queue)) :
    graph.searchFrom goal frontier =
      if walk.vertex = goal then some walk
      else if (frontier.lengths.find? walk.vertex).any (· < walk.length) then
        graph.searchFrom goal { frontier with queue := queue }
      else graph.searchFrom goal
        ((graph.steps walk).foldl Frontier.enter { frontier with queue := queue }) := by
  rw [searchFrom]
  split
  · rename_i none
    rw [popped] at none
    cases none
  · rename_i same
    rw [popped] at same
    cases same
    rfl

private theorem searchFrom_of_empty (popped : frontier.queue.pop? = none) :
    graph.searchFrom goal frontier = none := by
  rw [searchFrom]
  split
  · rfl
  · rename_i some
    rw [popped] at some
    cases some

private theorem advance?_cases (advanced : graph.advance? goal frontier = some after) :
    ∃ walk queue, frontier.queue.pop? = some (walk, queue) ∧ walk.vertex ≠ goal ∧
      graph.searchFrom goal frontier = graph.searchFrom goal after ∧
      ((frontier.lengths.find? walk.vertex).any (· < walk.length) = true ∧
          after = { frontier with queue := queue } ∨
        after = (graph.steps walk).foldl Frontier.enter { frontier with queue := queue }) := by
  cases popped : frontier.queue.pop? with
  | none => simp only [advance?, popped, reduceCtorEq] at advanced
  | some pair =>
    obtain ⟨walk, queue⟩ := pair
    simp only [advance?, popped] at advanced
    rw [searchFrom_of_popped popped]
    split at advanced
    · cases advanced
    · rename_i other
      rw [if_neg other]
      split at advanced
      · rename_i stale
        obtain rfl := Option.some.inj advanced
        exact ⟨walk, queue, rfl, other, if_pos stale, .inl ⟨stale, rfl⟩⟩
      · rename_i gain
        obtain rfl := Option.some.inj advanced
        exact ⟨walk, queue, rfl, other, if_neg gain, .inr rfl⟩

private theorem advance?_stopped (stopped : graph.advance? goal frontier = none) :
    graph.searchFrom goal frontier = frontier.queue.pop?.map Prod.fst ∧
      ∀ walk queue, frontier.queue.pop? = some (walk, queue) → walk.vertex = goal := by
  cases popped : frontier.queue.pop? with
  | none => exact ⟨searchFrom_of_empty popped, fun _ _ some => nomatch some⟩
  | some pair =>
    obtain ⟨walk, queue⟩ := pair
    simp only [advance?, popped] at stopped
    rw [searchFrom_of_popped popped]
    split at stopped
    · rename_i same
      exact ⟨if_pos same, fun _ _ first => by cases first; exact same⟩
    · split at stopped <;> cases stopped

def searchLeft (graph : Graph) (frontier : Frontier) : Nat ×ₗ Nat ×ₗ Nat :=
  toLex (frontier.unreached graph, toLex (frontier.totalLength, frontier.queue.size))

private theorem searchLeft_lt (advanced : graph.advance? goal frontier = some after) :
    graph.searchLeft after < graph.searchLeft frontier := by
  obtain ⟨walk, queue, popped, _, _, turn⟩ := advance?_cases advanced
  have shorter := Queue.size_pop? popped
  have passed : graph.searchLeft { frontier with queue := queue } < graph.searchLeft frontier :=
    Prod.Lex.right _ (Prod.Lex.right _ shorter)
  rcases turn with ⟨_, rfl⟩ | rfl
  · exact passed
  · rcases Frontier.enter_fold_cases graph (graph.steps walk) { frontier with queue := queue }
      fun next member => steps_targets member with same | fewer | ⟨equal, less⟩
    · rw [same]
      exact passed
    · exact Prod.Lex.left _ _ fewer
    · exact Prod.Lex.toLex_lt_toLex.2 (.inr ⟨equal, Prod.Lex.left _ _ less⟩)

/-- The search can be begun anywhere in any graph and has no endless run. -/
theorem advance?_wellFounded (graph : Graph) (goal : Nat) :
    WellFounded fun after before => graph.advance? goal before = some after :=
  Subrelation.wf searchLeft_lt (InvImage.wf graph.searchLeft wellFounded_lt)

theorem searchFrom_leads (graph : Graph) (goal : Nat) (frontier : Frontier) :
    ∃ last, graph.SearchLeads goal frontier last ∧ graph.advance? goal last = none ∧
      graph.searchFrom goal frontier = last.queue.pop?.map Prod.fst := by
  induction frontier using (advance?_wellFounded graph goal).induction with
  | h frontier ih =>
    cases advanced : graph.advance? goal frontier with
    | none => exact ⟨frontier, .refl, advanced, (advance?_stopped advanced).1⟩
    | some after =>
      obtain ⟨last, leads, stopped, same⟩ := ih after advanced
      obtain ⟨_, _, _, _, on, _⟩ := advance?_cases advanced
      exact ⟨last, .head advanced leads, stopped, on.trans same⟩

end Graph

namespace Frontier

def Reaches (frontier : Frontier) (vertex length : Nat) : Prop :=
  ∃ known, frontier.lengths.find? vertex = some known ∧ known ≤ length

/-- All edges from the vertex have been followed after a walk of that length to it. -/
def Expanded (graph : Graph) (frontier : Frontier) (vertex length : Nat) : Prop :=
  ∀ next ∈ graph.successors vertex, frontier.Reaches next (length + 1)

/-- The search at one moment, with the walks in hand that have left the queue. Every vertex reached
has been gone on from or is still to be gone on from, by a walk as short as the length recorded. -/
structure Explores (graph : Graph) (origin goal : Nat) (hand : List Walk) (frontier : Frontier) :
    Prop where
  ordered : Queue.Ordered frontier.queue.heap
  walks : ∀ walk ∈ frontier.queue.heap, graph.IsWalk origin walk
  begun : frontier.Reaches origin 0
  covered : ∀ vertex length, frontier.lengths.find? vertex = some length →
    vertex ≠ goal ∧ frontier.Expanded graph vertex length ∨
      ∃ walk, (walk ∈ frontier.queue.heap ∨ walk ∈ hand) ∧ walk.vertex = vertex ∧
        walk.length ≤ length

variable {graph : Graph} {origin goal : Nat} {frontier after : Frontier} {walk first : Walk}
  {hand : List Walk} {queue : Queue}

private theorem Reaches.mono {vertex length longer : Nat} (reached : frontier.Reaches vertex length)
    (less : length ≤ longer) : frontier.Reaches vertex longer := by
  obtain ⟨known, found, bound⟩ := reached
  exact ⟨known, found, Nat.le_trans bound less⟩

theorem settled_iff {vertex length : Nat} :
    frontier.settled vertex length = true ↔ frontier.Reaches vertex length := by
  simp only [settled, Reaches, Option.any_eq_true, decide_eq_true_eq]

private theorem enter_of_reaches (reached : frontier.Reaches walk.vertex walk.length) :
    frontier.enter walk = frontier := if_pos (settled_iff.2 reached)

private theorem enter_of_not_reaches (gain : ¬ frontier.Reaches walk.vertex walk.length) :
    frontier.enter walk =
      ⟨frontier.lengths.insert walk.vertex walk.length, frontier.queue.push walk⟩ :=
  if_neg fun settled => gain (settled_iff.1 settled)

private theorem enter_reaches (frontier : Frontier) (walk : Walk) :
    (frontier.enter walk).Reaches walk.vertex walk.length := by
  by_cases reached : frontier.Reaches walk.vertex walk.length
  · rw [enter_of_reaches reached]
    exact reached
  · rw [enter_of_not_reaches reached]
    exact ⟨walk.length, by simp, Nat.le_refl _⟩

private theorem Reaches.enter {vertex length : Nat} (reached : frontier.Reaches vertex length)
    (walk : Walk) : (frontier.enter walk).Reaches vertex length := by
  by_cases known : frontier.Reaches walk.vertex walk.length
  · rw [enter_of_reaches known]
    exact reached
  · rw [enter_of_not_reaches known]
    by_cases same : walk.vertex = vertex
    · subst same
      have shorter : walk.length ≤ length := by
        by_contra longer
        exact known (reached.mono (by omega))
      exact ⟨walk.length, by simp, shorter⟩
    · obtain ⟨least, found, bound⟩ := reached
      exact ⟨least, by simp [same, found], bound⟩

private theorem Reaches.enterAll {vertex length : Nat} (walks : List Walk)
    (reached : frontier.Reaches vertex length) :
    (walks.foldl Frontier.enter frontier).Reaches vertex length := by
  induction walks generalizing frontier with
  | nil => exact reached
  | cons walk rest ih => exact ih (reached.enter walk)

private theorem enterAll_reaches (frontier : Frontier) {walks : List Walk} (member : walk ∈ walks) :
    (walks.foldl Frontier.enter frontier).Reaches walk.vertex walk.length := by
  induction walks generalizing frontier with
  | nil => cases member
  | cons other rest ih =>
    rcases List.mem_cons.1 member with rfl | later
    · exact (enter_reaches frontier walk).enterAll rest
    · exact ih (frontier.enter other) later

namespace Explores

private theorem enter (explores : Explores graph origin goal hand frontier)
    (walked : graph.IsWalk origin walk) :
    Explores graph origin goal hand (frontier.enter walk) := by
  by_cases known : frontier.Reaches walk.vertex walk.length
  · rw [enter_of_reaches known]
    exact explores
  · have kept {vertex length : Nat} (reached : frontier.Reaches vertex length) :=
      reached.enter walk
    rw [enter_of_not_reaches known] at kept ⊢
    refine ⟨Queue.push_ordered explores.ordered walk, ?_, kept explores.begun, ?_⟩
    · intro other member
      rcases Queue.mem_push.1 member with old | rfl
      · exact explores.walks other old
      · exact walked
    · intro vertex length found
      rw [Dictionary.find?_insert] at found
      split at found
      · rename_i same
        exact .inr ⟨walk, .inl (Queue.mem_push.2 (.inr rfl)), same,
          Nat.le_of_eq (Option.some.inj found)⟩
      · rcases explores.covered vertex length found with
          ⟨other, expanded⟩ | ⟨old, held, ends, short⟩
        · exact .inl ⟨other, fun next edge => kept (expanded next edge)⟩
        · exact .inr ⟨old, held.imp_left fun inside => Queue.mem_push.2 (.inl inside), ends, short⟩

private theorem enterAll {walks : List Walk} (explores : Explores graph origin goal hand frontier)
    (walked : ∀ walk ∈ walks, graph.IsWalk origin walk) :
    Explores graph origin goal hand (walks.foldl Frontier.enter frontier) := by
  induction walks generalizing frontier with
  | nil => exact explores
  | cons walk rest ih =>
    exact ih (explores.enter (walked walk List.mem_cons_self))
      fun other member => walked other (List.mem_cons_of_mem walk member)

private theorem pop (explores : Explores graph origin goal [] frontier)
    (popped : frontier.queue.pop? = some (first, queue)) :
    graph.IsWalk origin first ∧ (∀ walk ∈ frontier.queue.heap, first.length ≤ walk.length) ∧
      Explores graph origin goal [first] { frontier with queue := queue } := by
  obtain ⟨members, least, ordered⟩ := Queue.pop?_eq_some explores.ordered popped
  refine ⟨explores.walks first ((members first).2 (.inl rfl)), least, ordered, ?_, explores.begun,
    ?_⟩
  · exact fun walk member => explores.walks walk ((members walk).2 (.inr member))
  · intro vertex length found
    rcases explores.covered vertex length found with done | ⟨walk, held, ends, short⟩
    · exact .inl done
    · refine .inr ⟨walk, ?_, ends, short⟩
      rcases (members walk).1 (held.resolve_right List.not_mem_nil) with rfl | inside
      · exact .inr List.mem_cons_self
      · exact .inl inside

/-- The walk in hand may be dropped once it is not needed to cover its vertex. -/
theorem drop (explores : Explores graph origin goal [first] frontier)
    (spare : ∀ length, frontier.lengths.find? first.vertex = some length → first.length ≤ length →
      first.vertex ≠ goal ∧ frontier.Expanded graph first.vertex length) :
    Explores graph origin goal [] frontier := by
  refine ⟨explores.ordered, explores.walks, explores.begun, fun vertex length found => ?_⟩
  rcases explores.covered vertex length found with done | ⟨walk, inside | held, ends, short⟩
  · exact .inl done
  · exact .inr ⟨walk, .inl inside, ends, short⟩
  · obtain rfl := List.mem_singleton.1 held
    subst ends
    exact .inl (spare length found short)

private theorem advance (explores : Explores graph origin goal [] frontier)
    (advanced : graph.advance? goal frontier = some after) :
    Explores graph origin goal [] after := by
  obtain ⟨first, queue, popped, other, _, turn⟩ := Graph.advance?_cases advanced
  obtain ⟨walked, _, explores⟩ := explores.pop popped
  rcases turn with ⟨stale, rfl⟩ | rfl
  -- a walk longer than the length recorded is not what covers its vertex
  · refine explores.drop fun length found short => ?_
    have known : frontier.lengths.find? first.vertex = some length := found
    rw [known, Option.any_some, decide_eq_true_eq] at stale
    exact absurd stale (Nat.not_lt.2 short)
  · have further : ∀ walk ∈ graph.steps first, graph.IsWalk origin walk := by
      intro walk member
      obtain ⟨next, edge, rfl⟩ := List.mem_map.1 member
      exact walked.extend edge
    refine (explores.enterAll further).drop fun length _ short => ⟨other, fun next edge => ?_⟩
    have entered := enterAll_reaches { frontier with queue := queue }
      (List.mem_map.2 ⟨next, edge, rfl⟩ : first.extend next ∈ graph.steps first)
    exact entered.mono (Nat.succ_le_succ short)

private theorem leads (explores : Explores graph origin goal [] frontier)
    (turns : graph.SearchLeads goal frontier after) : Explores graph origin goal [] after := by
  induction turns with
  | refl => exact explores
  | tail _ advanced ih => exact ih.advance advanced

/-- Along any walk the search has got to its end or has a walk in the queue that is no longer. -/
theorem reached_or_queued (explores : Explores graph origin goal [] frontier)
    (walked : graph.IsWalk origin walk) :
    (walk.vertex ≠ goal ∧ ∃ length ≤ walk.length, frontier.Expanded graph walk.vertex length) ∨
      ∃ queued ∈ frontier.queue.heap, queued.length ≤ walk.length := by
  have covers {vertex length : Nat} (reached : frontier.Reaches vertex length) :
      (vertex ≠ goal ∧ ∃ known ≤ length, frontier.Expanded graph vertex known) ∨
        ∃ queued ∈ frontier.queue.heap, queued.length ≤ length := by
    obtain ⟨known, found, bound⟩ := reached
    rcases explores.covered vertex known found with ⟨other, expanded⟩ | ⟨queued, held, _, short⟩
    · exact .inl ⟨other, known, bound, expanded⟩
    · exact .inr ⟨queued, held.resolve_right List.not_mem_nil, Nat.le_trans short bound⟩
  -- along the walk; a vertex gone on from passes its length on to the next one, plus one
  induction walked with
  | start => exact covers explores.begun
  | @extend walk next earlier edge ih =>
    rcases ih with ⟨_, length, bound, expanded⟩ | ⟨queued, inside, short⟩
    · exact covers ((expanded next edge).mono (Nat.succ_le_succ bound))
    · exact .inr ⟨queued, inside, Nat.le_succ_of_le short⟩

private theorem queued (explores : Explores graph origin goal [] frontier)
    (walked : graph.IsWalk origin walk) (ends : walk.vertex = goal) :
    ∃ queued ∈ frontier.queue.heap, queued.length ≤ walk.length :=
  (explores.reached_or_queued walked).resolve_left fun done => done.1 ends

private theorem start (graph : Graph) (origin goal : Nat) :
    Explores graph origin goal [] (.start origin) := by
  have only {walk : Walk} : walk ∈ (Frontier.start origin).queue.heap ↔ walk = ⟨origin, []⟩ :=
    Queue.mem_push.trans (or_iff_right (Vector.not_mem_empty walk))
  refine ⟨Queue.push_ordered (fun i inside => absurd inside (Nat.not_lt_zero i)) _, ?_, ?_, ?_⟩
  · intro walk member
    rw [only.1 member]
    exact .start
  · exact ⟨0, by simp [Frontier.start], Nat.le_refl 0⟩
  · intro vertex length found
    rw [Frontier.start, Dictionary.find?_insert] at found
    split at found
    · rename_i same
      exact .inr ⟨⟨origin, []⟩, .inl (only.2 rfl), same, Nat.zero_le length⟩
    · cases found

end Explores
end Frontier

namespace Graph

variable {graph : Graph} {origin goal : Nat} {walk : Walk}

private theorem shortestWalk?_cases (graph : Graph) (origin goal : Nat) :
    (∃ walk, graph.shortestWalk? origin goal = some walk ∧ graph.IsWalk origin walk ∧
      walk.vertex = goal ∧
      ∀ rival, graph.IsWalk origin rival → rival.vertex = goal → walk.length ≤ rival.length) ∨
    graph.shortestWalk? origin goal = none ∧
      ∀ rival, graph.IsWalk origin rival → rival.vertex ≠ goal := by
  obtain ⟨last, turns, stopped, answer⟩ := searchFrom_leads graph goal (.start origin)
  have explores := (Frontier.Explores.start graph origin goal).leads turns
  cases popped : last.queue.pop? with
  | none =>
    refine .inr ⟨answer.trans (by rw [popped]; rfl), fun rival walked ends => ?_⟩
    obtain ⟨queued, inside, _⟩ := explores.queued walked ends
    exact Queue.pop?_eq_none popped queued inside
  | some pair =>
    obtain ⟨walk, queue⟩ := pair
    obtain ⟨walked, least, _⟩ := explores.pop popped
    have ends := (advance?_stopped stopped).2 walk queue popped
    refine .inl ⟨walk, answer.trans (by rw [popped]; rfl), walked, ends, ?_⟩
    intro rival other arrives
    obtain ⟨queued, inside, short⟩ := explores.queued other arrives
    exact Nat.le_trans (least queued inside) short

theorem shortestWalk?_eq_some (found : graph.shortestWalk? origin goal = some walk) :
    graph.IsWalk origin walk ∧ walk.vertex = goal ∧
      ∀ rival, graph.IsWalk origin rival → rival.vertex = goal → walk.length ≤ rival.length := by
  rcases shortestWalk?_cases graph origin goal with ⟨other, same, shortest⟩ | ⟨none, _⟩
  · obtain rfl := Option.some.inj (found.symm.trans same)
    exact shortest
  · cases found.symm.trans none

theorem shortestWalk?_eq_none (missed : graph.shortestWalk? origin goal = none)
    (walked : graph.IsWalk origin walk) : walk.vertex ≠ goal := by
  rcases shortestWalk?_cases graph origin goal with ⟨other, same, _⟩ | ⟨_, absent⟩
  · cases missed.symm.trans same
  · exact absent walk walked

end Graph
end BundlePlan
