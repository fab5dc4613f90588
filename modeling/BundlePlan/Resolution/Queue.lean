/-! Walks through a graph, and a priority queue that gives out a shortest one first. It is kept as
a binary heap: the walk at `i` is at most as long as those at `2 i + 1` and `2 i + 2`. Which of
several equally short walks comes first is fixed by the moves below. -/
namespace BundlePlan

/-- A walk that has reached `vertex` through the vertices in `before`, the last one first. -/
structure Walk where
  vertex : Nat
  before : List Nat
deriving DecidableEq, Inhabited

namespace Walk

def length (walk : Walk) : Nat := walk.before.length

def extend (walk : Walk) (vertex : Nat) : Walk := ⟨vertex, walk.vertex :: walk.before⟩

def vertices (walk : Walk) : List Nat := (walk.vertex :: walk.before).reverse

theorem length_extend (walk : Walk) (vertex : Nat) :
    (walk.extend vertex).length = walk.length + 1 := rfl

end Walk

structure Queue where
  size : Nat
  heap : Vector Walk size

namespace Queue

def empty : Queue := ⟨0, #v[]⟩

/-- Moves the walk at `i` up past all that are longer. -/
def rise {n : Nat} (heap : Vector Walk n) (i : Nat) (inside : i < n) : Vector Walk n :=
  if _ : i = 0 then heap
  else if heap[(i - 1) / 2].length ≤ heap[i].length then heap
  else rise (heap.swap ((i - 1) / 2) i) ((i - 1) / 2) (by omega)

/-- Moves the walk at `i` down to the bottom, each time to the shorter of the two below it and to
the right if these are equally long; it may end below longer walks. -/
def sink {n : Nat} (heap : Vector Walk n) (i : Nat) (inside : i < n) : Vector Walk n × Fin n :=
  if _ : 2 * i + 2 < n then
    if heap[2 * i + 2].length ≤ heap[2 * i + 1].length then
      sink (heap.swap i (2 * i + 2)) (2 * i + 2) (by omega)
    else sink (heap.swap i (2 * i + 1)) (2 * i + 1) (by omega)
  else if _ : 2 * i + 1 < n then (heap.swap i (2 * i + 1), ⟨2 * i + 1, by omega⟩)
  else (heap, ⟨i, inside⟩)
termination_by n - i

def push (queue : Queue) (walk : Walk) : Queue :=
  ⟨queue.size + 1, rise (queue.heap.push walk) queue.size (Nat.lt_succ_self _)⟩

/-- The first walk and the others: the last one takes its place, goes down to the bottom and rises
again from there. -/
def pop? : Queue → Option (Walk × Queue)
  | ⟨0, _⟩ => none
  | ⟨1, heap⟩ => some (heap[0], empty)
  | ⟨n + 2, heap⟩ =>
    let others : Vector Walk (n + 1) := heap.pop.set 0 heap[n + 1]
    let (sunk, i) := sink others 0 (Nat.succ_pos n)
    some (heap[0], ⟨n + 1, rise sunk i i.isLt⟩)

theorem size_pop? {queue rest : Queue} {first : Walk} (popped : queue.pop? = some (first, rest)) :
    rest.size < queue.size := by
  obtain ⟨n, heap⟩ := queue
  match n, heap with
  | 0, _ => simp [pop?] at popped
  | 1, _ => simp only [pop?, Option.some.injEq, Prod.mk.injEq] at popped; simp [← popped.2, empty]
  | n + 2, _ => simp only [pop?, Option.some.injEq, Prod.mk.injEq] at popped; simp [← popped.2]

end Queue
end BundlePlan
