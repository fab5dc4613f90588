import BundlePlan.Resolution.Queue

/-! The queue of walks gives out a shortest one and loses none. The heap stays in order but for one
place while a walk rises or sinks, which is all that the moves have to keep. -/
namespace BundlePlan.Queue

variable {n : Nat} {heap : Vector Walk n} {hole : Nat}

def lengthAt (heap : Vector Walk n) (i : Nat) : Nat :=
  if inside : i < n then heap[i].length else 0

private theorem lengthAt_of_lt {i : Nat} (inside : i < n) : lengthAt heap i = heap[i].length :=
  dif_pos inside

private theorem lengthAt_swap {i j : Nat} (first : i < n) (second : j < n) (k : Nat) :
    lengthAt (heap.swap i j) k =
      if k = i then lengthAt heap j else if k = j then lengthAt heap i else lengthAt heap k := by
  by_cases inside : k < n
  · rw [lengthAt_of_lt inside, lengthAt_of_lt first, lengthAt_of_lt second, lengthAt_of_lt inside,
      Vector.getElem_swap]
    split
    · rfl
    · split <;> rfl
  · have left : k ≠ i := by omega
    have right : k ≠ j := by omega
    simp only [lengthAt, inside, left, right, dif_neg, not_false_eq_true, if_false]

/-- No walk is shorter than the one above it. -/
def Ordered (heap : Vector Walk n) : Prop :=
  ∀ i < n, 0 < i → lengthAt heap ((i - 1) / 2) ≤ lengthAt heap i

/-- In order but for the walk at `hole`, which may be shorter than the one above it. -/
structure OrderedAbove (heap : Vector Walk n) (hole : Nat) : Prop where
  others : ∀ i < n, 0 < i → i ≠ hole → lengthAt heap ((i - 1) / 2) ≤ lengthAt heap i
  across : ∀ i < n, 0 < hole → 0 < i → (i - 1) / 2 = hole →
    lengthAt heap ((hole - 1) / 2) ≤ lengthAt heap i

/-- In order but for the walk at `hole`, which may be of any length. -/
structure OrderedAround (heap : Vector Walk n) (hole : Nat) : Prop where
  others : ∀ i < n, 0 < i → i ≠ hole → (i - 1) / 2 ≠ hole →
    lengthAt heap ((i - 1) / 2) ≤ lengthAt heap i
  across : ∀ i < n, 0 < hole → 0 < i → (i - 1) / 2 = hole →
    lengthAt heap ((hole - 1) / 2) ≤ lengthAt heap i

private theorem OrderedAbove.ordered (above : OrderedAbove heap hole)
    (settled : 0 < hole → lengthAt heap ((hole - 1) / 2) ≤ lengthAt heap hole) : Ordered heap := by
  intro i inside positive
  by_cases here : i = hole
  · subst here
    exact settled positive
  · exact above.others i inside positive here

private theorem OrderedAbove.swap (above : OrderedAbove heap hole) (inside : hole < n)
    (positive : 0 < hole) (shorter : lengthAt heap hole < lengthAt heap ((hole - 1) / 2)) :
    OrderedAbove (heap.swap ((hole - 1) / 2) hole) ((hole - 1) / 2) := by
  constructor
  · intro i bound first other
    rw [lengthAt_swap, lengthAt_swap]
    by_cases here : i = hole
    · subst here
      simp only [if_true, other, if_false]
      exact Nat.le_of_lt shorter
    · have old := above.others i bound first here
      by_cases sibling : (i - 1) / 2 = (hole - 1) / 2
      · simp only [sibling, if_true, other, here, if_false]
        rw [sibling] at old
        omega
      · by_cases child : (i - 1) / 2 = hole
        · have below : hole ≠ (hole - 1) / 2 := by omega
          simp only [child, below, if_true, other, here, if_false]
          exact above.across i bound positive first child
        · simp only [sibling, child, other, here, if_false]
          exact old
  · intro i bound top first child
    have apart : ((hole - 1) / 2 - 1) / 2 ≠ (hole - 1) / 2 := by omega
    have lower : ((hole - 1) / 2 - 1) / 2 ≠ hole := by omega
    have chain := above.others ((hole - 1) / 2) (by omega) top (by omega)
    have beside : i ≠ (hole - 1) / 2 := by omega
    rw [lengthAt_swap, lengthAt_swap]
    simp only [apart, lower, beside, if_false]
    by_cases here : i = hole
    · simp only [here, if_true]
      exact chain
    · simp only [here, if_false]
      have old := above.others i bound first here
      rw [child] at old
      exact Nat.le_trans chain old

private theorem rise_ordered (inside : hole < n) (above : OrderedAbove heap hole) :
    Ordered (rise heap hole inside) := by
  -- each swap moves the hole up, and the walk that comes down is no shorter than those below it
  fun_induction rise heap hole inside with
  | case1 heap inside => exact above.ordered fun positive => absurd positive (Nat.lt_irrefl 0)
  | case2 heap hole inside low settled =>
    refine above.ordered fun _ => ?_
    rw [lengthAt_of_lt inside, lengthAt_of_lt (by omega)]
    exact settled
  | case3 heap hole inside low shorter ih =>
    refine ih (above.swap inside (by omega) ?_)
    rw [lengthAt_of_lt inside, lengthAt_of_lt (by omega)]
    omega

private theorem mem_rise (inside : hole < n) {walk : Walk} :
    walk ∈ rise heap hole inside ↔ walk ∈ heap := by
  fun_induction rise heap hole inside with
  | case1 => exact Iff.rfl
  | case2 => exact Iff.rfl
  | case3 heap hole inside low shorter ih => exact ih.trans (Vector.swap_perm _ _).mem_iff

/-- Whichever of the two below is not the longer one may take the place of the walk that sinks. -/
theorem OrderedAround.swap (around : OrderedAround heap hole) (inside : hole < n) {child : Nat}
    (bound : child < n) (below : (child - 1) / 2 = hole) (positive : 0 < child)
    (least : ∀ i < n, 0 < i → (i - 1) / 2 = hole → lengthAt heap child ≤ lengthAt heap i) :
    OrderedAround (heap.swap hole child) child := by
  have apart : child ≠ hole := by omega
  constructor
  · intro i range first other under
    rw [lengthAt_swap, lengthAt_swap]
    by_cases here : i = hole
    · subst here
      have higher : (i - 1) / 2 ≠ i := by omega
      simp only [if_true, higher, under, if_false]
      exact around.across child bound first positive below
    · by_cases sibling : (i - 1) / 2 = hole
      · simp only [sibling, if_true, here, other, if_false]
        exact least i range first sibling
      · simp only [here, other, sibling, under, if_false]
        exact around.others i range first here sibling
  · intro i range _ first under
    have lower : i ≠ hole := by omega
    have beside : i ≠ child := by omega
    rw [lengthAt_swap, lengthAt_swap]
    simp only [below, if_true, lower, beside, if_false]
    have old := around.others i range first lower (by omega)
    rw [under] at old
    exact old

private theorem OrderedAround.above (around : OrderedAround heap hole) (bottom : n ≤ 2 * hole + 1) :
    OrderedAbove heap hole where
  others i range first other := around.others i range first other (by omega)
  across := around.across

private theorem sink_ordered (inside : hole < n) (around : OrderedAround heap hole) :
    OrderedAbove (sink heap hole inside).1 (sink heap hole inside).2 := by
  fun_induction sink heap hole inside with
  | case1 heap hole inside two right ih =>
    refine ih (around.swap inside (by omega) (by omega) (by omega) fun i range first under => ?_)
    rcases (by omega : i = 2 * hole + 1 ∨ i = 2 * hole + 2) with rfl | rfl
    · rw [lengthAt_of_lt range, lengthAt_of_lt two]
      exact right
    · exact Nat.le_refl _
  | case2 heap hole inside two left ih =>
    refine ih (around.swap inside (by omega) (by omega) (by omega) fun i range first under => ?_)
    rcases (by omega : i = 2 * hole + 1 ∨ i = 2 * hole + 2) with rfl | rfl
    · exact Nat.le_refl _
    · rw [lengthAt_of_lt range, lengthAt_of_lt (by omega)]
      omega
  | case3 heap hole inside two one =>
    refine (around.swap inside one (by omega) (by omega) fun i range first under => ?_).above
      (by omega)
    have only : i = 2 * hole + 1 := by omega
    exact Nat.le_of_eq (only ▸ rfl)
  | case4 heap hole inside two none => exact around.above (by omega)

private theorem mem_sink (inside : hole < n) {walk : Walk} :
    walk ∈ (sink heap hole inside).1 ↔ walk ∈ heap := by
  fun_induction sink heap hole inside with
  | case1 heap hole inside two right ih => exact ih.trans (Vector.swap_perm _ _).mem_iff
  | case2 heap hole inside two left ih => exact ih.trans (Vector.swap_perm _ _).mem_iff
  | case3 heap hole inside two one => exact (Vector.swap_perm inside one).mem_iff
  | case4 => exact Iff.rfl

private theorem Ordered.first_le (ordered : Ordered heap) {i : Nat} (inside : i < n) :
    lengthAt heap 0 ≤ lengthAt heap i := by
  induction i using Nat.strongRecOn with
  | ind i ih =>
    by_cases top : i = 0
    · exact Nat.le_of_eq (top ▸ rfl)
    · have higher := ih ((i - 1) / 2) (by omega) (by omega)
      exact Nat.le_trans higher (ordered i inside (by omega))

theorem push_ordered {queue : Queue} (ordered : Ordered queue.heap) (walk : Walk) :
    Ordered (queue.push walk).heap := by
  have kept {i : Nat} (inside : i < queue.size) :
      lengthAt (queue.heap.push walk) i = lengthAt queue.heap i := by
    rw [lengthAt_of_lt inside, lengthAt_of_lt (Nat.lt_succ_of_lt inside),
      Vector.getElem_push_lt inside]
  refine rise_ordered (Nat.lt_succ_self _) ⟨?_, fun i inside _ _ below => by omega⟩
  intro i inside positive other
  rw [kept (by omega), kept (by omega)]
  exact ordered i (by omega) positive

theorem mem_push {queue : Queue} {walk x : Walk} :
    x ∈ (queue.push walk).heap ↔ x ∈ queue.heap ∨ x = walk :=
  (mem_rise _).trans Vector.mem_push

theorem pop?_eq_none {queue : Queue} (popped : queue.pop? = none) (walk : Walk) :
    walk ∉ queue.heap := by
  obtain ⟨n, heap⟩ := queue
  match n, heap with
  | 0, heap =>
    intro member
    obtain ⟨i, inside, _⟩ := Vector.mem_iff_getElem.1 member
    exact Nat.not_lt_zero i inside
  | 1, _ => simp [pop?] at popped
  | n + 2, _ => simp [pop?] at popped

private theorem moved_around {heap : Vector Walk (n + 2)} (ordered : Ordered heap)
    (room : 0 < n + 1) (last : n + 1 < n + 2) :
    OrderedAround ((heap.pop : Vector Walk (n + 1)).set 0 heap[n + 1]) 0 := by
  have kept {i : Nat} (inside : i < n + 1) (other : i ≠ 0) :
      lengthAt ((heap.pop : Vector Walk (n + 1)).set 0 heap[n + 1]) i = lengthAt heap i := by
    rw [lengthAt_of_lt inside, lengthAt_of_lt (Nat.lt_succ_of_lt inside),
      Vector.getElem_set_ne _ _ (Ne.symm other), Vector.getElem_pop]
  refine ⟨?_, fun i _ low => absurd low (Nat.lt_irrefl 0)⟩
  intro i inside positive other higher
  rw [kept (by omega) higher, kept inside other]
  exact ordered i (by omega) positive

private theorem mem_moved {heap : Vector Walk (n + 2)} {walk : Walk} (room : 0 < n + 1)
    (bound : n + 1 < n + 2) (start : 0 < n + 2) :
    walk ∈ heap ↔ walk = heap[0] ∨ walk ∈ (heap.pop : Vector Walk (n + 1)).set 0 heap[n + 1] := by
  simp only [Vector.mem_iff_getElem]
  constructor
  · rintro ⟨i, inside, rfl⟩
    by_cases first : i = 0
    · exact .inl (by simp only [first])
    · by_cases last : i = n + 1
      · exact .inr ⟨0, Nat.succ_pos n, by simp only [Vector.getElem_set_self, last]⟩
      · refine .inr ⟨i, by omega, ?_⟩
        rw [Vector.getElem_set_ne _ _ (Ne.symm first), Vector.getElem_pop]
  · rintro (rfl | ⟨i, inside, rfl⟩)
    · exact ⟨0, by omega, rfl⟩
    · by_cases first : i = 0
      · refine ⟨n + 1, by omega, ?_⟩
        simp only [first, Vector.getElem_set_self]
      · refine ⟨i, by omega, ?_⟩
        rw [Vector.getElem_set_ne _ _ (Ne.symm first), Vector.getElem_pop]

/-- What comes out is a shortest walk, and the others are kept in order. -/
theorem pop?_eq_some {queue rest : Queue} {first : Walk} (ordered : Ordered queue.heap)
    (popped : queue.pop? = some (first, rest)) :
    (∀ walk, walk ∈ queue.heap ↔ walk = first ∨ walk ∈ rest.heap) ∧
      (∀ walk ∈ queue.heap, first.length ≤ walk.length) ∧ Ordered rest.heap := by
  obtain ⟨n, heap⟩ := queue
  have least (positive : 0 < n) (walk : Walk) (member : walk ∈ heap) :
      heap[0].length ≤ walk.length := by
    obtain ⟨i, inside, rfl⟩ := Vector.mem_iff_getElem.1 member
    have shorter := ordered.first_le inside
    rw [lengthAt_of_lt positive, lengthAt_of_lt inside] at shorter
    exact shorter
  match n, heap with
  | 0, _ => simp [pop?] at popped
  | 1, heap =>
    simp only [pop?, Option.some.injEq, Prod.mk.injEq] at popped
    obtain ⟨rfl, rfl⟩ := popped
    refine ⟨fun walk => ⟨fun member => ?_, ?_⟩, least Nat.one_pos,
      fun i inside => absurd inside (Nat.not_lt_zero i)⟩
    · obtain ⟨i, inside, rfl⟩ := Vector.mem_iff_getElem.1 member
      have only : i = 0 := Nat.lt_one_iff.1 inside
      exact .inl (by simp only [only])
    · rintro (rfl | member)
      · exact Vector.getElem_mem Nat.one_pos
      · exact absurd member (Vector.not_mem_empty walk)
  | n + 2, heap =>
    simp only [pop?, Option.some.injEq, Prod.mk.injEq] at popped
    obtain ⟨rfl, rfl⟩ := popped
    refine ⟨?_, least (by omega), rise_ordered _ (sink_ordered _ (moved_around ordered _ _))⟩
    intro walk
    rw [mem_rise, mem_sink]
    exact mem_moved _ _ _

end BundlePlan.Queue
