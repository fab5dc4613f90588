import BundlePlan.ModuleId

/-! Sets of module identifiers, kept as strictly ascending lists, so that equal sets are equal
values and every listing of a set has one order. -/
namespace BundlePlan

structure ModuleSet where
  toList : List ModuleId
  ascending : toList.Pairwise (· < ·)
deriving DecidableEq

namespace ModuleSet

instance : Membership ModuleId ModuleSet := ⟨fun s m => m ∈ s.toList⟩

instance (m : ModuleId) (s : ModuleSet) : Decidable (m ∈ s) :=
  inferInstanceAs (Decidable (m ∈ s.toList))

@[simp] theorem mem_toList {m : ModuleId} {s : ModuleSet} : m ∈ s.toList ↔ m ∈ s := Iff.rfl

theorem nodup (s : ModuleSet) : s.toList.Nodup := by
  refine List.Pairwise.imp ?_ s.ascending
  intro a b below same
  exact ModuleId.lt_irrefl b (same ▸ below)

theorem ext_mem {s t : ModuleSet} (same : ∀ m, m ∈ s ↔ m ∈ t) : s = t := by
  have antisymm : ∀ a b : ModuleId, a ∈ s.toList → b ∈ t.toList → a < b → b < a → a = b := by
    intro a b _ _ below above
    exact absurd (ModuleId.lt_trans below above) (ModuleId.lt_irrefl a)
  have permuted := (List.perm_ext_iff_of_nodup s.nodup t.nodup).2 same
  have equal : s.toList = t.toList := permuted.eq_of_pairwise antisymm s.ascending t.ascending
  cases s
  cases t
  cases equal
  rfl

def empty : ModuleSet := ⟨[], .nil⟩

instance : EmptyCollection ModuleSet := ⟨empty⟩

instance : Inhabited ModuleSet := ⟨empty⟩

@[simp] theorem not_mem_empty (m : ModuleId) : m ∉ (∅ : ModuleSet) := List.not_mem_nil

theorem exists_mem {s : ModuleSet} (nonempty : s ≠ ∅) : ∃ m, m ∈ s := by
  apply List.exists_mem_of_ne_nil s.toList
  intro none
  cases s
  cases none
  exact nonempty rfl

def size (s : ModuleSet) : Nat := s.toList.length

def isEmpty (s : ModuleSet) : Bool := s.toList.isEmpty

/-- Puts `m` before the first larger element, or drops it if it is there already. -/
def place (m : ModuleId) : List ModuleId → List ModuleId
  | [] => [m]
  | a :: rest => if m < a then m :: a :: rest else if a < m then a :: place m rest else a :: rest

@[simp] theorem mem_place {m x : ModuleId} {list : List ModuleId} :
    x ∈ place m list ↔ x = m ∨ x ∈ list := by
  induction list with
  | nil => simp [place]
  | cons a rest ih =>
    simp only [place]
    split
    · simp
    · split
      · simp only [List.mem_cons, ih]; exact or_left_comm
      · rename_i notBelow notAbove
        have same : m = a := ModuleId.eq_of_not_lt notBelow notAbove
        simp [same]

theorem place_ascending {m : ModuleId} {list : List ModuleId} (sorted : list.Pairwise (· < ·)) :
    (place m list).Pairwise (· < ·) := by
  induction list with
  | nil => simp [place]
  | cons a rest ih =>
    have ⟨head, tail⟩ := List.pairwise_cons.1 sorted
    simp only [place]
    split
    · rename_i below
      exact List.pairwise_cons.2 ⟨fun x inside => by
        rcases List.mem_cons.1 inside with rfl | later
        · exact below
        · exact ModuleId.lt_trans below (head x later), sorted⟩
    · split
      · rename_i above
        exact List.pairwise_cons.2 ⟨fun x inside => by
          rcases mem_place.1 inside with rfl | later
          · exact above
          · exact head x later, ih tail⟩
      · exact sorted

def insert (s : ModuleSet) (m : ModuleId) : ModuleSet :=
  ⟨place m s.toList, place_ascending s.ascending⟩

@[simp] theorem mem_insert {s : ModuleSet} {m x : ModuleId} :
    x ∈ s.insert m ↔ x = m ∨ x ∈ s := mem_place

def ofList (list : List ModuleId) : ModuleSet := list.foldr (fun m s => s.insert m) empty

@[simp] theorem mem_ofList {list : List ModuleId} {x : ModuleId} : x ∈ ofList list ↔ x ∈ list := by
  induction list with
  | nil => simp [ofList, empty, ← mem_toList]
  | cons m rest ih =>
    simp only [ofList, List.foldr_cons, mem_insert, List.mem_cons] at ih ⊢
    rw [ih]

def union (s t : ModuleSet) : ModuleSet := t.toList.foldr (fun m s => s.insert m) s

@[simp] theorem mem_union {s t : ModuleSet} {x : ModuleId} : x ∈ s.union t ↔ x ∈ s ∨ x ∈ t := by
  have fold : ∀ list : List ModuleId,
      x ∈ list.foldr (fun m s => s.insert m) s ↔ x ∈ s ∨ x ∈ list := by
    intro list
    induction list with
    | nil => simp
    | cons m rest ih =>
      simp only [List.foldr_cons, mem_insert, List.mem_cons, ih]
      exact or_left_comm
  exact fold t.toList

def diff (s t : ModuleSet) : ModuleSet :=
  ⟨s.toList.filter (· ∉ t), s.ascending.filter _⟩

@[simp] theorem mem_diff {s t : ModuleSet} {x : ModuleId} : x ∈ s.diff t ↔ x ∈ s ∧ x ∉ t := by
  simp [diff, ← mem_toList]

def inter (s t : ModuleSet) : ModuleSet :=
  ⟨s.toList.filter (· ∈ t), s.ascending.filter _⟩

@[simp] theorem mem_inter {s t : ModuleSet} {x : ModuleId} : x ∈ s.inter t ↔ x ∈ s ∧ x ∈ t := by
  simp [inter, ← mem_toList]

end ModuleSet
end BundlePlan
