/-! Finite maps as association lists without repeated keys. Entries keep the place of their
first insertion; a later insertion under the same key replaces the value. -/
namespace BundlePlan

structure Dictionary (κ α : Type) where
  entries : List (κ × α)
  distinct : (entries.map Prod.fst).Nodup
deriving DecidableEq

namespace Dictionary

variable {κ α : Type} [DecidableEq κ]

def empty : Dictionary κ α := ⟨[], by simp⟩

instance : EmptyCollection (Dictionary κ α) := ⟨empty⟩

instance : Inhabited (Dictionary κ α) := ⟨empty⟩

def keys (d : Dictionary κ α) : List κ := d.entries.map Prod.fst

def size (d : Dictionary κ α) : Nat := d.entries.length

def isEmpty (d : Dictionary κ α) : Bool := d.entries.isEmpty

def find? (d : Dictionary κ α) (key : κ) : Option α :=
  (d.entries.find? fun entry => entry.1 = key).map Prod.snd

/-- Replaces the value under `key`, or adds an entry at the end. -/
def put (key : κ) (value : α) : List (κ × α) → List (κ × α)
  | [] => [(key, value)]
  | entry :: rest => if entry.1 = key then (key, value) :: rest else entry :: put key value rest

@[simp] theorem mem_keys_put {key x : κ} {value : α} {entries : List (κ × α)} :
    x ∈ (put key value entries).map Prod.fst ↔ x = key ∨ x ∈ entries.map Prod.fst := by
  induction entries with
  | nil => simp [put]
  | cons entry rest ih =>
    simp only [put]
    split
    · rename_i same; simp [same]
    · simp only [List.map_cons, List.mem_cons, ih]; exact or_left_comm

theorem put_distinct {key : κ} {value : α} {entries : List (κ × α)}
    (distinct : (entries.map Prod.fst).Nodup) : ((put key value entries).map Prod.fst).Nodup := by
  induction entries with
  | nil => simp [put]
  | cons entry rest ih =>
    have ⟨fresh, others⟩ := List.nodup_cons.1 distinct
    simp only [put]
    split
    · rename_i same
      simpa [same] using distinct
    · rename_i other
      refine List.nodup_cons.2 ⟨?_, ih others⟩
      rw [mem_keys_put]
      rintro (same | later)
      · exact other same
      · exact fresh later

def insert (d : Dictionary κ α) (key : κ) (value : α) : Dictionary κ α :=
  ⟨put key value d.entries, put_distinct d.distinct⟩

/-- Of several values under one key the last one counts. -/
def ofList (entries : List (κ × α)) : Dictionary κ α :=
  entries.foldl (fun d entry => d.insert entry.1 entry.2) ∅

def erase (d : Dictionary κ α) (key : κ) : Dictionary κ α :=
  ⟨d.entries.filter fun entry => entry.1 ≠ key,
    d.distinct.sublist (List.filter_sublist.map _)⟩

theorem find?_put (key x : κ) (value : α) (entries : List (κ × α)) :
    ((put key value entries).find? fun entry => entry.1 = x).map Prod.snd =
      if key = x then some value else (entries.find? fun entry => entry.1 = x).map Prod.snd := by
  induction entries with
  | nil => by_cases same : key = x <;> simp [put, same]
  | cons entry rest ih =>
    simp only [put]
    split
    · rename_i atKey
      by_cases same : key = x
      · simp [same]
      · have other : ¬ entry.1 = x := fun equal => same (atKey ▸ equal)
        simp [same, other]
    · rename_i notKey
      by_cases here : entry.1 = x
      · have other : ¬ key = x := fun equal => notKey (here.trans equal.symm)
        simp [here, other]
      · simpa [here] using ih

@[simp] theorem find?_insert (d : Dictionary κ α) (key x : κ) (value : α) :
    (d.insert key value).find? x = if key = x then some value else d.find? x :=
  find?_put key x value d.entries

theorem find?_eq_some_iff (d : Dictionary κ α) {key : κ} {value : α} :
    d.find? key = some value ↔ (key, value) ∈ d.entries := by
  obtain ⟨entries, distinct⟩ := d
  simp only [find?]
  induction entries with
  | nil => simp
  | cons entry rest ih =>
    obtain ⟨fresh, others⟩ := List.nodup_cons.1 distinct
    by_cases here : entry.1 = key
    · subst here
      have later : (entry.1, value) ∉ rest := fun member =>
        fresh (List.mem_map.2 ⟨_, member, rfl⟩)
      simp [Prod.ext_iff, later, eq_comm]
    · have other : (key, value) ≠ entry := fun same => here (same ▸ rfl)
      simpa [here, other] using ih others

theorem find?_eq_none_iff (d : Dictionary κ α) {key : κ} : d.find? key = none ↔ key ∉ d.keys := by
  simp only [find?, keys, Option.map_eq_none_iff, List.find?_eq_none, decide_eq_true_eq,
    List.mem_map, not_exists, not_and]

theorem put_of_not_mem {key : κ} {value : α} {entries : List (κ × α)}
    (absent : key ∉ entries.map Prod.fst) : put key value entries = entries ++ [(key, value)] := by
  induction entries with
  | nil => rfl
  | cons entry rest ih =>
    simp only [List.map_cons, List.mem_cons, not_or] at absent
    have other : ¬ entry.1 = key := fun same => absent.1 same.symm
    simp only [put, other, if_false, ih absent.2, List.cons_append]

theorem entries_insert (d : Dictionary κ α) {key : κ} (value : α) (absent : key ∉ d.keys) :
    (d.insert key value).entries = d.entries ++ [(key, value)] := put_of_not_mem absent

theorem entries_ofList {entries : List (κ × α)} (distinct : (entries.map Prod.fst).Nodup) :
    (ofList entries).entries = entries := by
  have fold : ∀ (rest : List (κ × α)) (d : Dictionary κ α),
      ((d.entries ++ rest).map Prod.fst).Nodup →
        (rest.foldl (fun d entry => d.insert entry.1 entry.2) d).entries = d.entries ++ rest := by
    intro rest
    induction rest with
    | nil => simp
    | cons entry rest ih =>
      intro d distinct
      have split : d.entries ++ entry :: rest = (d.entries ++ [entry]) ++ rest := by simp
      have absent : entry.1 ∉ d.keys := by
        intro member
        rw [List.map_append, List.nodup_append] at distinct
        exact distinct.2.2 _ member _ List.mem_cons_self rfl
      have added := d.entries_insert entry.2 absent
      rw [List.foldl_cons, ih (d.insert entry.1 entry.2), added, split]
      rw [added, ← split]
      exact distinct
  exact fold entries ∅ distinct

end Dictionary
end BundlePlan
