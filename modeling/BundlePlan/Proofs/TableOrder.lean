import BundlePlan.Proofs.Checks

/-! The order of keys. Whichever way a table is written down, and however deep in a document, it
lists its keys in ascending order, each of them once: insertion keeps the order in the draft of
every table, and what is read as a finished value has been a draft before. -/
namespace BundlePlan.Toml

open BundlePlan.Configuration (bind_eq_ok foldlM_holds)

/-- Each key once, in ascending order. -/
def Ascending {α : Type} (entries : List (String × α)) : Prop :=
  entries.Pairwise fun a b => a.1 < b.1

/-- All tables in the value list their keys in ascending order. -/
inductive Value.Ordered : Value → Prop
  | scalar {value : Value} (noArray : ∀ items, value ≠ .array items)
      (noTable : ∀ entries, value ≠ .table entries) : Ordered value
  | array {items : List Value} (each : ∀ item ∈ items, Ordered item) : Ordered (.array items)
  | table {entries : List (String × Value)} (ascending : Ascending entries)
      (each : ∀ entry ∈ entries, Ordered entry.2) : Ordered (.table entries)

inductive Node.Ordered : Node → Prop
  | done {value : Value} (ordered : value.Ordered) : Ordered (.done value)
  | table {origin : Origin} {entries : List (String × Node)} (ascending : Ascending entries)
      (each : ∀ entry ∈ entries, Ordered entry.2) : Ordered (.table origin entries)
  | tables {elements : List (List (String × Node))}
      (ascending : ∀ entries ∈ elements, Ascending entries)
      (each : ∀ entries ∈ elements, ∀ entry ∈ entries, Ordered entry.2) :
      Ordered (.tables elements)

theorem Ascending.nodup {α : Type} {entries : List (String × α)} (ascending : Ascending entries) :
    (entries.map Prod.fst).Nodup := by
  refine List.pairwise_map.2 (ascending.imp fun {a b} below same => ?_)
  exact String.lt_irrefl b.1 (same ▸ below)

namespace Value

variable {entries : List (String × Value)}

theorem Ordered.ascending (ordered : (Value.table entries).Ordered) : Ascending entries := by
  cases ordered with
  | scalar _ noTable => exact absurd rfl (noTable entries)
  | table ascending _ => exact ascending

/-- The value of a key in an ordered table is ordered. -/
theorem Ordered.given {key : String} {value : Value} (ordered : (Value.table entries).Ordered)
    (given : entry? entries key = some value) : value.Ordered := by
  obtain ⟨entry, found, rfl⟩ := Option.map_eq_some_iff.1 given
  cases ordered with
  | scalar _ noTable => exact absurd rfl (noTable entries)
  | table _ each => exact each entry (List.mem_of_find?_eq_some found)

end Value

namespace Draft

structure Ordered (draft : Draft) : Prop where
  ascending : Ascending draft
  each : ∀ entry ∈ draft, entry.2.Ordered

variable {draft next : Draft} {key : String} {node : Node} {path : List String} {value : Value}
  {action : Draft → Except Fault Draft}

private theorem Ordered.nil : Ordered [] := ⟨.nil, nofun⟩

private theorem mem_put {entry : String × Node} (member : entry ∈ put key node draft) :
    entry = (key, node) ∨ entry ∈ draft := by
  induction draft with
  | nil => exact .inl (List.mem_singleton.1 member)
  | cons first rest ih =>
    unfold put at member
    split at member
    · exact List.mem_cons.1 member
    · split at member
      · exact (List.mem_cons.1 member).imp_right (List.mem_cons_of_mem first)
      · rcases List.mem_cons.1 member with rfl | later
        · exact .inr List.mem_cons_self
        · exact (ih later).imp_right (List.mem_cons_of_mem first)

private theorem put_ascending (ascending : Ascending draft) : Ascending (put key node draft) := by
  induction draft with
  | nil => exact List.pairwise_singleton _ _
  | cons first rest ih =>
    obtain ⟨least, others⟩ := List.pairwise_cons.1 ascending
    unfold put
    split
    · rename_i below
      refine List.pairwise_cons.2 ⟨fun entry inside => ?_, ascending⟩
      rcases List.mem_cons.1 inside with rfl | later
      · exact below
      · exact String.lt_trans below (least entry later)
    · split
      · rename_i same
        subst same
        exact List.pairwise_cons.2 ⟨least, others⟩
      · rename_i notBelow different
        refine List.pairwise_cons.2 ⟨fun entry inside => ?_, ih others⟩
        rcases mem_put inside with rfl | later
        · apply String.not_le.1
          intro above
          exact different (String.le_antisymm (String.not_lt.1 notBelow) above)
        · exact least entry later

private theorem Ordered.put (ordered : draft.Ordered) (sorted : node.Ordered) :
    (Draft.put key node draft).Ordered := by
  refine ⟨put_ascending ordered.ascending, fun entry inside => ?_⟩
  rcases mem_put inside with rfl | old
  · exact sorted
  · exact ordered.each entry old

private theorem Ordered.find? (ordered : draft.Ordered)
    (found : Draft.find? key draft = some node) : node.Ordered := by
  obtain ⟨entry, here, rfl⟩ := Option.map_eq_some_iff.1 found
  exact ordered.each entry (List.mem_of_find?_eq_some here)

private theorem Ordered.table {origin : Origin} (ordered : draft.Ordered) :
    (Node.table origin draft).Ordered := .table ordered.ascending ordered.each

private theorem ordered_of_table {origin : Origin} (ordered : (Node.table origin draft).Ordered) :
    draft.Ordered := by
  cases ordered with
  | table ascending each => exact ⟨ascending, each⟩

private theorem ordered_tables {elements : List Draft} :
    (Node.tables elements).Ordered ↔ ∀ draft ∈ elements, draft.Ordered := by
  constructor
  · intro ordered
    cases ordered with
    | tables ascending each => exact fun draft inside => ⟨ascending draft inside, each draft inside⟩
  · intro each
    exact .tables (fun draft inside => (each draft inside).ascending)
      fun draft inside => (each draft inside).each

/-- A change at the end of a path keeps the order if it keeps that of the table there. -/
theorem Ordered.change {dotted : Bool}
    (keeps : ∀ {draft next : Draft}, draft.Ordered → action draft = .ok next → next.Ordered)
    (ordered : draft.Ordered) (changed : Draft.change dotted path action draft = .ok next) :
    next.Ordered := by
  induction path generalizing draft next with
  | nil => exact keeps ordered changed
  | cons key rest ih =>
    unfold Draft.change at changed
    split at changed
    · obtain ⟨inner, deeper, made⟩ := bind_eq_ok.1 changed
      obtain rfl := Except.ok.inj made
      exact ordered.put (ih .nil deeper).table
    · rename_i found
      have sorted := ordered_of_table (ordered.find? found)
      split at changed
      · cases changed
      · obtain ⟨inner, deeper, made⟩ := bind_eq_ok.1 changed
        obtain rfl := Except.ok.inj made
        exact ordered.put (ih sorted deeper).table
    · rename_i elements found
      have sorted := ordered_tables.1 (ordered.find? found)
      split at changed
      · cases changed
      · obtain ⟨inner, deeper, made⟩ := bind_eq_ok.1 changed
        obtain rfl := Except.ok.inj made
        have last : Ordered (elements.getLast?.getD []) := by
          cases ends : elements.getLast? with
          | none => exact .nil
          | some draft => exact sorted draft (List.mem_of_getLast? ends)
        refine ordered.put (ordered_tables.2 fun draft inside => ?_)
        rcases List.mem_append.1 inside with earlier | new
        · exact sorted draft (List.dropLast_subset _ earlier)
        · rw [List.mem_singleton.1 new]
          exact ih last deeper
    · cases changed

private theorem Ordered.add (sorted : value.Ordered) (ordered : draft.Ordered)
    (added : Draft.add key value draft = .ok next) : next.Ordered := by
  unfold Draft.add at added
  split at added
  · obtain rfl := Except.ok.inj added
    exact ordered.put (.done sorted)
  · cases added

private theorem Ordered.assign (sorted : value.Ordered) (ordered : draft.Ordered)
    (assigned : Draft.assign path value draft = .ok next) : next.Ordered := by
  unfold Draft.assign at assigned
  split at assigned
  · cases assigned
  · exact ordered.change (fun inner => inner.add sorted) assigned

private theorem Ordered.openTable (ordered : draft.Ordered)
    (opened : Draft.openTable path draft = .ok next) : next.Ordered := by
  unfold Draft.openTable at opened
  split at opened
  · cases opened
  · refine ordered.change (fun {draft next} inner opens => ?_) opened
    split at opens
    · obtain rfl := Except.ok.inj opens
      exact inner.put (Ordered.nil.table)
    · rename_i found
      obtain rfl := Except.ok.inj opens
      exact inner.put (ordered_of_table (inner.find? found)).table
    · cases opens

private theorem Ordered.openElement (ordered : draft.Ordered)
    (opened : Draft.openElement path draft = .ok next) : next.Ordered := by
  unfold Draft.openElement at opened
  split at opened
  · cases opened
  · refine ordered.change (fun {draft next} inner opens => ?_) opened
    split at opens
    · obtain rfl := Except.ok.inj opens
      exact inner.put (ordered_tables.2 (by simp [Ordered.nil]))
    · rename_i elements found
      obtain rfl := Except.ok.inj opens
      have sorted := ordered_tables.1 (inner.find? found)
      refine inner.put (ordered_tables.2 fun draft inside => ?_)
      rcases List.mem_append.1 inside with earlier | new
      · exact sorted draft earlier
      · rw [List.mem_singleton.1 new]
        exact .nil
    · cases opens

private theorem values_eq (draft : Draft) :
    values draft = draft.map fun entry => (entry.1, entry.2.value) := by
  induction draft with
  | nil => rfl
  | cons first rest ih => rw [values, ih, List.map_cons]

private theorem elementValues_eq (elements : List Draft) :
    elementValues elements = elements.map fun draft => .table (values draft) := by
  induction elements with
  | nil => rfl
  | cons first rest ih => rw [elementValues, ih, List.map_cons]

private theorem values_ascending (ascending : Ascending draft) : Ascending (values draft) := by
  rw [values_eq]
  exact List.pairwise_map.2 ascending

private theorem value_ordered (ordered : node.Ordered) : node.value.Ordered := by
  have table {entries : Draft} (ascending : Ascending entries)
      (each : ∀ entry ∈ entries, entry.2.value.Ordered) :
      (Value.table (values entries)).Ordered := by
    refine .table (values_ascending ascending) fun entry inside => ?_
    rw [values_eq] at inside
    obtain ⟨source, member, rfl⟩ := List.mem_map.1 inside
    exact each source member
  induction ordered with
  | done ordered => exact ordered
  | table ascending each ih => exact table ascending ih
  | tables ascending each ih =>
    refine .array fun item inside => ?_
    rw [elementValues_eq] at inside
    obtain ⟨entries, member, rfl⟩ := List.mem_map.1 inside
    exact table (ascending entries member) (ih entries member)

private theorem Ordered.values (ordered : draft.Ordered) :
    (Value.table (values draft)).Ordered := by
  have whole : (Node.table .header draft).Ordered := ordered.table
  exact value_ordered whole

end Draft

/-! What is read. -/

variable {tokens rest : List Token} {read : Value}

private theorem scalar?_ordered {cs : List Char} (spelled : scalar? cs = some read) :
    read.Ordered := by
  have integer (outcome : Option (Option Int)) (made : outcome.map (integerValue cs) = some read) :
      read.Ordered := by
    obtain ⟨number, _, rfl⟩ := Option.map_eq_some_iff.1 made
    cases number <;> exact .scalar nofun nofun
  have float (made : float? cs = some read) : read.Ordered := by
    simp only [float?, Option.bind_eq_bind, Option.bind_eq_some_iff] at made
    obtain ⟨_, _, _, _, made⟩ := made
    split at made
    · cases made
    · split at made
      · cases made
      · split at made <;> cases made <;> exact .scalar nofun nofun
  have decimal (made : decimal? cs = some read) : read.Ordered := by
    unfold decimal? at made
    split at made
    · cases made
      exact .scalar nofun nofun
    · split at made
      · exact float made
      · exact integer _ made
  unfold scalar? at spelled
  split at spelled
  · cases spelled
    exact .scalar nofun nofun
  · split at spelled
    · cases spelled
      exact .scalar nofun nofun
    · split at spelled
      · cases spelled
        exact .scalar nofun nofun
      · unfold number? at spelled
        split at spelled
        · exact integer _ spelled
        · exact integer _ spelled
        · exact integer _ spelled
        · exact decimal spelled

/-- What holds of every item that can be read holds of all items between brackets. -/
theorem items_forall {α : Type} {item : List Token → Except Fault (α × List Token)}
    {close : Token} {holds : α → Prop}
    (each : ∀ tokens a rest, item tokens = .ok (a, rest) → holds a) {left : Nat} {all : List α}
    (reads : items item close left tokens = .ok (all, rest)) : ∀ a ∈ all, holds a := by
  induction left generalizing tokens all rest with
  | zero => cases reads
  | succ left ih =>
    unfold items at reads
    split at reads
    · cases reads
    · split at reads
      · cases reads
        nofun
      · obtain ⟨⟨first, after⟩, one, reads⟩ := bind_eq_ok.1 reads
        have here := each _ _ _ one
        dsimp only at reads
        split at reads
        · cases reads
        · split at reads
          · cases reads
            simpa using here
          · split at reads
            · obtain ⟨⟨others, final⟩, more, made⟩ := bind_eq_ok.1 reads
              cases made
              exact List.forall_mem_cons.2 ⟨here, ih more⟩
            · cases reads

private theorem assignment_forall {skip : List Token → List Token}
    {value : List Token → Except Fault (Value × List Token)} {holds : Value → Prop}
    (each : ∀ tokens read rest, value tokens = .ok (read, rest) → holds read) {path : List String}
    (reads : assignment skip value tokens = .ok ((path, read), rest)) : holds read := by
  obtain ⟨⟨_, after⟩, _, reads⟩ := bind_eq_ok.1 reads
  dsimp only at reads
  split at reads
  · obtain ⟨⟨given, final⟩, one, made⟩ := bind_eq_ok.1 reads
    cases made
    exact each _ _ _ one
  · cases reads

private theorem inlineTable_ordered {assignments : List (List String × Value)}
    (each : ∀ assignment ∈ assignments, assignment.2.Ordered)
    (made : inlineTable assignments = .ok read) : read.Ordered := by
  obtain ⟨draft, filled, made⟩ := bind_eq_ok.1 made
  cases made
  refine Draft.Ordered.values ?_
  refine foldlM_holds (fun _ draft => Draft.Ordered draft) ?_ Draft.Ordered.nil filled
  intro done first others draft next split ordered assigned
  have inside : first ∈ assignments := by simp [split]
  exact ordered.assign (each first inside) assigned

private theorem value_ordered {depth : Nat} (reads : value depth tokens = .ok (read, rest)) :
    read.Ordered := by
  induction depth using Nat.strongRecOn generalizing tokens read rest with
  | ind depth ih =>
    -- Only what stands between brackets is a value again, one level deeper.
    unfold value at reads
    split at reads
    · cases reads
      exact .scalar nofun nofun
    · split at reads
      · cases reads
      · obtain ⟨⟨elements, after⟩, inside, made⟩ := bind_eq_ok.1 reads
        cases made
        exact .array (items_forall (fun _ _ _ => ih _ (Nat.lt_succ_self _)) inside)
    · split at reads
      · cases reads
      · obtain ⟨⟨assignments, after⟩, inside, made⟩ := bind_eq_ok.1 reads
        obtain ⟨table, filled, made⟩ := bind_eq_ok.1 made
        cases made
        refine inlineTable_ordered ?_ filled
        exact items_forall
          (fun _ _ _ => assignment_forall fun _ _ _ => ih _ (Nat.lt_succ_self _)) inside
    · split at reads
      · cases reads
      · split at reads
        · rename_i spelled
          cases reads
          exact scalar?_ordered spelled
        · cases reads

def Statement.Ordered : Statement → Prop
  | .assign _ value => value.Ordered
  | _ => True

private theorem statement_ordered {found : Option Statement}
    (reads : statement tokens = .ok (found, rest)) : ∀ first ∈ found, first.Ordered := by
  unfold statement at reads
  split at reads
  · cases reads
    nofun
  · cases reads
    nofun
  · cases reads
    nofun
  · obtain ⟨⟨path, after⟩, _, reads⟩ := bind_eq_ok.1 reads
    dsimp only at reads
    split at reads
    · cases reads
      rintro _ ⟨⟩
      trivial
    · cases reads
  · obtain ⟨⟨path, after⟩, _, reads⟩ := bind_eq_ok.1 reads
    dsimp only at reads
    split at reads
    · cases reads
      rintro _ ⟨⟩
      trivial
    · cases reads
  · obtain ⟨⟨⟨path, given⟩, after⟩, assigned, made⟩ := bind_eq_ok.1 reads
    cases made
    rintro _ ⟨⟩
    exact assignment_forall (fun _ _ _ => value_ordered) assigned

private theorem statements_ordered {left : Nat} {all : List Statement}
    (reads : statements left tokens = .ok all) : ∀ one ∈ all, one.Ordered := by
  induction left generalizing tokens all with
  | zero =>
    cases tokens with
    | nil =>
      cases reads
      nofun
    | cons token others => cases reads
  | succ left ih =>
    cases tokens with
    | nil =>
      cases reads
      nofun
    | cons token others =>
      obtain ⟨⟨first, after⟩, one, reads⟩ := bind_eq_ok.1 reads
      obtain ⟨next, ended, reads⟩ := bind_eq_ok.1 reads
      obtain ⟨more, further, made⟩ := bind_eq_ok.1 reads
      cases made
      intro item inside
      rcases List.mem_append.1 inside with here | later
      · exact statement_ordered one item (Option.mem_toList.1 here)
      · exact ih further item later

private theorem Statement.apply_ordered {state next : List String × Draft} {one : Statement}
    (sorted : one.Ordered) (ordered : state.2.Ordered) (applied : one.apply state = .ok next) :
    next.2.Ordered := by
  cases one with
  | table path =>
    obtain ⟨draft, opened, made⟩ := bind_eq_ok.1 applied
    cases made
    exact ordered.openTable opened
  | element path =>
    obtain ⟨draft, opened, made⟩ := bind_eq_ok.1 applied
    cases made
    exact ordered.openElement opened
  | assign path value =>
    obtain ⟨draft, changed, made⟩ := bind_eq_ok.1 applied
    cases made
    exact ordered.change (fun inner => inner.assign sorted) changed

/-- Every table of a document that can be read lists its keys in ascending order. -/
theorem parse_ordered {document : String} {entries : List (String × Value)}
    (parsed : parse document = .ok entries) : (Value.table entries).Ordered := by
  obtain ⟨tokens, _, parsed⟩ := bind_eq_ok.1 parsed
  obtain ⟨all, reads, parsed⟩ := bind_eq_ok.1 parsed
  obtain ⟨⟨_, draft⟩, filled, made⟩ := bind_eq_ok.1 parsed
  cases made
  have sorted := statements_ordered reads
  refine Draft.Ordered.values ?_
  refine foldlM_holds (fun _ state => Draft.Ordered state.2) ?_ Draft.Ordered.nil filled
  intro done one others state next split ordered applied
  have inside : one ∈ all := by simp [split]
  exact Statement.apply_ordered (sorted one inside) ordered applied

end BundlePlan.Toml
