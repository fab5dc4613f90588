/-! Strict decrease of counts, by which both the discovery of modules and the search for a chain
come to an end. -/
namespace BundlePlan

theorem countP_lt_of_lost {α : Type} {before after : α → Bool} {list : List α} {lost : α}
    (kept : ∀ x ∈ list, after x = true → before x = true) (member : lost ∈ list)
    (held : before lost = true) (gone : after lost = false) :
    list.countP after < list.countP before := by
  induction list with
  | nil => cases member
  | cons x rest ih =>
    have keptRest : ∀ y ∈ rest, after y = true → before y = true :=
      fun y inside => kept y (List.mem_cons_of_mem x inside)
    rcases List.mem_cons.1 member with rfl | inside
    · have := List.countP_mono_left keptRest
      rw [List.countP_cons_of_pos held, List.countP_cons_of_neg (by simp [gone])]
      omega
    · have less := ih keptRest inside
      have here := kept x List.mem_cons_self
      simp only [List.countP_cons]
      split <;> rename_i first
      · rw [if_pos (here first)]; omega
      · omega

end BundlePlan
