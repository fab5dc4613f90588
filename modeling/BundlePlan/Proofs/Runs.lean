import Mathlib.Data.List.Basic

/-! Runs of characters at the beginning of a text. A run that cannot go on is determined by the
text; and three quotes after a short run of quotes make it one that is long enough to tell. -/
namespace BundlePlan.Text

section Runs

variable {cs cs' rest rest' : List Char} {p : Char → Bool}

theorem takeWhile_append (all : ∀ c ∈ cs, p c = true) (stop : ∀ c ∈ rest.head?, p c = false) :
    (cs ++ rest).takeWhile p = cs := by
  rw [List.takeWhile_append_of_pos all]
  cases rest with
  | nil => simp
  | cons c rest => rw [List.takeWhile_cons_of_neg (by simp [stop c rfl]), List.append_nil]

theorem dropWhile_append (all : ∀ c ∈ cs, p c = true) (stop : ∀ c ∈ rest.head?, p c = false) :
    (cs ++ rest).dropWhile p = rest := by
  rw [List.dropWhile_append_of_pos all]
  cases rest with
  | nil => rfl
  | cons c rest => rw [List.dropWhile_cons_of_neg (by simp [stop c rfl])]

theorem run_unique (all : ∀ c ∈ cs, p c = true) (all' : ∀ c ∈ cs', p c = true)
    (stop : ∀ c ∈ rest.head?, p c = false) (stop' : ∀ c ∈ rest'.head?, p c = false)
    (same : cs ++ rest = cs' ++ rest') : cs = cs' ∧ rest = rest' := by
  have runs := congrArg (List.takeWhile p) same
  rw [takeWhile_append all stop, takeWhile_append all' stop'] at runs
  rw [runs] at same
  exact ⟨runs, List.append_cancel_left same⟩

end Runs

/-- The length of the run of quotes that a text begins with. -/
def leading (quote : Char) (cs : List Char) : Nat := (cs.takeWhile (· = quote)).length

section Quotes

variable {quote c : Char} {cs rest : List Char}

theorem leading_quote (quote : Char) (cs : List Char) :
    leading quote (quote :: cs) = leading quote cs + 1 := by
  simp [leading]

theorem leading_other (other : c ≠ quote) (cs : List Char) : leading quote (c :: cs) = 0 := by
  rw [leading, List.takeWhile_cons_of_neg (by simpa using other), List.length_nil]

theorem leading_outside (outside : rest.head? ≠ some quote) : leading quote rest = 0 := by
  cases rest with
  | nil => rfl
  | cons c others => exact leading_other (fun same => outside (congrArg some same)) others

/-- How many quotes may follow a quote that belongs to a long text: too few to close the text with
it, or enough to close it without it. -/
def Apart (quote : Char) (rest : List Char) : Prop :=
  leading quote rest ≤ 1 ∨ 3 ≤ leading quote rest ∧ leading quote rest ≤ 4

theorem apart_closing (short : leading quote cs ≤ 1) (outside : rest.head? ≠ some quote) :
    Apart quote (cs ++ quote :: quote :: quote :: rest) := by
  have closed : leading quote (quote :: quote :: quote :: rest) = 3 := by
    rw [leading_quote, leading_quote, leading_quote, leading_outside outside]
  unfold Apart
  cases cs with
  | nil =>
    rw [List.nil_append, closed]
    omega
  | cons c others =>
    by_cases same : c = quote
    · rw [same, leading_quote] at short
      rw [same, List.cons_append, leading_quote]
      cases others with
      | nil =>
        rw [List.nil_append, closed]
        omega
      | cons d more =>
        by_cases sameToo : d = quote
        · rw [sameToo, leading_quote] at short
          omega
        · rw [List.cons_append, leading_other sameToo]
          omega
    · rw [List.cons_append, leading_other same]
      omega

/-- Where two quotes may follow a quote, one or two more follow them. -/
theorem exists_closing (apart : Apart quote (quote :: quote :: rest)) :
    ∃ others, rest = quote :: others ∧ leading quote others ≤ 1 := by
  unfold Apart at apart
  rw [leading_quote, leading_quote] at apart
  cases rest with
  | nil => simp [leading] at apart
  | cons c others =>
    by_cases same : c = quote
    · rw [same, leading_quote] at apart
      exact ⟨others, by rw [same], by omega⟩
    · rw [leading_other same] at apart
      omega

end Quotes

end BundlePlan.Text
