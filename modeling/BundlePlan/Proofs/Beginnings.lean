import BundlePlan.Proofs.AbsolutePaths

/-! The directories that a path passes through, as they are spelled. Each is a beginning of the path,
which goes on from it with a slash and at least one more part; and each goes one name further than
the one around it, single dots apart. -/
namespace BundlePlan

namespace FilePath

/-- A proper beginning of a path: spelled like it up to a slash, and with fewer parts. -/
structure Encloses (front path : FilePath) : Prop where
  given : front.text ≠ ""
  spelled : ∃ rest, path.text.toList = front.text.toList ++ '/' :: rest
  shorter : ∃ more, more ≠ [] ∧ path.parts = front.parts ++ more

/-- A beginning of a path up to one of its slashes, after which there is another part. -/
structure Cut (front path : FilePath) (before after : List (List Char)) : Prop where
  given : front.text ≠ ""
  front : front.text.toList.splitOn '/' = before
  path : path.text.toList.splitOn '/' = before ++ after
  goesOn : ∃ piece ∈ after, (Part.ofPiece? piece).isSome = true

def onward (reached : List Char) (pieces : List (List Char)) : List Char :=
  reached ++ pieces.flatMap ('/' :: ·)

variable {reached first : List Char} {pieces rest before after : List (List Char)}
  {outer : List FilePath} {front path : FilePath}

private theorem onward_cons (reached piece : List Char) (pieces : List (List Char)) :
    onward reached (piece :: pieces) = onward (reached ++ '/' :: piece) pieces := by
  simp [onward]

private theorem onward_append (reached : List Char) (before after : List (List Char)) :
    onward reached (before ++ after) = onward (onward reached before) after := by
  simp [onward]

private theorem intercalate_eq_onward (first : List Char) (rest : List (List Char)) :
    ['/'].intercalate (first :: rest) = onward first rest := by
  induction rest generalizing first with
  | nil => simp [onward]
  | cons piece rest ih =>
    rw [List.intercalate_cons_cons, ih piece]
    simp [onward]

private theorem eq_onward (split : path.text.toList.splitOn '/' = first :: rest) :
    path.text.toList = onward first rest := by
  rw [← intercalate_eq_onward, ← split]
  exact (List.intercalate_splitOn '/').symm

private theorem beginnings_of_split (split : path.text.toList.splitOn '/' = first :: rest) :
    path.beginnings =
      longer first rest ++ if first.isEmpty then [] else [⟨String.ofList first⟩] := by
  unfold beginnings
  rw [split]

private theorem longer_append (reached piece : List Char) (rest : List (List Char))
    (outer : List FilePath) : longer reached (piece :: rest) ++ outer =
      longer (reached ++ '/' :: piece) rest ++
        ((if (Part.ofPiece? piece).isSome then [⟨String.ofList (reached ++ '/' :: piece)⟩] else []) ++
          outer) := by
  rw [longer, List.append_assoc]

private theorem mem_tail_longer (member : front ∈ (longer reached rest ++ outer).tail) :
    front ∈ outer.tail ∨
      front ∈ outer ∧ (∃ piece ∈ rest, (Part.ofPiece? piece).isSome = true) ∨
      ∃ before after, before ≠ [] ∧ rest = before ++ after ∧
        front = ⟨String.ofList (onward reached before)⟩ ∧
        ∃ piece ∈ after, (Part.ofPiece? piece).isSome = true := by
  induction rest generalizing reached outer with
  | nil => exact .inl member
  | cons piece rest ih =>
    rw [longer_append] at member
    -- A spelling found further on is found here with one piece more.
    have further : (∃ before after, before ≠ [] ∧ rest = before ++ after ∧
        front = ⟨String.ofList (onward (reached ++ '/' :: piece) before)⟩ ∧
        ∃ piece ∈ after, (Part.ofPiece? piece).isSome = true) →
        ∃ before after, before ≠ [] ∧ piece :: rest = before ++ after ∧
          front = ⟨String.ofList (onward reached before)⟩ ∧
          ∃ piece ∈ after, (Part.ofPiece? piece).isSome = true := by
      rintro ⟨before, after, _, rfl, same, goesOn⟩
      exact ⟨piece :: before, after, List.cons_ne_nil _ _, rfl, by rw [onward_cons, same], goesOn⟩
    by_cases shown : (Part.ofPiece? piece).isSome = true
    · rw [if_pos shown] at member
      rcases ih member with behind | ⟨here, goesOn⟩ | found
      · exact .inr (.inl ⟨behind, piece, List.mem_cons_self, shown⟩)
      · rcases List.mem_cons.1 here with same | around
        · refine .inr (.inr ⟨[piece], rest, List.cons_ne_nil _ _, rfl, ?_, goesOn⟩)
          rw [same, onward_cons, onward, List.flatMap_nil, List.append_nil]
        · obtain ⟨other, inside, shownToo⟩ := goesOn
          exact .inr (.inl ⟨around, other, List.mem_cons_of_mem piece inside, shownToo⟩)
      · exact .inr (.inr (further found))
    · rw [if_neg shown, List.nil_append] at member
      rcases ih member with behind | ⟨around, other, inside, shownToo⟩ | found
      · exact .inl behind
      · exact .inr (.inl ⟨around, other, List.mem_cons_of_mem piece inside, shownToo⟩)
      · exact .inr (.inr (further found))

theorem exists_cut (member : front ∈ path.enclosing) : ∃ before after, front.Cut path before after := by
  obtain ⟨first, rest, split⟩ :=
    List.exists_cons_of_ne_nil (List.splitOn_ne_nil '/' path.text.toList)
  have clean : ∀ piece ∈ first :: rest, '/' ∉ piece := fun piece inside =>
    not_mem_of_mem_splitOn (split ▸ inside)
  rw [enclosing, beginnings_of_split split] at member
  have cut {before after : List (List Char)} (pieces : rest = before ++ after)
      (given : onward first before ≠ []) (same : front = ⟨String.ofList (onward first before)⟩)
      (goesOn : ∃ piece ∈ after, (Part.ofPiece? piece).isSome = true) :
      front.Cut path (first :: before) after := by
    have text : front.text.toList = onward first before := by rw [same, String.toList_ofList]
    refine ⟨fun empty => given ?_, ?_, by rw [split, pieces, List.cons_append], goesOn⟩
    · rw [← text, empty]
      rfl
    · rw [text, ← intercalate_eq_onward]
      refine List.splitOn_intercalate '/' (fun piece inside => clean piece ?_) (by simp)
      rw [pieces, ← List.cons_append]
      exact List.mem_append_left after inside
  rcases mem_tail_longer member with behind | ⟨here, goesOn⟩ | ⟨before, after, some, pieces, same, goesOn⟩
  · split at behind <;> cases behind
  · split at here
    · cases here
    · rename_i given
      refine ⟨[first], rest, cut (List.nil_append rest).symm ?_ ?_ goesOn⟩
      · simpa [onward] using given
      · simpa [onward] using here
  · refine ⟨_, _, cut pieces ?_ same goesOn⟩
    obtain ⟨piece, others, rfl⟩ := List.exists_cons_of_ne_nil some
    simp [onward]

theorem Cut.encloses (cut : front.Cut path before after) : front.Encloses path := by
  obtain ⟨first, pieces, begins⟩ :=
    List.exists_cons_of_ne_nil (List.splitOn_ne_nil '/' front.text.toList)
  have same := cut.front.symm.trans begins
  have whole : path.text.toList.splitOn '/' = first :: (pieces ++ after) := by
    rw [cut.path, same, List.cons_append]
  obtain ⟨piece, inside, shown⟩ := cut.goesOn
  obtain ⟨next, others, goesOn⟩ := List.exists_cons_of_ne_nil (List.ne_nil_of_mem inside)
  have nonempty : path.text ≠ "" := by
    intro empty
    rw [empty] at whole
    obtain ⟨_, none⟩ := List.cons.inj whole
    rw [goesOn] at none
    exact absurd none.symm (by simp)
  refine ⟨cut.given, ⟨onward next others, ?_⟩, after.filterMap Part.ofPiece?, ?_, ?_⟩
  · rw [eq_onward whole, onward_append, ← eq_onward begins, goesOn]
    simp [onward]
  · obtain ⟨part, read⟩ := Option.isSome_iff_exists.1 shown
    exact List.ne_nil_of_mem (List.mem_filterMap.2 ⟨piece, inside, read⟩)
  · rw [parts_of_split nonempty whole, parts_of_split cut.given begins, List.filterMap_append,
      List.cons_append]

/-- The directories made for a path are proper beginnings of it. -/
theorem encloses_of_mem (member : front ∈ path.enclosing) : front.Encloses path := by
  obtain ⟨before, after, cut⟩ := exists_cut member
  exact cut.encloses

theorem Cut.names_eq (cut : front.Cut path before after) :
    ∃ more, more ≠ [] ∧ FileTree.names path = FileTree.names front ++ more := by
  obtain ⟨piece, inside, shown⟩ := cut.goesOn
  have given : piece ≠ [] := by
    rintro rfl
    cases shown
  refine ⟨(after.filter (· ≠ [])).map String.ofList, ?_, ?_⟩
  · exact List.ne_nil_of_mem (List.mem_map_of_mem (List.mem_filter.2 ⟨inside, decide_eq_true given⟩))
  · rw [FileTree.names, FileTree.pieces, cut.path, List.filter_append, List.map_append, ← cut.front]
    rfl

theorem Encloses.origin_eq (encloses : front.Encloses path) (cwd : Location) :
    FileTree.origin front cwd = FileTree.origin path cwd := by
  obtain ⟨rest, spelled⟩ := encloses.spelled
  obtain ⟨c, others, begins⟩ := List.exists_cons_of_ne_nil fun none =>
    encloses.given (String.toList_eq_nil_iff.1 none)
  unfold FileTree.origin
  rw [spelled, begins]
  rfl

end FilePath

namespace FileTree

open FilePath (Part onward longer)

variable {reached first piece : List Char} {rest : List (List Char)} {outer : List FilePath}
  {path : FilePath}

def reachedNames (directories : List FilePath) : List String :=
  (directories.head?.map names).getD []

/-- Each path goes one name further than the next one, single dots apart. -/
inductive Ladder : List FilePath → Prop
  | nil : Ladder []
  | cons {front : FilePath} {outer : List FilePath} {dots : List String} {name : String}
      (around : Ladder outer) (dotted : ∀ dot ∈ dots, dot = ".")
      (named : names front = reachedNames outer ++ dots ++ [name]) : Ladder (front :: outer)

private theorem names_further (reached : List Char) (clean : '/' ∉ piece) :
    names ⟨String.ofList (reached ++ '/' :: piece)⟩ =
      names ⟨String.ofList reached⟩ ++ if piece = [] then [] else [String.ofList piece] := by
  simp only [names, pieces, String.toList_ofList, List.splitOn_append_cons_self,
    List.splitOn_eq_singleton clean, List.filter_append, List.map_append]
  by_cases empty : piece = [] <;> simp [empty]

/-- One spelling more goes one name further; a piece without a part is no spelling of its own, and a
name only if it is a single dot. -/
theorem ladder_longer (clean : ∀ piece ∈ rest, '/' ∉ piece) (ladder : Ladder outer)
    (stands : ∃ dots, (∀ dot ∈ dots, dot = ".") ∧
      names ⟨String.ofList reached⟩ = reachedNames outer ++ dots) :
    Ladder (longer reached rest ++ outer) ∧ ∃ dots, (∀ dot ∈ dots, dot = ".") ∧
      names ⟨String.ofList (onward reached rest)⟩ =
        reachedNames (longer reached rest ++ outer) ++ dots := by
  induction rest generalizing reached outer with
  | nil =>
    rw [onward, List.flatMap_nil, List.append_nil]
    exact ⟨ladder, stands⟩
  | cons piece rest ih =>
    obtain ⟨here, later⟩ := List.forall_mem_cons.1 clean
    obtain ⟨dots, dotted, named⟩ := stands
    rw [FilePath.longer_append, FilePath.onward_cons]
    have further := names_further reached here
    by_cases shown : (Part.ofPiece? piece).isSome = true
    · have given : piece ≠ [] := by
        rintro rfl
        cases shown
      rw [if_neg given, named] at further
      rw [if_pos shown]
      refine ih later (.cons ladder dotted further) ⟨[], nofun, ?_⟩
      rw [List.append_nil]
      rfl
    · rw [if_neg shown, List.nil_append]
      refine ih later ladder ?_
      by_cases given : piece = []
      · rw [if_pos given, List.append_nil] at further
        exact ⟨dots, dotted, further.trans named⟩
      · have dot : piece = ['.'] := by
          rw [FilePath.ofPiece?_eq] at shown
          by_contra other
          rw [if_neg (not_or.2 ⟨given, other⟩)] at shown
          exact shown rfl
        rw [if_neg given, named, dot, List.append_assoc] at further
        refine ⟨dots ++ ["."], ?_, by rw [dot]; exact further⟩
        simpa [or_imp, forall_and] using dotted

private theorem names_single (clean : '/' ∉ first) : names ⟨String.ofList first⟩ =
    if first = [] then [] else [String.ofList first] := by
  rw [names, pieces, String.toList_ofList, List.splitOn_eq_singleton clean]
  by_cases empty : first = [] <;> simp [empty]

private theorem ladder_beginnings (path : FilePath) : Ladder path.beginnings ∧
    ∃ dots, (∀ dot ∈ dots, dot = ".") ∧ names path = reachedNames path.beginnings ++ dots := by
  obtain ⟨first, rest, split⟩ :=
    List.exists_cons_of_ne_nil (List.splitOn_ne_nil '/' path.text.toList)
  obtain ⟨here, later⟩ := List.forall_mem_cons.1 fun piece (inside : piece ∈ first :: rest) =>
    not_mem_of_mem_splitOn (split ▸ inside)
  have whole : (⟨String.ofList (onward first rest)⟩ : FilePath) = path := by
    rw [← FilePath.eq_onward split, String.ofList_toList]
  have single := names_single here
  rw [FilePath.beginnings_of_split split]
  nth_rewrite 1 [← whole]
  by_cases empty : first = []
  · rw [if_pos empty] at single
    rw [if_pos (List.isEmpty_iff.2 empty)]
    exact ladder_longer later .nil ⟨[], nofun, single⟩
  · rw [if_neg empty] at single
    rw [if_neg (mt List.isEmpty_iff.1 empty)]
    have none : ∀ dot ∈ ([] : List String), dot = "." := nofun
    have alone : Ladder [⟨String.ofList first⟩] := .cons .nil none single
    refine ladder_longer later alone ⟨[], nofun, ?_⟩
    exact (List.append_nil _).symm

theorem ladder_enclosing (path : FilePath) : Ladder path.enclosing := by
  obtain ⟨ladder, _⟩ := ladder_beginnings path
  unfold FilePath.enclosing
  generalize path.beginnings = all at ladder
  cases ladder with
  | nil => exact .nil
  | cons around _ _ => exact around

/-- The directories that a path passes through lead up to its last name. -/
theorem names_eq_reached {name : String} (last : (names path).getLast? = some name)
    (notDot : name ≠ ".") : ∃ dots, (∀ dot ∈ dots, dot = ".") ∧
      names path = reachedNames path.enclosing ++ dots ++ [name] := by
  obtain ⟨ladder, dots, dotted, named⟩ := ladder_beginnings path
  rcases List.eq_nil_or_concat' dots with rfl | ⟨others, dot, rfl⟩
  · rw [List.append_nil] at named
    unfold FilePath.enclosing
    generalize path.beginnings = all at ladder named
    cases ladder with
    | nil =>
      rw [named] at last
      cases last
    | @cons front outer dots title around dotted namedFront =>
      have same : names path = reachedNames outer ++ dots ++ [title] := named.trans namedFront
      rw [same, List.getLast?_concat] at last
      obtain rfl := Option.some.inj last
      exact ⟨dots, dotted, same⟩
  · rw [named, ← List.append_assoc, List.getLast?_concat] at last
    exact absurd ((Option.some.inj last).symm.trans (dotted dot (by simp))) notDot

end FileTree
end BundlePlan
