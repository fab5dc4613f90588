import BundlePlan.Descriptor.Toml
import BundlePlan.Proofs.Runs
import BundlePlan.Toml.Token

/-! Written texts are single tokens again. Each kind of text is undone by its own reader, up to the
closing quotes: escapes give back their character, and runs of quotes inside a long text are too
short to close it, but for those right before the end, which the closing quotes take in. -/
namespace BundlePlan.Toml

open Text (leading leading_quote leading_other leading_outside Apart apart_closing exists_closing)

private theorem upperHexDigit_digits :
    ∀ d < 16, isHexDigit (upperHexDigit d) = true ∧ digitValue (upperHexDigit d) = d := by decide

private theorem numbered_numberedEscape {c : Char} (low : c.toNat < 256) (rest : List Char) :
    numbered 4 ('0' :: '0' :: upperHexDigit (c.toNat / 16) :: upperHexDigit (c.toNat % 16) ::
      rest) = some (c, rest) := by
  obtain ⟨hexadecimal, valued⟩ := positional_two upperHexDigit_digits low
  have valid : c.toNat.isValidChar := c.valid
  have taken : ('0' :: '0' :: upperHexDigit (c.toNat / 16) :: upperHexDigit (c.toNat % 16) ::
      rest).take 4 = ['0', '0', upperHexDigit (c.toNat / 16), upperHexDigit (c.toNat % 16)] := rfl
  simp only [numbered, taken, valued]
  rw [if_pos ⟨rfl, hexadecimal, valid⟩, Char.ofNat_toNat]
  rfl

/-- How a character can be written between double quotes: as it is, or with a backslash before what
is read as an escape. -/
inductive Written (c : Char) : List Char → Prop
  | plain (allowed : isTextChar c = true) (notQuote : c ≠ '"') (notSlash : c ≠ '\\') : Written c [c]
  | escaped {letter : Char} {more : List Char} (visible : isBlank letter = false)
      (inLine : letter ≠ '\n' ∧ letter ≠ '\r')
      (read : ∀ rest, escape? (letter :: (more ++ rest)) = some (c, rest)) :
      Written c ('\\' :: letter :: more)

private theorem written_escaped {c : Char} (notQuote : c ≠ '"') (notNewline : c ≠ '\n') :
    Written c (escaped c) := by
  unfold escaped
  split
  case h_6 slash _ _ _ _ =>
    split
    · rename_i control
      refine .escaped rfl (by decide) (numbered_numberedEscape ?_)
      rw [Bool.or_eq_true, decide_eq_true_eq, beq_iff_eq] at control
      rcases control with low | rfl
      · exact Nat.lt_trans (Char.lt_def.1 low) (by decide)
      · decide
    · rename_i printed
      rw [Bool.or_eq_true, decide_eq_true_eq, beq_iff_eq, not_or] at printed
      refine .plain ?_ notQuote slash
      simp [isTextChar, Char.not_lt.1 printed.1, printed.2]
  all_goals exact .escaped rfl (by decide) (fun _ => rfl)

private theorem written_basicChar (c : Char) : Written c (basicChar c) := by
  unfold basicChar
  split
  case h_3 notQuote notNewline => exact written_escaped notQuote notNewline
  all_goals exact .escaped rfl (by decide) (fun _ => rfl)

private theorem basicText_written {c : Char} {cs : List Char} (written : Written c cs)
    (rest : List Char) : basicText (cs ++ rest) = Reading.cons c (basicText rest) := by
  cases written with
  | plain allowed notQuote notSlash =>
    rw [List.singleton_append, basicText, if_pos allowed]
    · exact notQuote
    · exact notSlash
  | escaped visible inLine read =>
    rw [List.cons_append, List.cons_append, basicText]
    split
    · rename_i found
      rw [read] at found
      cases found
      rfl
    · rename_i none
      rw [read] at none
      cases none

private theorem basicText_flatMap (text rest : List Char) :
    basicText (text.flatMap basicChar ++ '"' :: rest) = .ok (text, rest) := by
  induction text with
  | nil => rw [List.flatMap_nil, List.nil_append, basicText]
  | cons c others ih =>
    rw [List.flatMap_cons, List.append_assoc, basicText_written (written_basicChar c), ih]
    rfl

private theorem literalText_append {text : List Char} (allowed : ∀ c ∈ text, isTextChar c = true)
    (unquoted : '\'' ∉ text) (rest : List Char) :
    literalText (text ++ '\'' :: rest) = .ok (text, rest) := by
  induction text with
  | nil => rfl
  | cons c others ih =>
    obtain ⟨here, later⟩ := List.forall_mem_cons.1 allowed
    rw [List.mem_cons, not_or] at unquoted
    rw [List.cons_append, literalText, if_pos here, ih later unquoted.2]
    · rfl
    · exact Ne.symm unquoted.1

section Quotes

variable {quote : Char} {rest : List Char}

private theorem leading_le_longestRun (quote : Char) (cs : List Char) (current : Nat) :
    leading quote cs + current ≤ longestRun quote current cs := by
  induction cs generalizing current with
  | nil => simp [leading, longestRun]
  | cons c others ih =>
    by_cases same : c = quote
    · have := ih (current + 1)
      rw [same, leading_quote, longestRun, if_pos rfl]
      omega
    · rw [leading_other same, longestRun, if_neg same, Nat.zero_add]
      exact Nat.le_max_left ..

private theorem closing_outside (outside : rest.head? ≠ some quote) :
    closing quote rest = ([], rest) := by
  cases rest with
  | nil => rfl
  | cons c others =>
    have other : c ≠ quote := fun same => outside (congrArg some same)
    simp [closing, other]

private theorem closing_quote (short : leading quote rest ≤ 1) :
    closing quote (quote :: rest) =
      (quote :: (closing quote rest).1, (closing quote rest).2) := by
  cases rest with
  | nil => simp [closing]
  | cons c others =>
    by_cases same : c = quote
    · rw [same, leading_quote] at short
      cases others with
      | nil => simp [closing, same]
      | cons d more =>
        by_cases sameToo : d = quote
        · rw [sameToo, leading_quote] at short
          omega
        · simp [closing, same, sameToo]
    · simp [closing, same]

end Quotes

private theorem longBasicText_quote {rest : List Char} (apart : Apart '"' rest) :
    longBasicText ('"' :: rest) = Reading.cons '"' (longBasicText rest) := by
  by_cases closes : ∃ others, rest = '"' :: '"' :: others
  · obtain ⟨others, rfl⟩ := closes
    obtain ⟨more, rfl, few⟩ := exists_closing apart
    rw [longBasicText, longBasicText, closing_quote few]
    rfl
  · rw [longBasicText, if_pos (by decide)]
    · exact fun others _ same => closes ⟨others, same⟩
    · decide
    · simp

private theorem longLiteralText_quote {rest : List Char} (apart : Apart '\'' rest) :
    longLiteralText ('\'' :: rest) = Reading.cons '\'' (longLiteralText rest) := by
  by_cases closes : ∃ others, rest = '\'' :: '\'' :: others
  · obtain ⟨others, rfl⟩ := closes
    obtain ⟨more, rfl, few⟩ := exists_closing apart
    rw [longLiteralText, longLiteralText, closing_quote few]
    rfl
  · rw [longLiteralText, if_pos (by decide)]
    · exact fun others _ same => closes ⟨others, same⟩
    · simp

private theorem longLiteralText_append {text rest : List Char} {current : Nat}
    (allowed : ∀ c ∈ text, isTextChar c = true ∨ c = '\n')
    (short : longestRun '\'' current text ≤ 2) (outside : rest.head? ≠ some '\'') :
    longLiteralText (text ++ '\'' :: '\'' :: '\'' :: rest) = .ok (text, rest) := by
  -- `current` counts the quotes just before the text. With them no run is longer than two, so those
  -- after a quote of the text are at most one, and the closing ones come in addition.
  induction text generalizing current with
  | nil => rw [List.nil_append, longLiteralText, closing_outside outside]
  | cons c others ih =>
    obtain ⟨here, later⟩ := List.forall_mem_cons.1 allowed
    rw [longestRun] at short
    by_cases same : c = '\''
    · rw [if_pos same] at short
      have run := leading_le_longestRun '\'' others (current + 1)
      have apart := apart_closing (show leading '\'' others ≤ 1 by omega) outside
      rw [same, List.cons_append, longLiteralText_quote apart, ih later short]
      rfl
    · rw [if_neg same] at short
      have onward := ih later (Nat.le_trans (Nat.le_max_right ..) short)
      rw [List.cons_append, longLiteralText, if_pos (by simpa using here), onward]
      · rfl
      · exact fun _ same' _ => same same'
      · rintro _ rfl
        exact absurd here (by decide)

theorem lineFold?_eq_none {letter : Char} (visible : isBlank letter = false)
    (inLine : letter ≠ '\n' ∧ letter ≠ '\r') (rest : List Char) :
    lineFold? (letter :: rest) = none := by
  unfold lineFold?
  rw [List.dropWhile_cons_of_neg (by simp [visible])]
  split
  · rename_i same
    exact absurd (List.cons.inj same).1 inLine.1
  · rename_i same
    exact absurd (List.cons.inj same).1 inLine.2
  · rfl

private theorem longBasicText_written {c : Char} {cs : List Char} (written : Written c cs)
    (rest : List Char) : longBasicText (cs ++ rest) = Reading.cons c (longBasicText rest) := by
  cases written with
  | plain allowed notQuote notSlash =>
    rw [List.singleton_append, longBasicText, if_pos (by simp [allowed])]
    · exact fun _ quote _ => notQuote quote
    · exact notSlash
    · rintro _ rfl
      exact absurd allowed (by decide)
  | escaped visible inLine read =>
    rw [List.cons_append, List.cons_append, longBasicText]
    split
    · rename_i fold
      rw [lineFold?_eq_none visible inLine] at fold
      cases fold
    · split
      · rename_i found
        rw [read] at found
        cases found
        rfl
      · rename_i none
        rw [read] at none
        cases none

private theorem Written.head {c : Char} {cs : List Char} (written : Written c cs)
    (rest : List Char) :
    ∃ first, (cs ++ rest).head? = some first ∧ first ≠ '"' ∧ first ≠ '\n' ∧ first ≠ '\r' := by
  cases written with
  | plain allowed notQuote =>
    refine ⟨c, rfl, notQuote, ?_, ?_⟩
    · rintro rfl
      exact absurd allowed (by decide)
    · rintro rfl
      exact absurd allowed (by decide)
  | escaped => exact ⟨'\\', rfl, by decide⟩

private theorem leading_basicLinesContent {quotes : Nat} (few : quotes ≤ 2) (text : List Char) :
    leading '"' (basicLinesContent quotes text) + quotes ≤ 2 := by
  fun_induction basicLinesContent quotes text with
  | case1 => simpa [leading] using few
  | case2 others =>
    have none : leading '"' ('\\' :: '"' :: basicLinesContent 0 others) = 0 :=
      leading_other (by decide) _
    omega
  | case3 quotes others more ih =>
    rw [leading_quote]
    have := ih (by omega)
    omega
  | case4 =>
    rw [leading_other (by decide)]
    omega
  | case5 quotes c others notQuote notNewline =>
    obtain ⟨first, head, other, _⟩ := (written_escaped notQuote notNewline).head
      (basicLinesContent 0 others)
    rw [leading_outside (by simpa [head] using other)]
    omega

private theorem longBasicText_append {rest : List Char} {quotes : Nat} (few : quotes ≤ 2)
    (text : List Char) (outside : rest.head? ≠ some '"') :
    longBasicText (basicLinesContent quotes text ++ '"' :: '"' :: '"' :: rest) =
      .ok (text, rest) := by
  -- By induction on the writer, which escapes the third quote in a row.
  fun_induction basicLinesContent quotes text with
  | case1 => rw [List.nil_append, longBasicText, closing_outside outside]
  | case2 others ih =>
    have written : Written '"' ['\\', '"'] := written_basicChar '"'
    have onward := longBasicText_written written
      (basicLinesContent 0 others ++ '"' :: '"' :: '"' :: rest)
    rw [ih (by omega)] at onward
    exact onward
  | case3 quotes others more ih =>
    have run := leading_basicLinesContent (show quotes + 1 ≤ 2 by omega) others
    have short : leading '"' (basicLinesContent (quotes + 1) others) ≤ 1 := by omega
    have apart := apart_closing short outside
    rw [List.cons_append, longBasicText_quote apart, ih (by omega)]
    rfl
  | case4 quotes others ih =>
    rw [List.cons_append, longBasicText, if_pos (by decide), ih (by omega)]
    · rfl
    · simp
    · simp
    · simp
  | case5 quotes c others notQuote notNewline ih =>
    rw [List.append_assoc, longBasicText_written (written_escaped notQuote notNewline),
      ih (by omega)]
    rfl

def Style.isMultiline : Style → Bool
  | .basic => false
  | .literal => false
  | .basicLines => true
  | .literalLines => true

/-- What is known of a text for which a style is chosen that writes it as it is. -/
theorem style_cases (text : List Char) :
    style text = .basic ∨ style text = .basicLines ∨
      (∀ c ∈ text, isControl c = false) ∧
        (style text = .literal ∧ longestRun '\'' 0 text = 0 ∧ '\n' ∉ text ∨
          style text = .literalLines ∧ longestRun '\'' 0 text ≤ 2) := by
  generalize chosen : style text = kind
  unfold style at chosen
  dsimp only at chosen
  split at chosen
  · exact .inl chosen.symm
  · split at chosen
    · rename_i plain
      simp only [Bool.and_eq_true, Bool.not_eq_true', List.any_eq_false, Bool.not_eq_true,
        decide_eq_true_eq, List.contains_eq_mem, decide_eq_false_iff_not] at plain
      exact .inr (.inr ⟨plain.1.1, .inl ⟨chosen.symm, plain.1.2, plain.2⟩⟩)
    · split at chosen
      · exact .inr (.inl chosen.symm)
      · split at chosen
        · rename_i plain
          simp only [Bool.and_eq_true, Bool.not_eq_true', List.any_eq_false, Bool.not_eq_true,
            decide_eq_true_eq] at plain
          exact .inr (.inr ⟨plain.1, .inr ⟨chosen.symm, plain.2⟩⟩)
        · split at chosen
          · exact .inr (.inl chosen.symm)
          · exact .inl chosen.symm

private theorem isTextChar_of_not_control {c : Char} (plain : isControl c = false) :
    isTextChar c = true ∨ c = '\n' := by
  simp only [isControl, Bool.or_eq_false_iff, Bool.and_eq_false_iff, decide_eq_false_iff_not,
    beq_eq_false_iff_ne, ne_eq, Decidable.not_not] at plain
  obtain ⟨(printed | rfl) | rfl, notDelete⟩ := plain
  · exact .inl (by simp [isTextChar, Char.not_lt.1 printed, notDelete])
  · exact .inl rfl
  · exact .inr rfl

private theorem not_mem_of_longestRun {quote : Char} {cs : List Char}
    (none : longestRun quote 0 cs = 0) : quote ∉ cs := by
  induction cs with
  | nil => exact List.not_mem_nil
  | cons c others ih =>
    rw [longestRun] at none
    split at none
    · have := leading_le_longestRun quote others (0 + 1)
      omega
    · rename_i other
      rw [List.mem_cons, not_or]
      exact ⟨Ne.symm other, ih (by omega)⟩

theorem tokens_cons {c : Char} {rest after : List Char} {token : Token} {others : List Token}
    (first : firstToken c rest = .ok (token, after)) (read : tokens after = .ok others) :
    tokens (c :: rest) = .ok (token :: others) := by
  rw [tokens]
  split
  · rename_i failed
    rw [first] at failed
    cases failed
  · rename_i found
    rw [first] at found
    cases found
    rw [read]

/-- What may follow a text: no quote that would go on with it. -/
def Closed (rest : List Char) : Prop := rest.head? ≠ some '"' ∧ rest.head? ≠ some '\''

theorem closed_cons {c : Char} (unquoted : c ≠ '"' ∧ c ≠ '\'') (rest : List Char) :
    Closed (c :: rest) :=
  ⟨by simpa using unquoted.1, by simpa using unquoted.2⟩

private theorem skipLineEnd_opening {text content : List Char}
    (inLine : '\n' ∉ text → content.head? ≠ some '\n' ∧ content.head? ≠ some '\r') :
    skipLineEnd ((if text.contains '\n' then ['\n'] else []) ++ content) = content := by
  by_cases newline : '\n' ∈ text
  · rw [if_pos (by simpa using newline)]
    rfl
  · obtain ⟨notNewline, notReturn⟩ := inLine newline
    rw [if_neg (by simpa using newline), List.nil_append]
    unfold skipLineEnd
    split
    · exact absurd rfl notNewline
    · exact absurd rfl notReturn
    · rfl

section Styles

variable {rest : List Char} (closed : Closed rest)
include closed

private theorem firstToken_basic (text : List Char) :
    firstToken '"' (text.flatMap basicChar ++ '"' :: rest) =
      .ok (.text (String.ofList text) false, rest) := by
  rw [firstToken, basicText_flatMap]
  · rfl
  · intro after same
    cases text with
    | nil => exact closed.1 (by rw [(List.cons.inj same).2]; rfl)
    | cons c others =>
      rw [List.flatMap_cons, List.append_assoc] at same
      obtain ⟨first, head, other, _⟩ := (written_basicChar c).head
        (others.flatMap basicChar ++ '"' :: rest)
      rw [same] at head
      exact other (Option.some.inj head).symm

private theorem firstToken_literal {text : List Char} (plain : ∀ c ∈ text, isControl c = false)
    (unquoted : longestRun '\'' 0 text = 0) (inLine : '\n' ∉ text) :
    firstToken '\'' (text ++ '\'' :: rest) = .ok (.text (String.ofList text) false, rest) := by
  have absent := not_mem_of_longestRun unquoted
  rw [firstToken, literalText_append _ absent]
  · rfl
  · intro c member
    exact (isTextChar_of_not_control (plain c member)).resolve_right
      fun newline => inLine (newline ▸ member)
  · intro after same
    cases text with
    | nil => exact closed.2 (by rw [(List.cons.inj same).2]; rfl)
    | cons c others => exact absent (by rw [(List.cons.inj same).1]; exact List.mem_cons_self ..)

private theorem firstToken_basicLines (text : List Char) :
    firstToken '"' ('"' :: '"' :: ((if text.contains '\n' then ['\n'] else []) ++
      (basicLinesContent 0 text ++ '"' :: '"' :: '"' :: rest))) =
      .ok (.text (String.ofList text) true, rest) := by
  rw [firstToken, skipLineEnd_opening, longBasicText_append (by decide) text closed.1]
  · rfl
  · intro inLine
    cases text with
    | nil => exact ⟨nofun, nofun⟩
    | cons c others =>
      by_cases quote : c = '"'
      · rw [quote]
        exact ⟨nofun, nofun⟩
      · rw [List.mem_cons, not_or] at inLine
        rw [basicLinesContent, List.append_assoc]
        · obtain ⟨first, head, _, other, otherToo⟩ :=
            (written_escaped quote (Ne.symm inLine.1)).head
              (basicLinesContent 0 others ++ '"' :: '"' :: '"' :: rest)
          rw [head]
          exact ⟨by simpa using other, by simpa using otherToo⟩
        · exact quote
        · exact Ne.symm inLine.1

private theorem firstToken_literalLines {text : List Char} (plain : ∀ c ∈ text, isControl c = false)
    (short : longestRun '\'' 0 text ≤ 2) :
    firstToken '\'' ('\'' :: '\'' :: ((if text.contains '\n' then ['\n'] else []) ++
      (text ++ '\'' :: '\'' :: '\'' :: rest))) =
      .ok (.text (String.ofList text) true, rest) := by
  have allowed := fun c member => isTextChar_of_not_control (plain c member)
  rw [firstToken, skipLineEnd_opening, longLiteralText_append allowed short closed.2]
  · rfl
  · intro inLine
    cases text with
    | nil => exact ⟨nofun, nofun⟩
    | cons c others =>
      rw [List.cons_append, List.head?_cons]
      refine ⟨fun newline => ?_, fun carriageReturn => ?_⟩
      · exact inLine (by rw [Option.some.inj newline]; exact List.mem_cons_self ..)
      · have control := plain c (List.mem_cons_self ..)
        rw [Option.some.inj carriageReturn] at control
        exact absurd control (by decide)

end Styles

/-- Any text, in the style that is chosen for it, is one token again. -/
theorem tokens_styled {text rest : List Char} {others : List Token} (closed : Closed rest)
    (read : tokens rest = .ok others) :
    tokens (styled text (style text) ++ rest) =
      .ok (.text (String.ofList text) (style text).isMultiline :: others) := by
  rcases style_cases text with
    chosen | chosen | ⟨plain, ⟨chosen, unquoted, inLine⟩ | ⟨chosen, short⟩⟩
  · have first := firstToken_basic closed text
    rw [chosen]
    simpa [styled, Style.isMultiline] using tokens_cons first read
  · have first := firstToken_basicLines closed text
    rw [chosen]
    simpa [styled, opening, Style.isMultiline] using tokens_cons first read
  · have first := firstToken_literal closed plain unquoted inLine
    rw [chosen]
    simpa [styled, Style.isMultiline] using tokens_cons first read
  · have first := firstToken_literalLines closed plain short
    rw [chosen]
    simpa [styled, opening, Style.isMultiline] using tokens_cons first read

end BundlePlan.Toml
