import BundlePlan.Proofs.Runs
import BundlePlan.Toml.Scalar

/-! The grammar of JSON, and what the texts in it stand for. No text stands for two values, so that
all who go by the grammar read the same. -/
namespace BundlePlan.Json

open Text (run_unique)

/-- Numbers keep their spelling, and objects their members in order. -/
inductive Value
  | null
  | boolean (value : Bool)
  | number (spelling : List Char)
  | string (text : String)
  | array (elements : List Value)
  | object (members : List (String × Value))

def isBlank (c : Char) : Bool := c == ' ' || c == '\t' || c == '\n' || c == '\r'

def Blank (cs : List Char) : Prop := ∀ c ∈ cs, isBlank c = true

instance : DecidablePred Blank := fun cs =>
  decidable_of_iff (cs.all isBlank = true) List.all_eq_true

/-- What the letter after a backslash stands for. -/
def shortEscapes : List (Char × Char) :=
  [('"', '"'), ('\\', '\\'), ('/', '/'), ('b', '\x08'), ('f', '\x0c'), ('n', '\n'), ('r', '\r'),
    ('t', '\t')]

/-- Four hexadecimal digits with this value. -/
structure CodeUnit (digits : List Char) (code : Nat) : Prop where
  four : digits.length = 4
  hexadecimal : ∀ digit ∈ digits, Toml.isHexDigit digit = true
  valued : Toml.positional 16 digits = code

/-- What may follow a backslash, and the character that is meant. A character beyond the first plane
takes two numbers, a high and a low surrogate, and a surrogate alone means none. -/
inductive Escape : List Char → Char → Prop
  | short (letter c : Char) (listed : (letter, c) ∈ shortEscapes) : Escape [letter] c
  | numbered (digits : List Char) (c : Char) (unit : CodeUnit digits c.toNat) :
      Escape ('u' :: digits) c
  | pair (first second : List Char) (high low : Nat) (c : Char)
      (leads : CodeUnit first (0xd800 + high)) (trails : CodeUnit second (0xdc00 + low))
      (highest : high < 0x400) (lowest : low < 0x400)
      (sum : c.toNat = 0x10000 + high * 0x400 + low) :
      Escape ('u' :: (first ++ '\\' :: 'u' :: second)) c

/-- How one character may be spelled between quotes. -/
inductive Spells : List Char → Char → Prop
  | plain (c : Char) (printed : ' ' ≤ c) (notQuote : c ≠ '"') (notSlash : c ≠ '\\') : Spells [c] c
  | escaped {cs : List Char} {c : Char} (escape : Escape cs c) : Spells ('\\' :: cs) c

inductive Spelled : List Char → List Char → Prop
  | nil : Spelled [] []
  | cons {here rest text : List Char} {c : Char} (first : Spells here c)
      (others : Spelled rest text) : Spelled (here ++ rest) (c :: text)

def Quoted (cs : List Char) (text : String) : Prop :=
  ∃ inside, Spelled inside text.toList ∧ cs = '"' :: inside ++ ['"']

def Digits (cs : List Char) : Prop := cs ≠ [] ∧ ∀ c ∈ cs, c.isDigit = true

/-- A number has no leading zero, and digits on both sides of a point. -/
def Number (cs : List Char) : Prop :=
  ∃ sign ∈ [[], ['-']], ∃ whole fraction exponent, cs = sign ++ (whole ++ (fraction ++ exponent)) ∧
    Digits whole ∧ (whole.head? = some '0' → whole = ['0']) ∧
    (fraction = [] ∨ ∃ digits, Digits digits ∧ fraction = '.' :: digits) ∧
    (exponent = [] ∨ ∃ mark ∈ ['e', 'E'], ∃ sign ∈ [[], ['+'], ['-']], ∃ digits, Digits digits ∧
      exponent = mark :: (sign ++ digits))

inductive Scalar : List Char → Value → Prop
  | null : Scalar ['n', 'u', 'l', 'l'] .null
  | yes : Scalar ['t', 'r', 'u', 'e'] (.boolean true)
  | no : Scalar ['f', 'a', 'l', 's', 'e'] (.boolean false)
  | number {cs : List Char} (spelled : Number cs) : Scalar cs (.number cs)

inductive Bracket
  | square
  | curly

namespace Bracket

def opening : Bracket → Char
  | square => '['
  | curly => '\x7b'

def closing : Bracket → Char
  | square => ']'
  | curly => '\x7d'

/-- What stands between commas inside the brackets. -/
abbrev Element : Bracket → Type
  | square => Value
  | curly => String × Value

def value : (bracket : Bracket) → List bracket.Element → Value
  | square => .array
  | curly => .object

end Bracket

inductive Phrase
  | value
  | element (bracket : Bracket)
  /-- One element after another, with the closing bracket. -/
  | elements (bracket : Bracket)

abbrev Phrase.Meaning : Phrase → Type
  | value => Value
  | element bracket => bracket.Element
  | elements bracket => List bracket.Element

/-- The texts of each kind of phrase, with what they stand for. -/
inductive Derives : (phrase : Phrase) → List Char → phrase.Meaning → Prop
  | text {cs : List Char} {text : String} (quoted : Quoted cs text) :
      Derives .value cs (.string text)
  | scalar {cs : List Char} {value : Value} (scalar : Scalar cs value) : Derives .value cs value
  | empty (bracket : Bracket) {inside : List Char} (blank : Blank inside) :
      Derives .value (bracket.opening :: inside ++ [bracket.closing]) (bracket.value [])
  | bracketed (bracket : Bracket) {before cs : List Char} {elements : List bracket.Element}
      (blank : Blank before) (inside : Derives (.elements bracket) cs elements) :
      Derives .value (bracket.opening :: before ++ cs) (bracket.value elements)
  | item {cs : List Char} {value : Value} (item : Derives .value cs value) :
      Derives (.element .square) cs value
  | member {name before after cs : List Char} {key : String} {value : Value}
      (named : Quoted name key) (blank : Blank before) (blankToo : Blank after)
      (content : Derives .value cs value) :
      Derives (.element .curly) (name ++ (before ++ ':' :: (after ++ cs))) (key, value)
  | last {bracket : Bracket} {cs after : List Char} {element : bracket.Element}
      (first : Derives (.element bracket) cs element) (blank : Blank after) :
      Derives (.elements bracket) (cs ++ (after ++ [bracket.closing])) [element]
  | more {bracket : Bracket} {cs before after rest : List Char} {element : bracket.Element}
      {others : List bracket.Element} (first : Derives (.element bracket) cs element)
      (blank : Blank before) (blankToo : Blank after)
      (further : Derives (.elements bracket) rest others) :
      Derives (.elements bracket) (cs ++ (before ++ ',' :: (after ++ rest))) (element :: others)

/-- A whole document: a value, with blanks on both sides. -/
def Denotes (document : List Char) (value : Value) : Prop :=
  ∃ before cs after, Blank before ∧ Blank after ∧ Derives .value cs value ∧
    document = before ++ (cs ++ after)

def isNumberChar (c : Char) : Bool := c.isDigit || ['+', '-', '.', 'e', 'E'].contains c

def isWordChar (c : Char) : Bool := c.isAlphanum || ['+', '-', '.'].contains c

/-- What a literal or a number can be followed by: it could not have been longer. -/
def Bounded (rest : List Char) : Prop := ∀ c ∈ rest.head?, isWordChar c = false

section Prefixes

variable {cs cs' rest rest' : List Char} {c c' : Char}

theorem head_unique (first : cs.head? = some c) (second : cs'.head? = some c')
    (same : cs ++ rest = cs' ++ rest') : c = c' := by
  have heads := congrArg List.head? same
  rw [List.head?_append, List.head?_append, first, second] at heads
  exact Option.some.inj heads

theorem blank_unique (blank : Blank cs) (blank' : Blank cs') (mark : isBlank c = false)
    (mark' : isBlank c' = false) (same : cs ++ c :: rest = cs' ++ c' :: rest') :
    cs = cs' ∧ c = c' ∧ rest = rest' := by
  have stop : ∀ x ∈ (c :: rest).head?, isBlank x = false := by simpa using mark
  have stop' : ∀ x ∈ (c' :: rest').head?, isBlank x = false := by simpa using mark'
  obtain ⟨blanks, others⟩ := run_unique blank blank' stop stop' same
  exact ⟨blanks, List.cons.inj others⟩

end Prefixes

theorem CodeUnit.unique {digits digits' rest rest' : List Char} {code code' : Nat}
    (first : CodeUnit digits code) (second : CodeUnit digits' code')
    (same : digits ++ rest = digits' ++ rest') :
    digits = digits' ∧ code = code' ∧ rest = rest' := by
  obtain ⟨rfl, others⟩ := List.append_inj same (first.four.trans second.four.symm)
  exact ⟨rfl, first.valued.symm.trans second.valued, others⟩

private theorem not_surrogate (c : Char) {high : Nat} (highest : high < 0x400) :
    c.toNat ≠ 0xd800 + high := by
  have valid : c.toNat.isValidChar := c.valid
  unfold Nat.isValidChar at valid
  omega

theorem shortEscapes_unique : ∀ escape ∈ shortEscapes, ∀ other ∈ shortEscapes,
    escape.1 = other.1 → escape.2 = other.2 := by decide

private theorem shortEscapes_not_numbered : ∀ escape ∈ shortEscapes, escape.1 ≠ 'u' := by decide

theorem Escape.unique {cs cs' rest rest' : List Char} {c c' : Char} (first : Escape cs c)
    (second : Escape cs' c') (same : cs ++ rest = cs' ++ rest') :
    cs = cs' ∧ c = c' ∧ rest = rest' := by
  cases first with
  | short letter _ listed =>
    cases second with
    | short letter' _ listed' =>
      simp only [List.cons_append, List.nil_append, List.cons.injEq] at same
      obtain ⟨rfl, others⟩ := same
      exact ⟨rfl, shortEscapes_unique _ listed _ listed' rfl, others⟩
    | numbered => exact absurd (List.cons.inj same).1 (shortEscapes_not_numbered _ listed)
    | pair => exact absurd (List.cons.inj same).1 (shortEscapes_not_numbered _ listed)
  | numbered digits _ unit =>
    cases second with
    | short _ _ listed' =>
      exact absurd (List.cons.inj same).1.symm (shortEscapes_not_numbered _ listed')
    | numbered digits' _ unit' =>
      obtain ⟨rfl, code, others⟩ := unit.unique unit' (List.cons.inj same).2
      exact ⟨rfl, Char.toNat_inj.1 code, others⟩
    | pair _ _ _ _ _ leads' _ highest' =>
      simp only [List.cons_append, List.append_assoc, List.cons.injEq, true_and] at same
      exact absurd (unit.unique leads' same).2.1 (not_surrogate c highest')
  | pair _ _ high low _ leads trails highest lowest sum =>
    cases second with
    | short _ _ listed' =>
      exact absurd (List.cons.inj same).1.symm (shortEscapes_not_numbered _ listed')
    | numbered _ _ unit' =>
      simp only [List.cons_append, List.append_assoc, List.cons.injEq, true_and] at same
      exact absurd (unit'.unique leads same.symm).2.1 (not_surrogate c' highest)
    | pair _ _ high' low' _ leads' trails' _ _ sum' =>
      simp only [List.cons_append, List.append_assoc, List.cons.injEq, true_and] at same
      obtain ⟨rfl, highs, others⟩ := leads.unique leads' same
      simp only [List.cons.injEq, true_and] at others
      obtain ⟨rfl, lows, onward⟩ := trails.unique trails' others
      exact ⟨rfl, Char.toNat_inj.1 (by omega), onward⟩

private theorem Spells.ne_quote {cs rest rest' : List Char} {c : Char} (spells : Spells cs c) :
    cs ++ rest ≠ '"' :: rest' := by
  intro same
  cases spells with
  | plain _ _ notQuote _ => exact notQuote (List.cons.inj same).1
  | escaped => cases same

theorem Spells.unique {cs cs' rest rest' : List Char} {c c' : Char} (first : Spells cs c)
    (second : Spells cs' c') (same : cs ++ rest = cs' ++ rest') :
    cs = cs' ∧ c = c' ∧ rest = rest' := by
  cases first with
  | plain _ _ _ notSlash =>
    cases second with
    | plain => simpa using same
    | escaped => exact absurd (List.cons.inj same).1 notSlash
  | escaped escape =>
    cases second with
    | plain _ _ _ notSlash' => exact absurd (List.cons.inj same).1.symm notSlash'
    | escaped escape' =>
      obtain ⟨rfl, rfl, others⟩ := escape.unique escape' (List.cons.inj same).2
      exact ⟨rfl, rfl, others⟩

theorem Spelled.unique {cs cs' text text' rest rest' : List Char} (first : Spelled cs text)
    (second : Spelled cs' text') (same : cs ++ '"' :: rest = cs' ++ '"' :: rest') :
    cs = cs' ∧ text = text' ∧ rest = rest' := by
  induction first generalizing cs' text' with
  | nil =>
    cases second with
    | nil => simpa using same
    | cons spells' _ =>
      rw [List.nil_append, List.append_assoc] at same
      exact absurd same.symm spells'.ne_quote
  | cons spells _ ih =>
    cases second with
    | nil =>
      rw [List.nil_append, List.append_assoc] at same
      exact absurd same spells.ne_quote
    | cons spells' others' =>
      rw [List.append_assoc, List.append_assoc] at same
      obtain ⟨rfl, rfl, onward⟩ := spells.unique spells' same
      obtain ⟨rfl, rfl, after⟩ := ih others' onward
      exact ⟨rfl, rfl, after⟩

private theorem Quoted.head {cs : List Char} {text : String} (quoted : Quoted cs text) :
    cs.head? = some '"' := by
  obtain ⟨inside, _, rfl⟩ := quoted
  rfl

theorem Quoted.unique {cs cs' rest rest' : List Char} {text text' : String}
    (first : Quoted cs text) (second : Quoted cs' text') (same : cs ++ rest = cs' ++ rest') :
    cs = cs' ∧ text = text' ∧ rest = rest' := by
  obtain ⟨inside, spelled, rfl⟩ := first
  obtain ⟨inside', spelled', rfl⟩ := second
  simp only [List.cons_append, List.append_assoc, List.nil_append, List.cons.injEq,
    true_and] at same
  obtain ⟨rfl, texts, others⟩ := spelled.unique spelled' same
  exact ⟨rfl, String.toList_inj.1 texts, others⟩

private theorem Digits.chars {cs : List Char} (digits : Digits cs) :
    ∀ c ∈ cs, isNumberChar c = true := by
  intro c member
  rw [isNumberChar, digits.2 c member, Bool.true_or]

private theorem Number.chars {cs : List Char} (number : Number cs) :
    cs ≠ [] ∧ ∀ c ∈ cs, isNumberChar c = true := by
  obtain ⟨sign, signs, whole, fraction, exponent, rfl, digits, _, fractional, exponential⟩ := number
  have signChars : ∀ c ∈ sign, isNumberChar c = true := by
    simp only [List.mem_cons, List.not_mem_nil, or_false] at signs
    rcases signs with rfl | rfl <;> exact List.all_eq_true.1 rfl
  have fractionChars : ∀ c ∈ fraction, isNumberChar c = true := by
    rcases fractional with rfl | ⟨more, others, rfl⟩
    · nofun
    · exact List.forall_mem_cons.2 ⟨by decide, others.chars⟩
  have exponentChars : ∀ c ∈ exponent, isNumberChar c = true := by
    rcases exponential with rfl | ⟨mark, marks, sign', signs', more, others, rfl⟩
    · nofun
    · refine List.forall_mem_cons.2 ⟨?_, List.forall_mem_append.2 ⟨?_, others.chars⟩⟩
      · simp only [List.mem_cons, List.not_mem_nil, or_false] at marks
        rcases marks with rfl | rfl <;> rfl
      · simp only [List.mem_cons, List.not_mem_nil, or_false] at signs'
        rcases signs' with rfl | rfl | rfl <;> exact List.all_eq_true.1 rfl
  refine ⟨?_, ?_⟩
  · simp [digits.1]
  · simp only [List.forall_mem_append]
    exact ⟨signChars, digits.chars, fractionChars, exponentChars⟩

private theorem isWordChar_of_isNumberChar {c : Char} (char : isNumberChar c = true) :
    isWordChar c = true := by
  unfold isNumberChar at char
  rw [Bool.or_eq_true] at char
  rcases char with digit | listed
  · simp only [isWordChar, Char.isAlphanum, digit, Bool.or_true, Bool.true_or]
  · simp only [List.contains_cons, List.contains_nil, Bool.or_eq_true, beq_iff_eq, Bool.or_false]
      at listed
    rcases listed with rfl | rfl | rfl | rfl | rfl <;> rfl

private theorem Scalar.word {cs : List Char} {value : Value} (scalar : Scalar cs value) :
    cs ≠ [] ∧ ∀ c ∈ cs, isWordChar c = true := by
  cases scalar with
  | null => exact ⟨by decide, List.all_eq_true.1 rfl⟩
  | yes => exact ⟨by decide, List.all_eq_true.1 rfl⟩
  | no => exact ⟨by decide, List.all_eq_true.1 rfl⟩
  | number spelled =>
    refine ⟨spelled.chars.1, fun c member => ?_⟩
    exact isWordChar_of_isNumberChar (spelled.chars.2 c member)

theorem Scalar.unique {cs : List Char} {value value' : Value} (first : Scalar cs value)
    (second : Scalar cs value') : value = value' := by
  have noNumber : ∀ {c : Char}, isNumberChar c = false → c ∈ cs → ¬ Number cs :=
    fun letter member number => by simp [number.chars.2 _ member] at letter
  cases first with
  | null =>
    cases second with
    | null => rfl
    | number spelled => exact absurd spelled (noNumber (c := 'n') rfl (by decide))
  | yes =>
    cases second with
    | yes => rfl
    | number spelled => exact absurd spelled (noNumber (c := 't') rfl (by decide))
  | no =>
    cases second with
    | no => rfl
    | number spelled => exact absurd spelled (noNumber (c := 'f') rfl (by decide))
  | number spelled =>
    cases second with
    | null => exact absurd spelled (noNumber (c := 'n') rfl (by decide))
    | yes => exact absurd spelled (noNumber (c := 't') rfl (by decide))
    | no => exact absurd spelled (noNumber (c := 'f') rfl (by decide))
    | number => rfl

private theorem Scalar.head {cs : List Char} {value : Value} (scalar : Scalar cs value) :
    ∃ c, cs.head? = some c ∧ isWordChar c = true := by
  obtain ⟨nonempty, word⟩ := scalar.word
  obtain ⟨c, rest, rfl⟩ := List.exists_cons_of_ne_nil nonempty
  exact ⟨c, rfl, word c (List.mem_cons_self ..)⟩

theorem Bracket.opening_injective : ∀ {bracket bracket' : Bracket},
    bracket.opening = bracket'.opening → bracket = bracket'
  | .square, .square, _ => rfl
  | .curly, .curly, _ => rfl

def isBeginning (c : Char) : Bool := isWordChar c || c == '"' || c == '[' || c == '\x7b'

private theorem Bracket.closing_marks (bracket : Bracket) : isBeginning bracket.closing = false ∧
    isBlank bracket.closing = false ∧ isWordChar bracket.closing = false ∧
    bracket.closing ≠ ',' := by
  cases bracket <;> decide

private theorem Bracket.opening_marks (bracket : Bracket) :
    isWordChar bracket.opening = false ∧ bracket.opening ≠ '"' := by
  cases bracket <;> decide

private theorem isBlank_cases {c : Char} (blank : isBlank c = true) :
    isBeginning c = false ∧ isWordChar c = false := by
  simp only [isBlank, Bool.or_eq_true, beq_iff_eq] at blank
  rcases blank with ((rfl | rfl) | rfl) | rfl <;> decide

private theorem bounded_of_blank {blanks : List Char} (blank : Blank blanks) : Bounded blanks :=
  fun c first => (isBlank_cases (blank c (List.mem_of_mem_head? first))).2

private theorem bounded_blank {blanks rest : List Char} {c : Char} (blank : Blank blanks)
    (mark : isWordChar c = false) : Bounded (blanks ++ c :: rest) := by
  cases blanks with
  | nil => simpa [Bounded] using mark
  | cons first others => simpa [Bounded] using (isBlank_cases (blank first (by simp))).2

private theorem Derives.head {phrase : Phrase} {cs : List Char} {meaning : phrase.Meaning}
    (derives : Derives phrase cs meaning) : ∃ c, cs.head? = some c ∧ isBeginning c = true := by
  induction derives with
  | text quoted => exact ⟨'"', quoted.head, rfl⟩
  | scalar scalar =>
    obtain ⟨c, head, word⟩ := scalar.head
    exact ⟨c, head, by simp [isBeginning, word]⟩
  | empty bracket => exact ⟨bracket.opening, rfl, by cases bracket <;> rfl⟩
  | bracketed bracket => exact ⟨bracket.opening, rfl, by cases bracket <;> rfl⟩
  | item _ ih => exact ih
  | member named => exact ⟨'"', by simp [named.head], rfl⟩
  | last _ _ ih =>
    obtain ⟨c, head, beginning⟩ := ih
    exact ⟨c, by simp [head], beginning⟩
  | more _ _ _ _ ih =>
    obtain ⟨c, head, beginning⟩ := ih
    exact ⟨c, by simp [head], beginning⟩

private theorem Derives.not_blank {phrase : Phrase} {cs : List Char} {meaning : phrase.Meaning}
    (derives : Derives phrase cs meaning) (rest : List Char) :
    ∀ c ∈ (cs ++ rest).head?, isBlank c = false := by
  obtain ⟨first, head, beginning⟩ := derives.head
  rw [List.head?_append, head]
  intro c same
  obtain rfl := Option.some.inj same
  by_contra blank
  rw [Bool.not_eq_false] at blank
  rw [(isBlank_cases blank).1] at beginning
  cases beginning

/-- Brackets with nothing between them cannot have elements between them. -/
theorem Derives.not_empty {bracket : Bracket} {inside before cs rest rest' : List Char}
    {elements : List bracket.Element} (derives : Derives (.elements bracket) cs elements)
    (blank : Blank inside) (blankToo : Blank before) :
    inside ++ bracket.closing :: rest ≠ before ++ (cs ++ rest') := by
  intro same
  have marks := bracket.closing_marks
  obtain ⟨c, head, beginning⟩ := derives.head
  have stop : ∀ x ∈ (bracket.closing :: rest).head?, isBlank x = false := by simpa using marks.2.1
  have onward := (run_unique blank blankToo stop (derives.not_blank rest') same).2
  have closed : [bracket.closing].head? = some bracket.closing := rfl
  rw [← head_unique closed head onward, marks.1] at beginning
  cases beginning

section Beginnings

variable {cs cs' rest rest' : List Char}

private theorem Quoted.ne_word {text : String} {value : Value} (quoted : Quoted cs text)
    (scalar : Scalar cs' value) : cs ++ rest ≠ cs' ++ rest' := by
  intro same
  obtain ⟨c, head, word⟩ := scalar.head
  rw [← head_unique quoted.head head same] at word
  cases word

private theorem Quoted.ne_bracket {text : String} (quoted : Quoted cs text) (bracket : Bracket) :
    cs ++ rest ≠ bracket.opening :: rest' := by
  intro same
  have opened : [bracket.opening].head? = some bracket.opening := rfl
  exact bracket.opening_marks.2 (head_unique quoted.head opened same).symm

private theorem Scalar.ne_bracket {value : Value} (scalar : Scalar cs value) (bracket : Bracket) :
    cs ++ rest ≠ bracket.opening :: rest' := by
  intro same
  obtain ⟨c, head, word⟩ := scalar.head
  have opened : [bracket.opening].head? = some bracket.opening := rfl
  rw [head_unique head opened same, bracket.opening_marks.1] at word
  cases word

end Beginnings

/-- A text begins with at most one phrase of a kind, if what follows does not go on a word, and that
phrase stands for one thing. -/
theorem Derives.unique {phrase : Phrase} {cs cs' rest rest' : List Char}
    {meaning meaning' : phrase.Meaning} (first : Derives phrase cs meaning)
    (second : Derives phrase cs' meaning') (bounded : Bounded rest) (bounded' : Bounded rest')
    (same : cs ++ rest = cs' ++ rest') : cs = cs' ∧ meaning = meaning' ∧ rest = rest' := by
  -- By induction on the first derivation. The second one has the same shape, because phrases of
  -- another shape begin with other characters or go on with another one after the blanks.
  induction first generalizing cs' rest rest' with
  | text quoted =>
    cases second with
    | text quoted' =>
      obtain ⟨rfl, rfl, others⟩ := quoted.unique quoted' same
      exact ⟨rfl, rfl, others⟩
    | scalar scalar' => exact absurd same (quoted.ne_word scalar')
    | empty bracket' => exact absurd same (quoted.ne_bracket bracket')
    | bracketed bracket' => exact absurd same (quoted.ne_bracket bracket')
  | scalar scalar =>
    cases second with
    | text quoted' => exact absurd same.symm (quoted'.ne_word scalar)
    | scalar scalar' =>
      obtain ⟨rfl, others⟩ := run_unique scalar.word.2 scalar'.word.2 bounded bounded' same
      exact ⟨rfl, scalar.unique scalar', others⟩
    | empty bracket' => exact absurd same (scalar.ne_bracket bracket')
    | bracketed bracket' => exact absurd same (scalar.ne_bracket bracket')
  | empty bracket blank =>
    cases second with
    | text quoted' => exact absurd same.symm (quoted'.ne_bracket bracket)
    | scalar scalar' => exact absurd same.symm (scalar'.ne_bracket bracket)
    | empty bracket' blank' =>
      obtain rfl := Bracket.opening_injective (head_unique rfl rfl same)
      simp only [List.cons_append, List.append_assoc, List.cons.injEq, true_and] at same
      have mark := bracket.closing_marks.2.1
      obtain ⟨rfl, _, others⟩ := blank_unique blank blank' mark mark same
      exact ⟨rfl, rfl, others⟩
    | bracketed bracket' blank' inside' =>
      obtain rfl := Bracket.opening_injective (head_unique rfl rfl same)
      simp only [List.cons_append, List.append_assoc, List.cons.injEq, true_and] at same
      exact absurd same (inside'.not_empty blank blank')
  | bracketed bracket blank inside ih =>
    cases second with
    | text quoted' => exact absurd same.symm (quoted'.ne_bracket bracket)
    | scalar scalar' => exact absurd same.symm (scalar'.ne_bracket bracket)
    | empty bracket' blank' =>
      obtain rfl := Bracket.opening_injective (head_unique rfl rfl same)
      simp only [List.cons_append, List.append_assoc, List.cons.injEq, true_and] at same
      exact absurd same.symm (inside.not_empty blank' blank)
    | bracketed bracket' blank' inside' =>
      obtain rfl := Bracket.opening_injective (head_unique rfl rfl same)
      simp only [List.cons_append, List.append_assoc, List.cons.injEq, true_and] at same
      obtain ⟨rfl, onward⟩ := run_unique blank blank' (inside.not_blank _)
        (inside'.not_blank _) same
      obtain ⟨rfl, rfl, others⟩ := ih inside' bounded bounded' onward
      exact ⟨rfl, rfl, others⟩
  | item _ ih =>
    cases second with
    | item value' => exact ih value' bounded bounded' same
  | member named blank blankToo content ih =>
    cases second with
    | member named' blank' blankToo' content' =>
      simp only [List.append_assoc, List.cons_append] at same
      obtain ⟨rfl, rfl, onward⟩ := named.unique named' same
      obtain ⟨rfl, _, further⟩ := blank_unique blank blank' (by decide) (by decide) onward
      obtain ⟨rfl, last⟩ := run_unique blankToo blankToo' (content.not_blank _)
        (content'.not_blank _) further
      obtain ⟨rfl, rfl, others⟩ := ih content' bounded bounded' last
      exact ⟨rfl, rfl, others⟩
  | @last bracket _ _ _ first blank ih =>
    obtain ⟨_, mark, ended, notComma⟩ := bracket.closing_marks
    cases second with
    | last first' blank' =>
      simp only [List.append_assoc, List.cons_append, List.nil_append] at same
      obtain ⟨rfl, rfl, onward⟩ := ih first' (bounded_blank blank ended)
        (bounded_blank blank' ended) same
      obtain ⟨rfl, _, others⟩ := blank_unique blank blank' mark mark onward
      exact ⟨rfl, rfl, others⟩
    | more first' blank' blankToo' further' =>
      simp only [List.append_assoc, List.cons_append, List.nil_append] at same
      obtain ⟨_, _, onward⟩ := ih first' (bounded_blank blank ended)
        (bounded_blank blank' (by decide)) same
      exact absurd (blank_unique blank blank' mark (by decide) onward).2.1 notComma
  | @more bracket _ _ _ _ _ _ first blank blankToo further ih ihToo =>
    obtain ⟨_, mark, ended, notComma⟩ := bracket.closing_marks
    cases second with
    | last first' blank' =>
      simp only [List.append_assoc, List.cons_append, List.nil_append] at same
      obtain ⟨_, _, onward⟩ := ih first' (bounded_blank blank (by decide))
        (bounded_blank blank' ended) same
      exact absurd (blank_unique blank blank' (by decide) mark onward).2.1.symm notComma
    | more first' blank' blankToo' further' =>
      simp only [List.append_assoc, List.cons_append] at same
      obtain ⟨rfl, rfl, onward⟩ := ih first' (bounded_blank blank (by decide))
        (bounded_blank blank' (by decide)) same
      obtain ⟨rfl, _, beyond⟩ := blank_unique blank blank' (by decide) (by decide) onward
      obtain ⟨rfl, last⟩ := run_unique blankToo blankToo' (further.not_blank _)
        (further'.not_blank _) beyond
      obtain ⟨rfl, rfl, others⟩ := ihToo further' bounded bounded' last
      exact ⟨rfl, rfl, others⟩

theorem Denotes.unique {document : List Char} {value value' : Value}
    (first : Denotes document value) (second : Denotes document value') : value = value' := by
  obtain ⟨before, cs, after, blank, blankToo, derives, rfl⟩ := first
  obtain ⟨before', cs', after', blank', blankToo', derives', same⟩ := second
  obtain ⟨_, onward⟩ := run_unique blank blank' (derives.not_blank after)
    (derives'.not_blank after') same
  exact (derives.unique derives' (bounded_of_blank blankToo) (bounded_of_blank blankToo')
    onward).2.1

theorem Derives.denotes {cs after : List Char} {value : Value} (derives : Derives .value cs value)
    (blank : Blank after) : Denotes (cs ++ after) value :=
  ⟨[], cs, after, List.forall_mem_nil _, blank, derives, rfl⟩

end BundlePlan.Json
