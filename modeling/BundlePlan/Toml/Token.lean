import BundlePlan.Toml.Scalar

/-! A document as a list of tokens. The four kinds of quoted text are decoded here; what a bare
word means depends on where it stands and is left to the reader of the tokens. -/
namespace BundlePlan.Toml

inductive Token
  | dot
  | equals
  | comma
  | openBracket
  | closeBracket
  | openBrace
  | closeBrace
  | newline
  | comment
  | blank (run : List Char)
  | text (content : String) (multiline : Bool)
  | word (chars : List Char)
deriving DecidableEq

def isBlank (c : Char) : Bool := c == ' ' || c == '\t'

/-- Everything but controls; a tab may stand in texts and comments. -/
def isTextChar (c : Char) : Bool := c == '\t' || (' ' ≤ c && c ≠ '\x7f')

/-- What goes on a word once it has begun; a quote begins a text only elsewhere. -/
def isWordChar (c : Char) : Bool :=
  !(['.', '=', ',', '[', ']', '\x7b', '\x7d', '#', ' ', '\t', '\r', '\n'].contains c)

def numbered (count : Nat) (cs : List Char) : Option (Char × List Char) :=
  let digits := cs.take count
  let code := positional 16 digits
  if digits.length = count ∧ digits.all isHexDigit ∧ code.isValidChar then
    some (Char.ofNat code, cs.drop count)
  else none

/-- What follows a backslash, blank line ends apart. -/
def escape? (cs : List Char) : Option (Char × List Char) :=
  match cs with
  | 'b' :: rest => some ('\x08', rest)
  | 't' :: rest => some ('\t', rest)
  | 'n' :: rest => some ('\n', rest)
  | 'f' :: rest => some ('\x0c', rest)
  | 'r' :: rest => some ('\r', rest)
  | 'e' :: rest => some ('\x1b', rest)
  | '"' :: rest => some ('"', rest)
  | '\\' :: rest => some ('\\', rest)
  | 'x' :: rest => numbered 2 rest
  | 'u' :: rest => numbered 4 rest
  | 'U' :: rest => numbered 8 rest
  | _ => none

theorem numbered_shorter {count : Nat} {cs rest : List Char} {c : Char}
    (read : numbered count cs = some (c, rest)) : rest.length ≤ cs.length := by
  simp only [numbered] at read
  split at read
  · cases read; simp
  · contradiction

theorem escape?_shorter {cs rest : List Char} {c : Char}
    (read : escape? cs = some (c, rest)) : rest.length < cs.length := by
  unfold escape? at read
  split at read <;>
    first
    | contradiction
    | (cases read; simp)
    | exact Nat.lt_succ_of_le (numbered_shorter read)

abbrev Reading := Except Fault (List Char × List Char)

def Reading.cons (c : Char) : Reading → Reading
  | .ok (content, rest) => .ok (c :: content, rest)
  | .error fault => .error fault

/-- The content of `"…"` after the opening quote, and what follows the closing one. -/
def basicText (cs : List Char) : Reading :=
  match cs with
  | [] => .error .unterminatedText
  | '"' :: rest => .ok ([], rest)
  | '\\' :: rest =>
    match _escaped : escape? rest with
    | some (c, rest) => Reading.cons c (basicText rest)
    | none => .error .invalidEscape
  | c :: rest =>
    if isTextChar c then Reading.cons c (basicText rest) else .error (.invalidCharacter c)
termination_by cs.length
decreasing_by
  · have := escape?_shorter _escaped; simp only [List.length_cons]; omega
  · simp

def literalText : List Char → Reading
  | [] => .error .unterminatedText
  | '\'' :: rest => .ok ([], rest)
  | c :: rest =>
    if isTextChar c then Reading.cons c (literalText rest) else .error (.invalidCharacter c)

/-- Three quotes close a long text; one or two more before them belong to it. -/
def closing (quote : Char) (rest : List Char) : List Char × List Char :=
  let extra := (rest.take 2).takeWhile (· = quote)
  (extra, rest.drop extra.length)

/-- Skips line ends and blanks. -/
def skipFold : List Char → List Char
  | '\r' :: '\n' :: rest => skipFold rest
  | c :: rest => if isBlank c || c == '\n' then skipFold rest else c :: rest
  | [] => []

theorem skipFold_shorter (cs : List Char) : (skipFold cs).length ≤ cs.length := by
  fun_induction skipFold cs <;> simp_all <;> omega

/-- A backslash at the end of a line joins it to the next text; gives what follows. -/
def lineFold? (cs : List Char) : Option (List Char) :=
  match cs.dropWhile isBlank with
  | '\n' :: rest => some (skipFold rest)
  | '\r' :: '\n' :: rest => some (skipFold rest)
  | _ => none

theorem dropWhile_shorter (p : Char → Bool) (cs : List Char) :
    (cs.dropWhile p).length ≤ cs.length := (List.dropWhile_sublist p).length_le

theorem lineFold?_shorter {cs rest : List Char} (read : lineFold? cs = some rest) :
    rest.length ≤ cs.length := by
  have drop := dropWhile_shorter isBlank cs
  unfold lineFold? at read
  split at read
  · rename_i after same
    cases read
    have := skipFold_shorter after
    rw [same] at drop; simp only [List.length_cons] at drop; omega
  · rename_i after same
    cases read
    have := skipFold_shorter after
    rw [same] at drop; simp only [List.length_cons] at drop; omega
  · contradiction

/-- The content of a long `"""…"""` text after its first line end. -/
def longBasicText (cs : List Char) : Reading :=
  match cs with
  | [] => .error .unterminatedText
  | '"' :: '"' :: '"' :: rest => .ok (closing '"' rest)
  | '\\' :: rest =>
    match _fold : lineFold? rest with
    | some rest => longBasicText rest
    | none =>
      match _escaped : escape? rest with
      | some (c, rest) => Reading.cons c (longBasicText rest)
      | none => .error .invalidEscape
  | '\r' :: '\n' :: rest => Reading.cons '\r' (Reading.cons '\n' (longBasicText rest))
  | c :: rest =>
    if isTextChar c || c == '\n' then Reading.cons c (longBasicText rest)
    else .error (.invalidCharacter c)
termination_by cs.length
decreasing_by
  · have := lineFold?_shorter _fold; simp only [List.length_cons]; omega
  · have := escape?_shorter _escaped; simp only [List.length_cons]; omega
  · simp only [List.length_cons]; omega
  · simp

def longLiteralText : List Char → Reading
  | [] => .error .unterminatedText
  | '\'' :: '\'' :: '\'' :: rest => .ok (closing '\'' rest)
  | '\r' :: '\n' :: rest => Reading.cons '\r' (Reading.cons '\n' (longLiteralText rest))
  | c :: rest =>
    if isTextChar c || c == '\n' then Reading.cons c (longLiteralText rest)
    else .error (.invalidCharacter c)

/-- A line end right after the opening quotes of a long text is not part of it. -/
def skipLineEnd : List Char → List Char
  | '\n' :: rest => rest
  | '\r' :: '\n' :: rest => rest
  | rest => rest

def textToken (multiline : Bool) : Reading → Except Fault (Token × List Char)
  | .ok (content, rest) => .ok (.text (String.ofList content) multiline, rest)
  | .error fault => .error fault

def firstToken (c : Char) (rest : List Char) : Except Fault (Token × List Char) :=
  match c, rest with
  | '.', _ => .ok (.dot, rest)
  | '=', _ => .ok (.equals, rest)
  | ',', _ => .ok (.comma, rest)
  | '[', _ => .ok (.openBracket, rest)
  | ']', _ => .ok (.closeBracket, rest)
  | '\x7b', _ => .ok (.openBrace, rest)
  | '\x7d', _ => .ok (.closeBrace, rest)
  | '\n', _ => .ok (.newline, rest)
  | '\r', '\n' :: after => .ok (.newline, after)
  | '\r', _ => .error (.invalidCharacter '\r')
  | '#', _ => .ok (.comment, rest.dropWhile isTextChar)
  | '"', '"' :: '"' :: after => textToken true (longBasicText (skipLineEnd after))
  | '"', _ => textToken false (basicText rest)
  | '\'', '\'' :: '\'' :: after => textToken true (longLiteralText (skipLineEnd after))
  | '\'', _ => textToken false (literalText rest)
  | c, _ =>
    if isBlank c then .ok (.blank (c :: rest.takeWhile isBlank), rest.dropWhile isBlank)
    else .ok (.word (c :: rest.takeWhile isWordChar), rest.dropWhile isWordChar)

theorem Reading.cons_eq_ok {c : Char} {reading : Reading} {content rest : List Char}
    (read : Reading.cons c reading = .ok (content, rest)) :
    ∃ tail, reading = .ok (tail, rest) ∧ content = c :: tail := by
  match reading, read with
  | .ok (tail, after), read =>
    simp only [Reading.cons, Except.ok.injEq, Prod.mk.injEq] at read
    exact ⟨tail, by rw [read.2], read.1.symm⟩

theorem basicText_shorter {cs content rest : List Char}
    (read : basicText cs = .ok (content, rest)) :
    rest.length ≤ cs.length := by
  fun_induction basicText cs generalizing content rest with
  | case1 => cases read
  | case2 => cases read; simp
  | case3 tail c after escaped ih =>
    obtain ⟨_, inner, _⟩ := Reading.cons_eq_ok read
    have := ih inner
    have := escape?_shorter escaped
    simp only [List.length_cons]; omega
  | case4 => cases read
  | case5 c tail _ _ allowed ih =>
    obtain ⟨_, inner, _⟩ := Reading.cons_eq_ok read
    have := ih inner
    simp only [List.length_cons]; omega
  | case6 => cases read

theorem literalText_shorter {cs content rest : List Char}
    (read : literalText cs = .ok (content, rest)) : rest.length ≤ cs.length := by
  fun_induction literalText cs generalizing content rest with
  | case1 => cases read
  | case2 => cases read; simp
  | case3 c tail _ allowed ih =>
    obtain ⟨_, inner, _⟩ := Reading.cons_eq_ok read
    have := ih inner
    simp only [List.length_cons]; omega
  | case4 => cases read

theorem closing_shorter (quote : Char) (rest : List Char) :
    (closing quote rest).2.length ≤ rest.length := by simp [closing]

theorem longBasicText_shorter {cs content rest : List Char}
    (read : longBasicText cs = .ok (content, rest)) : rest.length ≤ cs.length := by
  fun_induction longBasicText cs generalizing content rest with
  | case1 => cases read
  | case2 tail =>
    have := closing_shorter '"' tail
    simp only [Except.ok.injEq] at read
    rw [read] at this
    simp only [List.length_cons] at this ⊢; omega
  | case3 tail after fold ih =>
    have := ih read
    have := lineFold?_shorter fold
    simp only [List.length_cons]; omega
  | case4 tail _ c after escaped ih =>
    obtain ⟨_, inner, _⟩ := Reading.cons_eq_ok read
    have := ih inner
    have := escape?_shorter escaped
    simp only [List.length_cons]; omega
  | case5 => cases read
  | case6 tail ih =>
    obtain ⟨_, outer, _⟩ := Reading.cons_eq_ok read
    obtain ⟨_, inner, _⟩ := Reading.cons_eq_ok outer
    have := ih inner
    simp only [List.length_cons]; omega
  | case7 c tail _ _ _ allowed ih =>
    obtain ⟨_, inner, _⟩ := Reading.cons_eq_ok read
    have := ih inner
    simp only [List.length_cons]; omega
  | case8 => cases read

theorem longLiteralText_shorter {cs content rest : List Char}
    (read : longLiteralText cs = .ok (content, rest)) : rest.length ≤ cs.length := by
  fun_induction longLiteralText cs generalizing content rest with
  | case1 => cases read
  | case2 tail =>
    have := closing_shorter '\'' tail
    simp only [Except.ok.injEq] at read
    rw [read] at this
    simp only [List.length_cons] at this ⊢; omega
  | case3 tail ih =>
    obtain ⟨_, outer, _⟩ := Reading.cons_eq_ok read
    obtain ⟨_, inner, _⟩ := Reading.cons_eq_ok outer
    have := ih inner
    simp only [List.length_cons]; omega
  | case4 c tail _ _ allowed ih =>
    obtain ⟨_, inner, _⟩ := Reading.cons_eq_ok read
    have := ih inner
    simp only [List.length_cons]; omega
  | case5 => cases read

theorem skipLineEnd_shorter (cs : List Char) : (skipLineEnd cs).length ≤ cs.length := by
  unfold skipLineEnd
  split
  · exact Nat.le_succ _
  · simp only [List.length_cons]
    omega
  · exact Nat.le_refl _

theorem textToken_eq_ok {multiline : Bool} {reading : Reading} {token : Token} {rest : List Char}
    (read : textToken multiline reading = .ok (token, rest)) :
    ∃ content, reading = .ok (content, rest) := by
  match reading, read with
  | .ok (content, after), read =>
    simp only [textToken, Except.ok.injEq, Prod.mk.injEq] at read
    exact ⟨content, by rw [read.2]⟩

theorem firstToken_shorter {c : Char} {rest after : List Char} {token : Token}
    (read : firstToken c rest = .ok (token, after)) : after.length ≤ rest.length := by
  unfold firstToken at read
  split at read
  case h_12 tail =>
    obtain ⟨_, inner⟩ := textToken_eq_ok read
    have := longBasicText_shorter inner
    have := skipLineEnd_shorter tail
    simp only [List.length_cons]; omega
  case h_13 =>
    obtain ⟨_, inner⟩ := textToken_eq_ok read
    exact basicText_shorter inner
  case h_14 tail =>
    obtain ⟨_, inner⟩ := textToken_eq_ok read
    have := longLiteralText_shorter inner
    have := skipLineEnd_shorter tail
    simp only [List.length_cons]; omega
  case h_15 =>
    obtain ⟨_, inner⟩ := textToken_eq_ok read
    exact literalText_shorter inner
  case h_16 =>
    split at read <;> (cases read; exact dropWhile_shorter _ _)
  all_goals
    first
    | contradiction
    | (cases read; exact dropWhile_shorter _ _)
    | (cases read; simp)

def tokens (cs : List Char) : Except Fault (List Token) :=
  match cs with
  | [] => .ok []
  | c :: rest =>
    match _first : firstToken c rest with
    | .error fault => .error fault
    | .ok (token, after) =>
      match tokens after with
      | .error fault => .error fault
      | .ok others => .ok (token :: others)
termination_by cs.length
decreasing_by
  have := firstToken_shorter _first
  simp only [List.length_cons]; omega

end BundlePlan.Toml
