import BundlePlan.Toml.Value

/-! Booleans, numbers, dates and times. A decimal number has no leading zero; underscores may stand
between digits. Some spellings have the look of a number and stand for none: an integer beyond 64
bits with sign, one with letters among its decimal digits, a base without digits, and a number
that rounds beyond the largest double. Dates are dates of the calendar. -/
namespace BundlePlan.Toml

def isHexDigit (c : Char) : Bool :=
  c.isDigit || ('a' ≤ c && c ≤ 'f') || ('A' ≤ c && c ≤ 'F')

def isOctalDigit (c : Char) : Bool := '0' ≤ c && c ≤ '7'

def isBinaryDigit (c : Char) : Bool := c == '0' || c == '1'

def digitValue (c : Char) : Nat :=
  if c.isDigit then c.toNat - '0'.toNat
  else if 'a' ≤ c && c ≤ 'f' then c.toNat - 'a'.toNat + 10
  else c.toNat - 'A'.toNat + 10

def positional (base : Nat) (digits : List Char) : Nat :=
  digits.foldl (fun value c => value * base + digitValue c) 0

/-- Two digits of base sixteen behind two zeros, in whatever case they are written. -/
theorem positional_two {digit : Nat → Char}
    (digits : ∀ d < 16, isHexDigit (digit d) = true ∧ digitValue (digit d) = d) {n : Nat}
    (small : n < 256) :
    ['0', '0', digit (n / 16), digit (n % 16)].all isHexDigit = true ∧
      positional 16 ['0', '0', digit (n / 16), digit (n % 16)] = n := by
  obtain ⟨high, upper⟩ := digits (n / 16) (by omega)
  obtain ⟨low, lower⟩ := digits (n % 16) (by omega)
  have zero : isHexDigit '0' = true ∧ digitValue '0' = 0 := by decide
  constructor
  · simp only [List.all_cons, List.all_nil, zero.1, high, low, Bool.and_self]
  · simp only [positional, List.foldl_cons, List.foldl_nil, zero.2, upper, lower]
    omega

/-- Each underscore stands between two digits. -/
def isGrouped (isDigit : Char → Bool) (cs : List Char) : Bool :=
  let groups := cs.splitOn '_'
  groups.tail.all (fun group => group.head?.any isDigit) &&
    groups.dropLast.all fun group => group.getLast?.any isDigit

def ungrouped (cs : List Char) : List Char := cs.filter (· ≠ '_')

def unsigned (cs : List Char) : Bool × List Char :=
  match cs with
  | '-' :: rest => (true, rest)
  | '+' :: rest => (false, rest)
  | rest => (false, rest)

def largestInteger : Nat := Nat.pow 2 63 - 1

def boundedInteger (negative : Bool) (magnitude : Nat) : Option Int :=
  if negative then
    if magnitude ≤ largestInteger + 1 then some (-(magnitude : Int)) else none
  else if magnitude ≤ largestInteger then some magnitude else none

def digitsInteger? (isDigit : Char → Bool) (base : Nat) (negative : Bool) (digits : List Char) :
    Option Int :=
  if digits.isEmpty || !digits.all isDigit then none
  else boundedInteger negative (positional base digits)

/-- The value of an integer whose digits in another base than ten are `digits`. It is missing when
there are none or it does not fit; the result is `none` when the text spells no number. -/
def basedInteger? (isDigit : Char → Bool) (base : Nat) (digits : List Char) :
    Option (Option Int) :=
  if (ungrouped digits).all isDigit && isGrouped isDigit digits then
    some (digitsInteger? isDigit base false (ungrouped digits))
  else none

/-- The value of a decimal integer. After the first underscore only what stands beside underscores
has to be a digit, and there one of base sixteen will do; elsewhere even a tab may stand, but no
space. The value is missing when anything but decimal digits comes of it. -/
def decimalInteger? (cs : List Char) : Option (Option Int) :=
  let (negative, magnitude) := unsigned cs
  let tail := magnitude.dropWhile Char.isDigit
  if magnitude.isEmpty || (magnitude.head? = some '0' && magnitude ≠ ['0']) then none
  else if tail.contains ' ' then none
  else if (tail.isEmpty || tail.head? = some '_') && isGrouped isHexDigit cs then
    some (digitsInteger? Char.isDigit 10 negative (ungrouped magnitude))
  else none

/-- Half a step above the largest double: from here on, numbers round to infinity. -/
def overflowBound : Nat := Nat.pow 2 1024 - Nat.pow 2 970

/-- Whether `mantissa · 10 ^ exponent` rounds to a finite double. -/
def isFinite (mantissa : Nat) (exponent : Int) : Bool :=
  if mantissa = 0 then true
  else
    let magnitude : Int := (Nat.toDigits 10 mantissa).length + exponent
    if magnitude < 300 then true
    else if magnitude > 310 then false
    else if 0 ≤ exponent then mantissa * Nat.pow 10 exponent.toNat < overflowBound
    else mantissa < overflowBound * Nat.pow 10 (-exponent).toNat

def isExponentMark (c : Char) : Bool := c == 'e' || c == 'E'

def decimalDigits (cs : List Char) : Option (List Char) :=
  if cs.isEmpty || !cs.all Char.isDigit then none else some cs

/-- Digits before the point and after it; the second list is empty when there is no point. -/
def mantissaDigits (cs : List Char) : Option (List Char × List Char) :=
  match cs.splitOn '.' with
  | [whole] => (decimalDigits whole).map (·, [])
  | [whole, fraction] => do return (← decimalDigits whole, ← decimalDigits fraction)
  | _ => none

/-- The power of ten after the exponent mark, zero when there is no mark. -/
def exponent? (cs : List Char) : Option Int :=
  match cs with
  | [] => some 0
  | _ :: cs => do
    let (negative, power) := unsigned cs
    let magnitude : Int := positional 10 (← decimalDigits power)
    return if negative then -magnitude else magnitude

def float? (cs : List Char) : Option Value := do
  let (_, magnitude) := unsigned cs
  let spelling := ungrouped magnitude
  let (before, after) ← mantissaDigits (spelling.takeWhile (!isExponentMark ·))
  let exponent ← exponent? (spelling.dropWhile (!isExponentMark ·))
  if 1 < before.length && before.head? = some '0' then none
  else if !isGrouped Char.isDigit cs then none
  else if isFinite (positional 10 (before ++ after)) (exponent - after.length) then
    some (.float (String.ofList cs))
  else some (.unreadable (String.ofList cs))

def integerValue (cs : List Char) (integer : Option Int) : Value :=
  match integer with
  | some value => .integer value
  | none => .unreadable (String.ofList cs)

def decimal? (cs : List Char) : Option Value :=
  if [['i', 'n', 'f'], ['n', 'a', 'n']].contains (unsigned cs).2 then
    some (.float (String.ofList cs))
  else if cs.any fun c => c == '.' || isExponentMark c then float? cs
  else (decimalInteger? cs).map (integerValue cs)

def number? (cs : List Char) : Option Value :=
  match cs with
  | '0' :: 'x' :: digits => (basedInteger? isHexDigit 16 digits).map (integerValue cs)
  | '0' :: 'o' :: digits => (basedInteger? isOctalDigit 8 digits).map (integerValue cs)
  | '0' :: 'b' :: digits => (basedInteger? isBinaryDigit 2 digits).map (integerValue cs)
  | _ => decimal? cs

def fixedDigits (count : Nat) (cs : List Char) : Option (Nat × List Char) :=
  let digits := cs.take count
  if digits.length = count && digits.all Char.isDigit then
    some (positional 10 digits, cs.drop count)
  else none

def isLeapYear (year : Nat) : Bool := year % 4 = 0 && (year % 100 ≠ 0 || year % 400 = 0)

def daysInMonth (year month : Nat) : Nat :=
  if month = 2 then if isLeapYear year then 29 else 28
  else if [4, 6, 9, 11].contains month then 30
  else 31

def date? (cs : List Char) : Option (List Char) := do
  let (year, cs) ← fixedDigits 4 cs
  let '-' :: cs := cs | none
  let (month, cs) ← fixedDigits 2 cs
  let '-' :: cs := cs | none
  let (day, cs) ← fixedDigits 2 cs
  if 1 ≤ month && month ≤ 12 && 1 ≤ day && day ≤ daysInMonth year month then some cs else none

/-- Seconds may be left out; a leap second is accepted; a fraction has a digit at least. -/
def time? (cs : List Char) : Option (List Char) := do
  let (hour, cs) ← fixedDigits 2 cs
  let ':' :: cs := cs | none
  let (minute, cs) ← fixedDigits 2 cs
  if hour > 23 || minute > 59 then none
  match cs with
  | ':' :: cs =>
    let (second, cs) ← fixedDigits 2 cs
    if second > 60 then none
    match cs with
    | '.' :: cs =>
      if (cs.takeWhile Char.isDigit).isEmpty then none else some (cs.dropWhile Char.isDigit)
    | cs => some cs
  | cs => some cs

def offset? (cs : List Char) : Option (List Char) :=
  match cs with
  | 'Z' :: cs => some cs
  | 'z' :: cs => some cs
  | sign :: cs => do
    if sign ≠ '+' && sign ≠ '-' then none
    let (hour, cs) ← fixedDigits 2 cs
    let ':' :: cs := cs | none
    let (minute, cs) ← fixedDigits 2 cs
    if hour > 23 || minute > 59 then none else some cs
  | [] => some []

/-- A date, a time, or a date and a time with or without an offset. -/
def isDateTime (cs : List Char) : Bool :=
  match date? cs with
  | none => time? cs == some []
  | some [] => true
  | some (separator :: cs) =>
    (separator == 'T' || separator == 't' || separator == ' ') &&
      (time? cs).bind offset? == some []

def scalar? (cs : List Char) : Option Value :=
  if cs = ['t', 'r', 'u', 'e'] then some (.boolean true)
  else if cs = ['f', 'a', 'l', 's', 'e'] then some (.boolean false)
  else if isDateTime cs then some (.dateTime (String.ofList cs))
  else number? cs

end BundlePlan.Toml
