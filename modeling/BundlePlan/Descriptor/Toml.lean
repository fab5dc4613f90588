import BundlePlan.Descriptor

/-! Documents in TOML: a line for each key, longer lists over several lines. For every text the
plainest of the four kinds of TOML strings is taken that can hold it. -/
namespace BundlePlan.Toml

inductive Style
  | basic
  | literal
  | basicLines
  | literalLines
deriving DecidableEq, Repr

/-- The length of the longest run of `c`, if one of length `current` is under way. -/
def longestRun (c : Char) (current : Nat) : List Char → Nat
  | [] => current
  | x :: rest =>
    if x = c then longestRun c (current + 1) rest else max current (longestRun c 0 rest)

def isControl (c : Char) : Bool := (c < ' ' && c ≠ '\t' && c ≠ '\n') || c == '\x7f'

/-- The first style in order of preference that suits the text. -/
def style (text : List Char) : Style :=
  let controls := text.any isControl
  let slashes := text.contains '\\'
  let lines := text.contains '\n'
  let doubles := longestRun '"' 0 text
  let singles := longestRun '\'' 0 text
  if !controls && !slashes && doubles = 0 && !lines then .basic
  else if !controls && singles = 0 && !lines then .literal
  else if !controls && !slashes && doubles ≤ 2 then .basicLines
  else if !controls && singles ≤ 2 then .literalLines
  else if lines then .basicLines
  else .basic

def upperHexDigit (n : Nat) : Char := (Nat.digitChar n).toUpper

def numberedEscape (c : Char) : List Char :=
  ['\\', 'u', '0', '0', upperHexDigit (c.toNat / 16), upperHexDigit (c.toNat % 16)]

def escaped (c : Char) : List Char :=
  match c with
  | '\\' => ['\\', '\\']
  | '\x08' => ['\\', 'b']
  | '\t' => ['\\', 't']
  | '\x0c' => ['\\', 'f']
  | '\r' => ['\\', 'r']
  | c => if c < ' ' || c == '\x7f' then numberedEscape c else [c]

def basicChar (c : Char) : List Char :=
  match c with
  | '"' => ['\\', '"']
  | '\n' => ['\\', 'n']
  | c => escaped c

/-- The content of a text over several lines, after a run of `quotes` quotes: every third quote of
a run is escaped, since three would end the text. -/
def basicLinesContent (quotes : Nat) : List Char → List Char
  | [] => []
  | '"' :: rest =>
    if quotes = 2 then '\\' :: '"' :: basicLinesContent 0 rest
    else '"' :: basicLinesContent (quotes + 1) rest
  | '\n' :: rest => '\n' :: basicLinesContent 0 rest
  | c :: rest => escaped c ++ basicLinesContent 0 rest

/-- A line end right after the opening quotes does not count, so a text with line ends begins on a
line of its own. -/
def opening (quote : Char) (text : List Char) : List Char :=
  [quote, quote, quote] ++ if text.contains '\n' then ['\n'] else []

def styled (text : List Char) : Style → List Char
  | .basic => '"' :: text.flatMap basicChar ++ ['"']
  | .literal => '\'' :: text ++ ['\'']
  | .basicLines => opening '"' text ++ basicLinesContent 0 text ++ ['"', '"', '"']
  | .literalLines => opening '\'' text ++ text ++ ['\'', '\'', '\'']

def text (value : String) : List Char := styled value.toList (style value.toList)

def elementLine (value : String) : List Char := [' ', ' ', ' ', ' '] ++ text value ++ [',', '\n']

def texts : List String → List Char
  | [] => ['[', ']']
  | [value] => '[' :: text value ++ [']']
  | values => '[' :: '\n' :: values.flatMap elementLine ++ [']']

def content : Content → List Char
  | .text value => text value
  | .texts values => texts values

def line (entry : String × Content) : List Char :=
  entry.1.toList ++ [' ', '=', ' '] ++ content entry.2 ++ ['\n']

def document (entries : List (String × Content)) : List Char := entries.flatMap line

end BundlePlan.Toml
