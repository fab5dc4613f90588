import BundlePlan.Descriptor

/-! Documents in JSON, indented by two spaces. A text is escaped only where it has to be: quotes,
backslashes and characters below the space. -/
namespace BundlePlan.Json

def hexDigit (n : Nat) : Char := Nat.digitChar n

/-- A character below the space that has no letter of its own. -/
def numberedEscape (c : Char) : List Char :=
  ['\\', 'u', '0', '0', hexDigit (c.toNat / 16), hexDigit (c.toNat % 16)]

def escaped (c : Char) : List Char :=
  match c with
  | '"' => ['\\', '"']
  | '\\' => ['\\', '\\']
  | '\x08' => ['\\', 'b']
  | '\t' => ['\\', 't']
  | '\n' => ['\\', 'n']
  | '\x0c' => ['\\', 'f']
  | '\r' => ['\\', 'r']
  | c => if c < ' ' then numberedEscape c else [c]

def text (value : String) : List Char := '"' :: value.toList.flatMap escaped ++ ['"']

/-- Items on lines of their own at `indent`, with commas between them; the closing bracket goes
back to `outer`. -/
def lines (outer indent : List Char) (items : List (List Char)) : List Char :=
  '\n' :: ([',', '\n'].intercalate (items.map (indent ++ ·))) ++ '\n' :: outer

def texts (values : List String) : List Char :=
  if values.isEmpty then ['[', ']']
  else '[' :: lines [' ', ' '] [' ', ' ', ' ', ' '] (values.map text) ++ [']']

def content : Content → List Char
  | .text value => text value
  | .texts values => texts values

def field (entry : String × Content) : List Char := text entry.1 ++ ':' :: ' ' :: content entry.2

def document (entries : List (String × Content)) : List Char :=
  '\x7b' :: lines [] [' ', ' '] (entries.map field) ++ ['\x7d']

end BundlePlan.Json
