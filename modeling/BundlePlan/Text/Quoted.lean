import BundlePlan.Text.Unprintable

/-! Texts quoted inside a message: double quotes around, backslash escapes for the five named
characters and for both delimiters, every other unprintable character by its number. A single
quote and printable characters of any script stand for themselves. -/
namespace BundlePlan.Text

def hexDigits (c : Char) : List Char := Nat.toDigits 16 c.toNat

def quotedChar (c : Char) : List Char :=
  match c with
  | '\x00' => ['\\', '0']
  | '\t' => ['\\', 't']
  | '\r' => ['\\', 'r']
  | '\n' => ['\\', 'n']
  | '"' => ['\\', '"']
  | '\\' => ['\\', '\\']
  | c => if isUnprintable c then ['\\', 'u', '\x7b'] ++ hexDigits c ++ ['\x7d'] else [c]

def quoted (text : String) : String :=
  String.ofList ('"' :: text.toList.flatMap quotedChar ++ ['"'])

end BundlePlan.Text
