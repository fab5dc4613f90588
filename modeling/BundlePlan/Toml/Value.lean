/-! TOML values and the reasons for which a document is refused. Tables list their keys in
ascending order, each once. Numbers with a fraction and dates keep their spelling. -/
namespace BundlePlan.Toml

inductive Value
  | string (text : String)
  | integer (value : Int)
  | float (spelling : String)
  /-- Has the look of a number but stands for none. Whoever reads it as anything refuses it, and a
  document may hold it only where nobody reads it. -/
  | unreadable (spelling : String)
  | boolean (value : Bool)
  | dateTime (spelling : String)
  | array (items : List Value)
  | table (entries : List (String × Value))

inductive Fault
  | unterminatedText
  | invalidEscape
  | invalidCharacter (c : Char)
  | expectedKey
  | expectedValue
  | invalidScalar (spelling : String)
  | expectedSeparator
  | expectedLineEnd
  | duplicateKey (key : String)
  | notExtensible (key : String)
  | nestedTooDeep
  | unknownKey (key : String)
  | wrongType (field : String)
deriving DecidableEq

def Fault.message : Fault → String
  | unterminatedText => "unterminated string"
  | invalidEscape => "invalid escape sequence"
  | invalidCharacter c => "invalid character with code " ++ toString c.toNat
  | expectedKey => "expected a key"
  | expectedValue => "expected a value"
  | invalidScalar spelling => "invalid value " ++ spelling
  | expectedSeparator => "expected a separator or a closing delimiter"
  | expectedLineEnd => "expected the end of the line"
  | duplicateKey key => "duplicate key " ++ key
  | notExtensible key => "cannot extend the value of " ++ key
  | nestedTooDeep => "nested too deeply"
  | unknownKey key => "unknown key " ++ key
  | wrongType field => "invalid type for " ++ field

end BundlePlan.Toml
