import BundlePlan.Toml.Value

/-! Reading values as the types that a program wants. A record is written as a table with known
keys only, or as an array that lists the leading fields in their order. -/
namespace BundlePlan.Toml

def Value.asText (field : String) : Value → Except Fault String
  | .string text => .ok text
  | _ => .error (.wrongType field)

def Value.asTexts (field : String) : Value → Except Fault (List String)
  | .array items => items.mapM (Value.asText field)
  | _ => .error (.wrongType field)

def Value.asTable (field : String) : Value → Except Fault (List (String × Value))
  | .table entries => .ok entries
  | _ => .error (.wrongType field)

def entry? (entries : List (String × Value)) (key : String) : Option Value :=
  (entries.find? fun entry => entry.1 == key).map Prod.snd

/-- The fields of a record that are given, by name. -/
abbrev Fields := List (String × Value)

def knownFields (names : List String) (entries : List (String × Value)) : Except Fault Fields :=
  match entries.find? fun entry => !names.contains entry.1 with
  | some entry => .error (.unknownKey entry.1)
  | none => .ok entries

/-- The fields of the record `field`. In an array, what exceeds the known fields is ignored. -/
def Value.asRecord (field : String) (names : List String) : Value → Except Fault Fields
  | .table entries => knownFields names entries
  | .array items => .ok (names.zip items)
  | _ => .error (.wrongType field)

namespace Fields

def optional {α : Type} (fields : Fields) (name : String) (read : String → Value → Except Fault α) :
    Except Fault (Option α) :=
  match entry? fields name with
  | none => .ok none
  | some value => (read name value).map some

end Fields
end BundlePlan.Toml
