import BundlePlan.Descriptor.Json
import BundlePlan.Descriptor.Toml

/-! The two formats in which a descriptor is handed on. -/
namespace BundlePlan

inductive Format
  | json
  | toml
deriving DecidableEq, Repr

namespace Format

def all : List Format := [json, toml]

def name : Format → String
  | json => "json"
  | toml => "toml"

def ofName? (name : String) : Option Format := all.find? fun format => format.name == name

theorem ofName?_name (format : Format) : ofName? format.name = some format := by
  cases format <;> decide

end Format

/-- The text of a descriptor, which ends with a line end. -/
def Descriptor.render (descriptor : Descriptor) : Format → String
  | .json => String.ofList (Json.document descriptor.contents ++ ['\n'])
  | .toml => String.ofList (Toml.document descriptor.contents)

end BundlePlan
