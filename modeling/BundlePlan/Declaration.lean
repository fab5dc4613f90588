import BundlePlan.ModuleSet

/-! What a module says about its dependencies once it could be looked up. -/
namespace BundlePlan

/-- Saying nothing differs from an empty list only in how the declaration is shown. A query
answers with a list of its own whenever it is asked. -/
inductive Declaration
  | none
  | fixed (dependencies : ModuleSet)
  | query (answer : List ModuleId)
deriving DecidableEq

namespace Declaration

def dependencies : Declaration → ModuleSet
  | none => ∅
  | fixed dependencies => dependencies
  | query answer => .ofList answer

def shown : Declaration → String
  | none => "None"
  | fixed dependencies =>
    let items := dependencies.toList.map fun m => "ModuleId(" ++ Text.quoted m.text ++ ")"
    "Static(\x7b" ++ ", ".intercalate items ++ "\x7d)"
  | query _ => "Query(<fn>)"

end Declaration
end BundlePlan
