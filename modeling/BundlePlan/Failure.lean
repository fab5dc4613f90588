import BundlePlan.Configuration.Fault

/-! Why a command comes to nothing. -/
namespace BundlePlan

inductive Failure
  | invalidArguments (reason : String)
  | unknownModule (id : String)
  | configuration (fault : ConfigurationFault)
  | files (failure : FileFailure)
deriving DecidableEq

def Failure.message : Failure → String
  | invalidArguments reason => s!"CLI error: Invalid arguments: {reason}"
  | unknownModule id => s!"CLI error: Module {id} was not resolved; nothing to explain"
  | configuration fault => "Configuration error: " ++ fault.message
  | files failure => "IO error: " ++ failure.message

end BundlePlan
