import BundlePlan.CommandLine.Arguments
import BundlePlan.Failure
import BundlePlan.Plan

/-! A run of the command from its arguments to the texts and files it leaves behind. What was done
before a failure stays done. -/
namespace BundlePlan

/-- The files, and what was written and reported so far. -/
structure Transcript where
  disk : Disk
  output : String
  diagnostics : String
  events : List Event

abbrev Session := ExceptT Failure (StateM Transcript)

namespace Session

def start (disk : Disk) : Transcript := ⟨disk, "", "", []⟩

def run {α : Type} (session : Session α) (disk : Disk) : Except Failure α × Transcript :=
  (ExceptT.run session).run (start disk)

def report (event : Event) : Session Unit :=
  modify fun transcript => { transcript with events := transcript.events ++ [event] }

def logged {α : Type} (work : Disk → Logged (Except ConfigurationFault α)) : Session α := do
  let logged := work (← get).disk
  modify fun transcript => { transcript with events := transcript.events ++ logged.events }
  match logged.value with
  | .ok value => return value
  | .error fault => throw (.configuration fault)

def print (text : String) : Session Unit :=
  modify fun transcript => { transcript with output := transcript.output ++ text }

def printDiagnostic (line : String) : Session Unit :=
  modify fun transcript => { transcript with diagnostics := transcript.diagnostics ++ line ++ "\n" }

def ensureDirectories (directories : List FilePath) : Session Unit := do
  let (disk, outcome) := (← get).disk.ensureDirectories directories
  modify fun transcript => { transcript with disk := disk }
  match outcome with
  | .ok () => return ()
  | .error failure => throw (.files failure)

def writeText (path : FilePath) (text : String) : Session Unit := do
  match (← get).disk.writeText path text with
  | .ok disk => modify fun transcript => { transcript with disk := disk }
  | .error failure => throw (.files failure)

/-- Writes a text to a file, in a directory made for it if need be, or else prints it. -/
def deliver (text : String) : Option FilePath → Session Unit
  | none => print text
  | some path => do
    ensureDirectories path.enclosing
    writeText path text
    report (.wrote path)

def explain (plan : Plan) (id : ModuleId) : Session Unit :=
  match plan.resolution.explain id with
  | none => throw (.unknownModule id.text)
  | some chain =>
    let suffix := if id ∈ plan.descriptor.hiddenImports then "" else " (excluded)"
    printDiagnostic (id.text ++ ": " ++ " -> ".intercalate (chain.map ModuleId.text) ++ suffix)

def loadConfiguration (arguments : Arguments) : Session Configuration := do
  let configuration ← logged fun disk => Configuration.load disk arguments.config
  match arguments.manifests with
  | none => return configuration
  | some directory => return configuration.setManifestDirectory directory

/-- Loads the configuration, plans the bundle, explains what is asked for, then writes the graph
and last the descriptor. -/
def resolve (arguments : Arguments) : Session Unit := do
  let configuration ← loadConfiguration arguments
  let platform := arguments.platform.getD Platform.host
  let plan ← logged fun disk => Plan.ofConfiguration disk configuration platform
  arguments.explained.forM (explain plan)
  match arguments.graph with
  | none => pure ()
  | some path => deliver plan.resolution.dot (some path)
  deliver (plan.descriptor.render arguments.format) arguments.output

def failureLine (failure : Failure) : String := "Error: " ++ failure.message ++ "\n"

def command (arguments : Arguments) : Session Unit :=
  match arguments.fault? with
  | some reason => throw (.invalidArguments reason)
  | none => resolve arguments

end Session
end BundlePlan
