import BundlePlan.Descriptor.Render
import BundlePlan.Platform

/-! The arguments of the command. An option takes its value from the same word, after `=` or right
after its letter, or from the next word, which must not look like an option. A value in the next
word is checked no sooner than the next known option or the end is met, so what is met before
that is refused first. -/
namespace BundlePlan

structure Arguments where
  config : FilePath
  manifests : Option FilePath
  platform : Option Platform
  format : Format
  output : Option FilePath
  explain : List String
  graph : Option FilePath

/-- Why the arguments do not lead to a run: they are wrong, or ask for a text only. -/
inductive Dismissal
  | missingRequiredArgument
  | invalidValue
  | unknownArgument
  | argumentConflict
  | tooManyValues
  | displayHelp
  | displayVersion
deriving DecidableEq, Repr

namespace Dismissal

def name : Dismissal → String
  | missingRequiredArgument => "MissingRequiredArgument"
  | invalidValue => "InvalidValue"
  | unknownArgument => "UnknownArgument"
  | argumentConflict => "ArgumentConflict"
  | tooManyValues => "TooManyValues"
  | displayHelp => "DisplayHelp"
  | displayVersion => "DisplayVersion"

def exitCode : Dismissal → Nat
  | displayHelp => 0
  | displayVersion => 0
  | _ => 2

end Dismissal

namespace Arguments

inductive Key
  | config
  | manifests
  | platform
  | format
  | output
  | explain
  | graph
deriving DecidableEq, Repr

def Key.all : List Key := [.config, .manifests, .platform, .format, .output, .explain, .graph]

def Key.name : Key → String
  | config => "config"
  | manifests => "manifests"
  | platform => "platform"
  | format => "format"
  | output => "output"
  | explain => "explain"
  | graph => "graph"

def Key.letter? : Key → Option Char
  | config => some 'c'
  | manifests => some 'm'
  | platform => some 'p'
  | format => some 'f'
  | output => some 'o'
  | explain => none
  | graph => none

def Key.isRepeatable (key : Key) : Bool := key == .explain

inductive Setting
  | config (path : FilePath)
  | manifests (path : FilePath)
  | platform (platform : Platform)
  | format (format : Format)
  | output (path : FilePath)
  | explain (name : String)
  | graph (path : FilePath)

def Setting.key : Setting → Key
  | config _ => .config
  | manifests _ => .manifests
  | platform _ => .platform
  | format _ => .format
  | output _ => .output
  | explain _ => .explain
  | graph _ => .graph

def path? (text : String) : Option FilePath := if text = "" then none else some ⟨text⟩

def Setting.read? (key : Key) (value : String) : Option Setting :=
  match key with
  | .config => (path? value).map .config
  | .manifests => (path? value).map .manifests
  | .platform => (Platform.ofName? value).map .platform
  | .format => (Format.ofName? value).map .format
  | .output => (path? value).map .output
  | .explain => some (.explain value)
  | .graph => (path? value).map .graph

/-- What is read so far: the settings in order, and the option whose value is not checked yet. -/
structure Scan where
  settings : List Setting
  pending : Option (Key × Option String)

namespace Scan

def accept (settings : List Setting) (key : Key) (value : Option String) :
    Except Dismissal (List Setting) :=
  match value with
  | none => .error .invalidValue
  | some value =>
    if !key.isRepeatable && settings.any fun setting => setting.key == key then
      .error .argumentConflict
    else
      match Setting.read? key value with
      | some setting => .ok (settings ++ [setting])
      | none => .error .invalidValue

/-- Checks the pending option. -/
def settle (scan : Scan) : Except Dismissal (List Setting) :=
  match scan.pending with
  | none => .ok scan.settings
  | some (key, value) => accept scan.settings key value

def option (scan : Scan) (key : Key) (attached : Option String) : Except Dismissal Scan := do
  let settings ← scan.settle
  match attached with
  | none => return ⟨settings, some (key, none)⟩
  | some value => return ⟨← accept settings key (some value), none⟩

def request (scan : Scan) (answer : Dismissal) : Except Dismissal Scan := do
  let _ ← scan.settle
  throw answer

def word (scan : Scan) (value : String) : Except Dismissal Scan :=
  match scan.pending with
  | some (key, none) => .ok { scan with pending := some (key, some value) }
  | _ => .error .unknownArgument

def long (scan : Scan) (chars : List Char) : Except Dismissal Scan :=
  let name := String.ofList (chars.takeWhile (· ≠ '='))
  let attached :=
    if chars.contains '=' then some (String.ofList ((chars.dropWhile (· ≠ '=')).drop 1)) else none
  match Key.all.find? fun key => key.name == name with
  | some key => scan.option key attached
  | none =>
    if name = "help" then
      if attached.isSome then .error .tooManyValues else scan.request .displayHelp
    else if name = "version" then
      if attached.isSome then .error .tooManyValues else scan.request .displayVersion
    else .error .unknownArgument

def short (scan : Scan) (letter : Char) (rest : List Char) : Except Dismissal Scan :=
  match Key.all.find? fun key => key.letter? == some letter with
  | some key =>
    match rest with
    | [] => scan.option key none
    | '=' :: value => scan.option key (some (String.ofList value))
    | value => scan.option key (some (String.ofList value))
  | none =>
    if letter = 'h' then scan.request .displayHelp
    else if letter = 'V' then scan.request .displayVersion
    else .error .unknownArgument

/-- Reads all words. Nothing may follow two lone dashes. -/
def words (scan : Scan) : List String → Except Dismissal (List Setting)
  | [] => scan.settle
  | value :: rest =>
    match value.toList with
    | ['-', '-'] => if rest.isEmpty then scan.settle else .error .unknownArgument
    | '-' :: '-' :: chars => do words (← scan.long chars) rest
    | '-' :: letter :: chars => do words (← scan.short letter chars) rest
    | _ => do words (← scan.word value) rest

end Scan

/-- The configuration file may also come from the environment. -/
def configOf (settings : List Setting) (environment : Option String) : Except Dismissal FilePath :=
  match settings.findSome? fun | .config path => some path | _ => none with
  | some path => .ok path
  | none =>
    match environment with
    | none => .error .missingRequiredArgument
    | some value =>
      match path? value with
      | some path => .ok path
      | none => .error .invalidValue

/-- Reads the arguments; `environment` is the value of `EXTENSION_BUNDLER_CONFIG`. -/
def parse (words : List String) (environment : Option String) : Except Dismissal Arguments := do
  let settings ← Scan.words ⟨[], none⟩ words
  let config ← configOf settings environment
  return {
    config := config
    manifests := settings.findSome? fun | .manifests path => some path | _ => none
    platform := settings.findSome? fun | .platform platform => some platform | _ => none
    format := (settings.findSome? fun | .format format => some format | _ => none).getD .json
    output := settings.findSome? fun | .output path => some path | _ => none
    explain := settings.filterMap fun | .explain name => some name | _ => none
    graph := settings.findSome? fun | .graph path => some path | _ => none }

def fault? (arguments : Arguments) : Option String :=
  match arguments.explain.find? fun name => (ModuleId.parse? name).isNone with
  | some name => some ("Invalid module identifier for --explain: " ++ Text.quoted name)
  | none =>
    match arguments.output, arguments.graph with
    | some output, some graph =>
      if output.parts = graph.parts then some "--output and --graph must be different files"
      else none
    | _, _ => none

def explained (arguments : Arguments) : List ModuleId := arguments.explain.filterMap ModuleId.parse?

end Arguments
end BundlePlan
