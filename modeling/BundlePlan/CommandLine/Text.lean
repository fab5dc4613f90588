import BundlePlan.CommandLine.Arguments

/-! The texts with which the command answers when there is nothing to run. -/
namespace BundlePlan

def versionText : String := "extension_bundler 0.1.0\n"

def helpLines : List String := [
  "Resolves which server extensions a bundle must embed",
  "",
  "Usage: extension_bundler [OPTIONS] --config <PATH>",
  "",
  "Options:",
  "  -c, --config <PATH>        Build configuration file [env: EXTENSION_BUNDLER_CONFIG=]",
  "  -m, --manifests <DIR>      Directory of <module>.toml manifests",
  "  -p, --platform <PLATFORM>  Target platform: linux, macos, windows, other",
  "  -f, --format <FORMAT>      Descriptor format: json, toml [default: json]",
  "  -o, --output <PATH>        Write the descriptor here instead of printing it",
  "      --explain <MODULE>     Tell why a module is included (repeatable)",
  "      --graph <PATH>         Write the dependency graph in Graphviz DOT format",
  "  -h, --help                 Print help",
  "  -V, --version              Print version"]

def helpText : String := String.join (helpLines.map (· ++ "\n"))

namespace Dismissal

def message : Dismissal → String
  | missingRequiredArgument => "error: the argument --config is required\n"
  | invalidValue => "error: invalid value for an option\n"
  | unknownArgument => "error: unexpected argument\n"
  | argumentConflict => "error: an option cannot be used multiple times\n"
  | tooManyValues => "error: unexpected value for an option\n"
  | displayHelp => helpText
  | displayVersion => versionText

end Dismissal
end BundlePlan
