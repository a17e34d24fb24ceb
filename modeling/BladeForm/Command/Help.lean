import BladeForm.Command.Line

/-!
Help texts of the command line.
-/
namespace BladeForm

namespace Command

def programName : String := "formcraft"

def versionText : String := s!"{programName} 0.1.0\n"

def ended (ls : List String) : String := String.join (ls.map (· ++ "\n"))

def configHelp : String :=
  "Path to formcraft.toml or the directory containing it [default: .]"

def shortOptions : List String := [
  "Options:",
  s!"      --config <CONFIG>  {configHelp}",
  "  -h, --help             Print help"]

end Command

open Command

def Topic.text : Topic → String
  | .program => ended ([
      "Generate Blade form views from resource descriptions",
      "",
      s!"Usage: {programName} [OPTIONS] <COMMAND>",
      "",
      "Commands:",
      "  form-view  Create a form view for a model",
      "  check      Validate a resource file",
      "  help       Print this message or the help of the given subcommand(s)",
      ""] ++ shortOptions ++ ["  -V, --version          Print version"])
  | .formView => ended [
      "Create a form view for a model",
      "",
      s!"Usage: {programName} form-view [OPTIONS] <MODEL_NAME>",
      "",
      "Arguments:",
      "  <MODEL_NAME>  The model name that this view will represent",
      "",
      "Options:",
      "      --config <CONFIG>",
      s!"          {configHelp}",
      "      --resource-file <RESOURCE_FILE>",
      "          The name of the resource file to import from (default: snake-case model name)",
      "      --views-directory <VIEWS_DIRECTORY>",
      "          The directory to create the views under",
      "      --routes-prefix <ROUTES_PREFIX>",
      "          Prefix of the route group",
      "      --language-filename <LANGUAGE_FILE_NAME>",
      "          The name of the language file (default: plural snake-case model name)",
      "      --layout-name <LAYOUT_NAME>",
      "          The layout the view extends (default from config: layouts.app)",
      "      --template-name <TEMPLATE_NAME>",
      "          The template family to use when generating the code",
      "      --force",
      "          Overwrite the view if one already exists",
      "      --dry-run",
      "          Show what would be written without touching the file system",
      "  -v, --verbose",
      "          With --dry-run, print the generated view or a diff against the existing one",
      "  -h, --help",
      "          Print help"]
  | .check => ended ([
      "Validate a resource file",
      "",
      s!"Usage: {programName} check [OPTIONS] <RESOURCE_FILE>",
      "",
      "Arguments:",
      "  <RESOURCE_FILE>  Resource file name or path",
      ""] ++ shortOptions)
  | .help => ended [
      "Print this message or the help of the given subcommand(s)",
      "",
      s!"Usage: {programName} help [COMMAND]...",
      "",
      "Arguments:",
      "  [COMMAND]...  Print help for the subcommand(s)"]

end BladeForm
