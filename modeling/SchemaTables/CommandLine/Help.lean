/-! What the command line says about itself. -/
namespace SchemaTables.Help

def programName : String := "api2html"

def version : String := "0.1.0"

def versionText : String := programName ++ ", version " ++ version ++ "\n"

/-- The command whose usage is at stake: the program itself, or one of its commands. -/
inductive Topic where
  | program
  | generate
  | render
deriving DecidableEq, Repr

namespace Topic

def path : Topic → String
  | program => programName
  | generate => programName ++ " generate-config"
  | render => programName ++ " render"

def usage (topic : Topic) : String :=
  "Usage: " ++ topic.path ++ " " ++ match topic with
    | program => "[OPTIONS] COMMAND [ARGS]..."
    | generate => "[OPTIONS]"
    | render => "[OPTIONS] INPUT_PATH [SELECTION]..."

def hint (topic : Topic) : String := "Try '" ++ topic.path ++ " -h' for help."

def body : Topic → List String
  | program => [
    "  Render OpenAPI component schemas as HTML tables.",
    "",
    "Options:",
    "  --version      Show the version and exit.",
    "  -v, --verbose  Log progress to stderr.",
    "  -h, --help     Show this message and exit.",
    "",
    "Commands:",
    "  generate-config  Generate a YAML run configuration with guidance comments.",
    "  render           Render the schemas of INPUT_PATH, or only the..."]
  | generate => [
    "  Generate a YAML run configuration with guidance comments.",
    "",
    "Options:",
    "  --output PATH  Path to the YAML run configuration to write  [default:",
    "                 api2html.yaml]",
    "  -h, --help     Show this message and exit."]
  | render => [
    "  Render the schemas of INPUT_PATH, or only the SELECTION schema names.",
    "",
    "Options:",
    "  -o, --output PATH  HTML file to write; defaults to stdout",
    "  --no-description   Leave schema and field descriptions out of the tables.",
    "  --config PATH      Path to YAML run configuration file",
    "  -h, --help         Show this message and exit."]

def help (topic : Topic) : String :=
  topic.usage ++ "\n\n" ++ String.join (topic.body.map (· ++ "\n"))

end Topic
end SchemaTables.Help
