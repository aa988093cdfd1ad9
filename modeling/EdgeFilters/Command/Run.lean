import EdgeFilters.Command.Basic
import EdgeFilters.Config.Read
import EdgeFilters.Report

namespace EdgeFilters.Command

/-- What a run leaves: an exit status and the texts it writes. -/
structure Outcome where
  status : Nat
  output : String := ""
  complaint : String := ""
  deriving DecidableEq, Repr

def versionText : String := "pipeline-filters 0.1.0\n"

def helpText : String := Report.unlines
  ["Usage: pipeline-filters <COMMAND>",
   "",
   "Commands:",
   "  check   Load a pipeline config and list every filter binding",
   "  lookup  Show the filters bound to one edge",
   "",
   "Options:",
   "  -f, --file <FILE>      Path to the pipeline config file",
   "  -i, --input <INPUT>    Producer stage name (lookup)",
   "  -o, --output <OUTPUT>  Consumer stage name (lookup)",
   "      --reuse            Merge conditions of the same type on an edge into one filter",
   "      --json             Print the result as JSON (lookup)",
   "  -h, --help             Print help",
   "  -V, --version          Print version"]

/-- The table of a configuration file; conditions are shared if the file or the
command says so. -/
def loadTable (file : File) (reuse : Bool) : Except Config.Error Table := do
  let config ← Config.load file
  pure { config with reuse := config.reuse || reuse }.table.1

/-- A report on the table of a file, or a complaint that there is none. -/
def report (file : File) (reuse : Bool) (text : Table → String) : Outcome :=
  match loadTable file reuse with
  | .ok table => ⟨0, text table, ""⟩
  | .error error => ⟨1, "", "Error: " ++ error.message ++ "\n"⟩

def run (files : String → File) : Command → Outcome
  | .help => ⟨0, helpText, ""⟩
  | .version => ⟨0, versionText, ""⟩
  | .check file reuse =>
      report (files file) reuse fun table =>
        Report.unlines (Report.bindings table)
  | .lookup file input output reuse json =>
      report (files file) reuse fun table =>
        if json then
          Report.unlines [(Report.edgeJson table ⟨input, output⟩).pretty]
        else Report.unlines (Report.edge table ⟨input, output⟩)

/-- Runs the command that the arguments give, if they give one. -/
def runArguments (files : String → File) (arguments : List String) : Outcome :=
  match parse arguments with
  | .ok command => run files command
  | .error usage => ⟨2, "", "error: " ++ usage.message ++ "\n"⟩

def file? : Command → Option String
  | .help | .version => none
  | .check file _ => some file
  | .lookup file _ _ _ _ => some file

end EdgeFilters.Command
