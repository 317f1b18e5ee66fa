import Walkthrough.Settings.EnvFile
import Walkthrough.Settings.ShellWords
import Walkthrough.Text.Utf8.Damage
/-!
# Settings

What a run is told before it starts: the site to test, where the documents
are and where reports go, whether pages are kept and details logged, and the
command of the tool server. Settings come from the environment as the file of
variables completes it; a text that is empty counts as not given.
-/

namespace Walkthrough

/-- What a run is told before it starts. -/
structure Settings where
  baseUrl : String := "http://127.0.0.1:8080"
  documents : String := "tests/md"
  artifacts : String := "artifacts"
  savePages : Bool := false
  debug : Bool := false
  command : List String := ["npx", "-y", "@playwright/mcp@0.0.37"]
deriving DecidableEq, Repr, Inhabited

namespace Settings

/-- The command of the tool server where none is given. -/
def defaultCommand : String := "npx -y @playwright/mcp@0.0.37"

/-- The default settings hold the words of the default command. -/
theorem split_defaultCommand :
    (ShellWords.split defaultCommand).toOption = some ({} : Settings).command := by
  decide

/-- The texts that switch something on. -/
def switchedOn : List (List Char) := ["1", "true", "yes", "on"].map String.toList

/-- A text switches something on, blanks around it and case aside. -/
def isOn (value : String) : Bool :=
  ((Text.trim value.toList).map Char.toLower) ∈ switchedOn

/-- Whether a variable switches something on. -/
def flag (env : Environment) (name : String) (default : Bool) : Bool :=
  match env.get? name with
  | some value => isOn value
  | none => default

/-- The value of a variable, unless it is empty. -/
def textOr (env : Environment) (name default : String) : String :=
  match env.get? name with
  | some value => if value = "" then default else value
  | none => default

/-- The command of the tool server as a text. -/
def commandText (env : Environment) : String :=
  let given := Text.trimmed ((env.get? "MCP_SERVER_COMMAND").getD "")
  if given = "" then defaultCommand else given

/-- Why settings cannot be read. -/
inductive Error where
  /-- The path of the file of variables holds the character zero. -/
  | badPath
  /-- The file of variables is no text. -/
  | noText (d : Text.Utf8.Damage)
  /-- A variable of the file cannot be set. -/
  | binding (e : EnvFile.Error)
  /-- The command of the tool server does not fall into words. -/
  | command (e : ShellWords.Error)
deriving DecidableEq, Repr

/-- The message of a refusal. -/
def Error.message : Error → String
  | badPath => "embedded null byte"
  | noText d => d.message
  | binding e => e.message
  | command e => e.message

/-- The settings that an environment states. -/
def ofEnvironment (env : Environment) : Except ShellWords.Error Settings := do
  let command ← ShellWords.split (commandText env)
  let usual : Settings := {}
  return {
    baseUrl := textOr env "APP_BASE" usual.baseUrl
    documents := textOr env "NL_DIR" usual.documents
    artifacts := textOr env "ARTIFACTS_DIR" usual.artifacts
    savePages := flag env "SAVE_HTML" false
    debug := flag env "DEBUG" false
    command := command }

/-- The path of the file of variables, where an empty one is none. -/
def filePath (given : Option String) : String :=
  match given with
  | some path => if path = "" then ".env" else path
  | none => ".env"

/-- **The settings of an environment and a file of variables,** which is empty
where there is no file, and whose bindings are read in some way. -/
def load (read : String → List EnvFile.Binding) (env : Environment) (fileText : String) :
    Except Error Settings :=
  match EnvFile.load read env fileText with
  | .error e => .error (.binding e)
  | .ok env =>
    match ofEnvironment env with
    | .error e => .error (.command e)
    | .ok s => .ok s

end Settings

end Walkthrough
