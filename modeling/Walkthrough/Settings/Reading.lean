import Walkthrough.FileTree
import Walkthrough.Settings
import Walkthrough.Text.Bytes
/-!
# Reading settings

Settings from the environment and the files at hand. The file of variables
need not be there, and may be kept from being read; where it is read it must
be a text.
-/

namespace Walkthrough.Settings

/-- The text of the file of variables, empty where there is no such file. -/
def variablesText (tree : FileTree) (path : String) : Except Error String :=
  match tree.read path with
  | .ok bytes =>
    match Text.Utf8.damage? bytes with
    | none => .ok (Text.ofBytes bytes)
    | some d => .error (.noText d)
  | .error e => if e.trouble = .zeroCharacter then .error .badPath else .ok ""

/-- **The settings of an environment and some files,** where the path of the
file of variables may be given, and its bindings are read in some way. -/
def ofFiles (read : String → List EnvFile.Binding) (env : Environment) (tree : FileTree)
    (given : Option String) : Except Error Settings :=
  if EnvFile.isDisabled env then load read env ""
  else
    match variablesText tree (filePath given) with
    | .ok text => load read env text
    | .error e => .error e

end Walkthrough.Settings
