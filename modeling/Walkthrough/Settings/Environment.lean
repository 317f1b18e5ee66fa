/-!
# The environment

The variables of the surroundings, by name. A variable that is set to the
empty text is set.
-/

namespace Walkthrough

/-- Variables and their values. -/
abbrev Environment := List (String × String)

namespace Environment

/-- The value of a variable, if it is set. -/
def get? (env : Environment) (name : String) : Option String :=
  (env.find? (·.1 = name)).map (·.2)

/-- A further variable, behind those that are set. -/
def add (env : Environment) (name value : String) : Environment := env ++ [(name, value)]

end Environment

end Walkthrough
