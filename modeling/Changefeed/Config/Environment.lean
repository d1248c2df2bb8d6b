import Changefeed.Keyed

/-!
# Variables of the environment

An environment is a list of entries, each the name of a variable, an equals sign, and its value. The
value under a name is what follows the name and an equals sign in the first entry that starts with
both. So a name that holds an equals sign itself may reach into the value of a shorter one. The
empty name has no value.
-/

namespace Changefeed

abbrev Environment := List (String × String)

namespace Environment

def entry (name value : String) : List Char := name.toList ++ '=' :: value.toList

def heading (name : String) : List Char := name.toList ++ ['=']

def after? (name : String) (text : List Char) : Option String :=
  if (heading name).isPrefixOf text then some (String.ofList (text.drop (heading name).length))
  else none

def value? (env : Environment) (name : String) : Option String :=
  if name.isEmpty then none else env.findSome? fun v => after? name (entry v.1 v.2)

/-- Sets a variable that is not set yet. A NUL character ends an entry, so no value can hold one. -/
def setNew? (env : Environment) (name value : String) : Option Environment :=
  if (value? env name).isSome then some env
  else if '\x00' ∈ value.toList then none
  else some (Keyed.insert name value env)

end Environment
end Changefeed
