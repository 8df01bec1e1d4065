import Interposition.Document.Basic
import Interposition.Text.Letter

/-!
# Interposition.Settings.Variables — settings from the environment

A variable such as `INTERPOSE_LIMITS__FUEL` has the setting `limits.fuel`.
-/

namespace Interposition.Settings

/-- Variables with their values; of one name the last. -/
abbrev Variables :=
  List (String × String)

/-- The value of a variable, if there is one. -/
def Variables.value? (vars : Variables) (name : String) : Option String :=
  vars.reverse.lookup name

/-! ## Names -/

/-- The variable that names the settings file. -/
def fileVariable : String := "INTERPOSE_CONFIG"

/-- What the names of variables with settings start with, in any mix of cases. -/
def variableStart : List Char := "interpose_".toList

/-- Two underscores in the name of a variable stand for a dot. -/
def dotted : List Char → List Char
  | '_' :: '_' :: rest => '.' :: dotted rest
  | c :: rest => c :: dotted rest
  | [] => []

/-- The setting that a variable names. -/
def variableSetting? (name : String) : Option String :=
  let name := name.toList.map Text.lower
  if variableStart.isPrefixOf name then
    some (String.ofList (dotted (name.drop variableStart.length)))
  else none

/-! ## Values -/

/-- The lists among the settings. In a variable their items stand between commas. -/
def listNames : List String :=
  ["artifact.candidates", "subsystem.transform_prefixes", "subsystem.forced_properties"]

/-- The value of a variable: a truth value or a number if it reads as one, a list for the
settings that are lists, else its text. -/
def variableValue (setting value : String) : Document :=
  -- Words and numbers go before lists, so a list of one number is a number.
  let word := Document.asciiLower value
  if word = "true" then .bool true
  else if word = "false" then .bool false
  else
    match Number.parse? value.toList with
    | some n => .number n
    | none =>
      if setting ∈ listNames then .texts (value.splitToList (· = ',')) else .text value

/-- The settings in the environment. -/
def ofVariables (vars : Variables) : List (String × Document) :=
  vars.filterMap fun (name, value) =>
    (variableSetting? name).map fun setting => (setting, variableValue setting value)

end Interposition.Settings
