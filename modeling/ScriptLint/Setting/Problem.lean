/-!
# Rejected configuration entries
-/

namespace ScriptLint.Setting

/-- Why a configuration entry was rejected. -/
inductive Problem where
  | unknownOption (name : String)
  | badValue (text : String)
  | badInteger (text : String)
  | validThisInGlobal
deriving DecidableEq

namespace Problem

/-- The text shown to the user. -/
def message : Problem → String
  | unknownOption name => s!"Bad option: '{name}'."
  | badValue _ => "Bad option value."
  | badInteger text => s!"Expected a small integer or 'false' and instead saw '{text}'."
  | validThisInGlobal => "Option 'validthis' can't be used in a global scope."

/-- The stable code. -/
def code : Problem → String
  | unknownOption _ => "E001"
  | badValue _ => "E002"
  | badInteger _ => "E032"
  | validThisInGlobal => "E009"

/-- The offending name or value. -/
def detail? : Problem → Option String
  | unknownOption name => some name
  | badValue text => some text
  | badInteger text => some text
  | validThisInGlobal => none

end Problem

end ScriptLint.Setting
