import ScriptLint.Text.Blank

/-!
# Shapes of names and strings

What the checks look for in a name or a string. The letters and digits of these shapes are ASCII.
-/

namespace ScriptLint.Text

/-- Whether a name of ASCII characters can contain the character. -/
def isWordChar (c : Char) : Bool :=
  c.isAlphanum || c == '_' || c == '$'

/-- Capitals, digits, underscores and dollar signs only, as in `MAX_SIZE`. -/
def isConstantCase (name : String) : Bool :=
  name.toList.all fun c => c.isUpper || c.isDigit || c == '_' || c == '$'

/-- A capital alone, or followed by a name with at least one lower-case letter. -/
def looksLikeConstructor (name : String) : Bool :=
  match name.toList with
  | [] => false
  | first :: rest =>
    first.isUpper && (rest.isEmpty || (rest.all isWordChar && rest.any Char.isLower))

/-- A plain ASCII identifier, usable after a dot. -/
def isIdentifierName (name : String) : Bool :=
  match name.toList with
  | [] => false
  | first :: rest => isWordChar first && !first.isDigit && rest.all isWordChar

/-- An underscore inside a name that is not all capitals. -/
def breaksCamelCase (name : String) : Bool :=
  let inner := ((name.toList.dropWhile (· == '_')).reverse.dropWhile (· == '_')).reverse
  inner.contains '_' && !isConstantCase name

/-! ## Script addresses -/

/-- The letter without its case; the long s counts as an s. -/
def foldLetter (c : Char) : Char :=
  if c == '\u017f' then 's' else c.toLower

/-- The address schemes that run a script. -/
def scriptSchemes : List String :=
  ["javascript", "jscript", "ecmascript", "vbscript", "livescript"]

/-- Whether the text starts with the address of a script: white space, a scheme in any case, white
space and a colon. -/
def isScriptUrl (text : String) : Bool :=
  let cs := trimLeft text.toList
  scriptSchemes.any fun scheme =>
    scheme.toList.isPrefixOf (cs.map foldLetter)
      && (trimLeft (cs.drop scheme.length)).head? == some ':'

end ScriptLint.Text
