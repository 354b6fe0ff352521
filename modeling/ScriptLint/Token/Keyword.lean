/-!
# Reserved words
-/

namespace ScriptLint

/-- The reserved words of the language. -/
inductive Keyword where
  | breakWord | caseWord | catchWord | classWord | constWord | continueWord | debuggerWord
  | defaultWord | deleteWord | doWord | elseWord | exportWord | extendsWord | falseWord
  | finallyWord | forWord | functionWord | ifWord | importWord | inWord | instanceofWord
  | letWord | newWord | nullWord | returnWord | superWord | switchWord | thisWord | throwWord
  | trueWord | tryWord | typeofWord | varWord | voidWord | whileWord | withWord
deriving DecidableEq

namespace Keyword

/-- Every reserved word, in alphabetical order. -/
def all : List Keyword :=
  [
   .breakWord, .caseWord, .catchWord, .classWord, .constWord, .continueWord, .debuggerWord,
   .defaultWord, .deleteWord, .doWord, .elseWord, .exportWord, .extendsWord, .falseWord,
   .finallyWord, .forWord, .functionWord, .ifWord, .importWord, .inWord, .instanceofWord,
   .letWord, .newWord, .nullWord, .returnWord, .superWord, .switchWord, .thisWord, .throwWord,
   .trueWord, .tryWord, .typeofWord, .varWord, .voidWord, .whileWord, .withWord]

/-- The spelling in source text. -/
def spelling : Keyword → String
  | breakWord => "break"
  | caseWord => "case"
  | catchWord => "catch"
  | classWord => "class"
  | constWord => "const"
  | continueWord => "continue"
  | debuggerWord => "debugger"
  | defaultWord => "default"
  | deleteWord => "delete"
  | doWord => "do"
  | elseWord => "else"
  | exportWord => "export"
  | extendsWord => "extends"
  | falseWord => "false"
  | finallyWord => "finally"
  | forWord => "for"
  | functionWord => "function"
  | ifWord => "if"
  | importWord => "import"
  | inWord => "in"
  | instanceofWord => "instanceof"
  | letWord => "let"
  | newWord => "new"
  | nullWord => "null"
  | returnWord => "return"
  | superWord => "super"
  | switchWord => "switch"
  | thisWord => "this"
  | throwWord => "throw"
  | trueWord => "true"
  | tryWord => "try"
  | typeofWord => "typeof"
  | varWord => "var"
  | voidWord => "void"
  | whileWord => "while"
  | withWord => "with"

/-- Finds a reserved word by its spelling. -/
def ofWord? (word : String) : Option Keyword :=
  all.find? (·.spelling == word)

/-- Words that stand for a value, so that a slash after them divides. -/
def isValue : Keyword → Bool
  | thisWord | superWord | trueWord | falseWord | nullWord => true
  | _ => false

/-- Words that can only begin a statement. -/
def startsStatement : Keyword → Bool
  | varWord | letWord | constWord | functionWord | ifWord | forWord | whileWord | doWord
  | switchWord | returnWord | breakWord | continueWord | throwWord | tryWord | withWord
  | debuggerWord | classWord => true
  | _ => false

end Keyword

end ScriptLint
