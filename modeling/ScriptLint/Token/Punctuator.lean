/-!
# Operators and delimiters
-/

namespace ScriptLint

/-- The operators and delimiters of the language. -/
inductive Punctuator where
  | shiftRightZeroAssign | spread | identical | notIdentical | powerAssign | shiftLeftAssign
  | shiftRightAssign | shiftRightZero | andAssign | orAssign | coalesceAssign | arrow | equal
  | notEqual | atMost | atLeast | and | or | coalesce | optionalChain | increment | decrement
  | plusAssign | minusAssign | timesAssign | divideAssign | remainderAssign | bitAndAssign
  | bitOrAssign | bitXorAssign | shiftLeft | shiftRight | power | leftBrace | rightBrace
  | leftParen | rightParen | leftBracket | rightBracket | semicolon | comma | less | greater
  | plus | minus | times | divide | remainder | bitAnd | bitOr | bitXor | not | bitNot | question
  | colon | assign | dot
deriving DecidableEq

namespace Punctuator

/-- Every punctuator. A spelling comes before its own beginnings, so the first that fits is the
longest. -/
def all : List Punctuator :=
  [
   .shiftRightZeroAssign, .spread, .identical, .notIdentical, .powerAssign, .shiftLeftAssign,
   .shiftRightAssign, .shiftRightZero, .andAssign, .orAssign, .coalesceAssign, .arrow, .equal,
   .notEqual, .atMost, .atLeast, .and, .or, .coalesce, .optionalChain, .increment, .decrement,
   .plusAssign, .minusAssign, .timesAssign, .divideAssign, .remainderAssign, .bitAndAssign,
   .bitOrAssign, .bitXorAssign, .shiftLeft, .shiftRight, .power, .leftBrace, .rightBrace,
   .leftParen, .rightParen, .leftBracket, .rightBracket, .semicolon, .comma, .less, .greater,
   .plus, .minus, .times, .divide, .remainder, .bitAnd, .bitOr, .bitXor, .not, .bitNot,
   .question, .colon, .assign, .dot]

/-- The spelling in source text. -/
def spelling : Punctuator → String
  | shiftRightZeroAssign => ">>>="
  | spread => "..."
  | identical => "==="
  | notIdentical => "!=="
  | powerAssign => "**="
  | shiftLeftAssign => "<<="
  | shiftRightAssign => ">>="
  | shiftRightZero => ">>>"
  | andAssign => "&&="
  | orAssign => "||="
  | coalesceAssign => "??="
  | arrow => "=>"
  | equal => "=="
  | notEqual => "!="
  | atMost => "<="
  | atLeast => ">="
  | and => "&&"
  | or => "||"
  | coalesce => "??"
  | optionalChain => "?."
  | increment => "++"
  | decrement => "--"
  | plusAssign => "+="
  | minusAssign => "-="
  | timesAssign => "*="
  | divideAssign => "/="
  | remainderAssign => "%="
  | bitAndAssign => "&="
  | bitOrAssign => "|="
  | bitXorAssign => "^="
  | shiftLeft => "<<"
  | shiftRight => ">>"
  | power => "**"
  | leftBrace => "\x7b"
  | rightBrace => "\x7d"
  | leftParen => "("
  | rightParen => ")"
  | leftBracket => "["
  | rightBracket => "]"
  | semicolon => ";"
  | comma => ","
  | less => "<"
  | greater => ">"
  | plus => "+"
  | minus => "-"
  | times => "*"
  | divide => "/"
  | remainder => "%"
  | bitAnd => "&"
  | bitOr => "|"
  | bitXor => "^"
  | not => "!"
  | bitNot => "~"
  | question => "?"
  | colon => ":"
  | assign => "="
  | dot => "."

/-- Assignments that combine the old value with a new one. -/
def isCompoundAssignment : Punctuator → Bool
  | plusAssign | minusAssign | timesAssign | divideAssign | remainderAssign | powerAssign
  | bitAndAssign | bitOrAssign | bitXorAssign | shiftLeftAssign | shiftRightAssign
  | shiftRightZeroAssign | andAssign | orAssign | coalesceAssign => true
  | _ => false

/-- The plain assignment and the compound ones. -/
def isAssignment (p : Punctuator) : Bool :=
  p = assign || p.isCompoundAssignment

/-- Operators on bits, their assignment forms included. -/
def isBitwise : Punctuator → Bool
  | bitAnd | bitOr | bitXor | bitNot | shiftLeft | shiftRight | shiftRightZero
  | bitAndAssign | bitOrAssign | bitXorAssign | shiftLeftAssign | shiftRightAssign
  | shiftRightZeroAssign => true
  | _ => false

/-- The increment and the decrement. -/
def isUpdate : Punctuator → Bool
  | increment | decrement => true
  | _ => false

end Punctuator

end ScriptLint
