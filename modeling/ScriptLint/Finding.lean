import ScriptLint.Diagnostic.Basic

/-!
# Findings

Everything the checks can find in a program, with its text, its stable code and its phase.
-/

namespace ScriptLint

/-- Something found in a program. -/
inductive Finding where
  | missingUseStrict
  | strictViolation
  | alreadyDeclared (name : String)
  | constantAssigned (name : String)
  | unmatched (opener : String)
  | expectedToken (expected found : String)
  | unexpected (found : String)
  | expectedIdentifier (found : String)
  | badAssignment
  | unrecoverable (percent : Nat)
  | stopping (percent : Nat)
  | uninsertableSemicolon
  | usedBeforeDefined (name : String)
  | alreadyDefined (name : String)
  | unexpectedUse (operator : String)
  | nanComparison
  | readOnly
  | functionAssigned (name : String)
  | exceptionAssigned
  | unreachable (found jump : String)
  | expressionStatement
  | newSideEffects
  | unnecessarySemicolon
  | missingSemicolon
  | unnecessaryDirective (text : String)
  | emptyBlock
  | outOfScope (name : String)
  | possibleStrictViolation
  | useStrictCompare (operator value : String)
  | multilineString
  | javascriptUrl
  | deleteVariable
  | functionConstructor
  | lowercaseConstructor
  | weirdNew
  | notAConstructor (name : String)
  | avoidArguments (property : String)
  | evalHarmful
  | notAFunction (name : String)
  | missingNew
  | impliedEval
  | dotNotation (key : String)
  | tooManyStatements (count : Nat)
  | tooManyParameters (count : Nat)
  | nestedTooDeeply (depth : Nat)
  | tooComplex (complexity : Nat)
  | redefinition (name : String)
  | initUndefined (name : String)
  | loopFunction
  | assignInCondition
  | withStatement
  | debuggerStatement
  | unfilteredForIn
  | notALabel (word : String)
  | returnAssignment
  | globalUseStrict
  | unused (name : String)
  | lineTooLong
  | deprecated (property : String)
  | notCamelCase (name : String)
  | scriptUrl
  | useDoubleQuote
  | useSingleQuote
  | mixedQuotes
  | strictOctal
  | expectedInstead (expected found : String)
  | notDefined (name : String)
  | definedInOuterScope (name : String)
deriving DecidableEq

namespace Finding

/-- The text shown to the user. -/
def message : Finding → String
  | missingUseStrict => "Missing \"use strict\" statement."
  | strictViolation => "Strict violation."
  | alreadyDeclared name => s!"'{name}' has already been declared."
  | constantAssigned name => s!"Attempting to override '{name}' which is a constant."
  | unmatched opener => s!"Unmatched '{opener}'."
  | expectedToken expected found => s!"Expected '{expected}' and instead saw '{found}'."
  | unexpected found => s!"Unexpected '{found}'."
  | expectedIdentifier found => s!"Expected an identifier and instead saw '{found}'."
  | badAssignment => "Bad assignment."
  | unrecoverable percent => s!"Unrecoverable syntax error. ({percent}% scanned)."
  | stopping percent => s!"Stopping. ({percent}% scanned)."
  | uninsertableSemicolon => "Missing semicolon."
  | usedBeforeDefined name => s!"'{name}' was used before it was defined."
  | alreadyDefined name => s!"'{name}' is already defined."
  | unexpectedUse operator => s!"Unexpected use of '{operator}'."
  | nanComparison => "Use the isNaN function to compare with NaN."
  | readOnly => "Read only."
  | functionAssigned name => s!"'{name}' is a function."
  | exceptionAssigned => "Do not assign to the exception parameter."
  | unreachable found jump => s!"Unreachable '{found}' after '{jump}'."
  | expressionStatement => "Expected an assignment or function call and instead saw an expression."
  | newSideEffects => "Do not use 'new' for side effects."
  | unnecessarySemicolon => "Unnecessary semicolon."
  | missingSemicolon => "Missing semicolon."
  | unnecessaryDirective text => s!"Unnecessary directive \"{text}\"."
  | emptyBlock => "Empty block."
  | outOfScope name => s!"'{name}' used out of scope."
  | possibleStrictViolation => "Possible strict violation."
  | useStrictCompare operator value => s!"Use '{operator}' to compare with '{value}'."
  | multilineString => "Bad escaping of EOL. Use option multistr if needed."
  | javascriptUrl => "JavaScript URL."
  | deleteVariable => "Variables should not be deleted."
  | functionConstructor => "The Function constructor is a form of eval."
  | lowercaseConstructor => "A constructor name should start with an uppercase letter."
  | weirdNew => "Weird construction. Is 'new' necessary?"
  | notAConstructor name => s!"Do not use {name} as a constructor."
  | avoidArguments property => s!"Avoid arguments.{property}."
  | evalHarmful => "eval can be harmful."
  | notAFunction name => s!"{name} is not a function."
  | missingNew => "Missing 'new' prefix when invoking a constructor."
  | impliedEval => "Implied eval. Consider passing a function instead of a string."
  | dotNotation key => s!"['{key}'] is better written in dot notation."
  | tooManyStatements count => s!"This function has too many statements. ({count})"
  | tooManyParameters count => s!"This function has too many parameters. ({count})"
  | nestedTooDeeply depth => s!"Blocks are nested too deeply. ({depth})"
  | tooComplex complexity => s!"This function's cyclomatic complexity is too high. ({complexity})"
  | redefinition name => s!"Redefinition of '{name}'."
  | initUndefined name => s!"It's not necessary to initialize '{name}' to 'undefined'."
  | loopFunction => "Don't make functions within a loop."
  | assignInCondition => "Expected a conditional expression and instead saw an assignment."
  | withStatement => "Don't use 'with'."
  | debuggerStatement => "Forgotten 'debugger' statement?"
  | unfilteredForIn =>
    "The body of a for in should be wrapped in an if statement to filter unwanted "
      ++ "properties from the prototype."
  | notALabel word => s!"'{word}' is not a statement label."
  | returnAssignment => "Did you mean to return a conditional instead of an assignment?"
  | globalUseStrict => "Use the function form of \"use strict\"."
  | unused name => s!"'{name}' is defined but never used."
  | lineTooLong => "Line is too long."
  | deprecated property => s!"The '{property}' property is deprecated."
  | notCamelCase name => s!"Identifier '{name}' is not in camel case."
  | scriptUrl => "Script URL."
  | useDoubleQuote => "Strings must use doublequote."
  | useSingleQuote => "Strings must use singlequote."
  | mixedQuotes => "Mixed double and single quotes."
  | strictOctal => "Octal literals are not allowed in strict mode."
  | expectedInstead expected found => s!"Expected '{expected}' and instead saw '{found}'."
  | notDefined name => s!"'{name}' is not defined."
  | definedInOuterScope name => s!"'{name}' is already defined in outer scope."

/-- The stable code. -/
def code : Finding → String
  | missingUseStrict => "E007"
  | strictViolation => "E008"
  | alreadyDeclared _ => "E011"
  | constantAssigned _ => "E013"
  | unmatched _ => "E019"
  | expectedToken _ _ => "E021"
  | unexpected _ => "E024"
  | expectedIdentifier _ => "E030"
  | badAssignment => "E031"
  | unrecoverable _ => "E041"
  | stopping _ => "E042"
  | uninsertableSemicolon => "E058"
  | usedBeforeDefined _ => "W003"
  | alreadyDefined _ => "W004"
  | unexpectedUse _ => "W016"
  | nanComparison => "W019"
  | readOnly => "W020"
  | functionAssigned _ => "W021"
  | exceptionAssigned => "W022"
  | unreachable _ _ => "W027"
  | expressionStatement => "W030"
  | newSideEffects => "W031"
  | unnecessarySemicolon => "W032"
  | missingSemicolon => "W033"
  | unnecessaryDirective _ => "W034"
  | emptyBlock => "W035"
  | outOfScope _ => "W038"
  | possibleStrictViolation => "W040"
  | useStrictCompare _ _ => "W041"
  | multilineString => "W043"
  | javascriptUrl => "W050"
  | deleteVariable => "W051"
  | functionConstructor => "W054"
  | lowercaseConstructor => "W055"
  | weirdNew => "W057"
  | notAConstructor _ => "W053"
  | avoidArguments _ => "W059"
  | evalHarmful => "W061"
  | notAFunction _ => "W063"
  | missingNew => "W064"
  | impliedEval => "W066"
  | dotNotation _ => "W069"
  | tooManyStatements _ => "W071"
  | tooManyParameters _ => "W072"
  | nestedTooDeeply _ => "W073"
  | tooComplex _ => "W074"
  | redefinition _ => "W079"
  | initUndefined _ => "W080"
  | loopFunction => "W083"
  | assignInCondition => "W084"
  | withStatement => "W085"
  | debuggerStatement => "W087"
  | unfilteredForIn => "W089"
  | notALabel _ => "W090"
  | returnAssignment => "W093"
  | globalUseStrict => "W097"
  | unused _ => "W098"
  | lineTooLong => "W101"
  | deprecated _ => "W103"
  | notCamelCase _ => "W106"
  | scriptUrl => "W107"
  | useDoubleQuote => "W108"
  | useSingleQuote => "W109"
  | mixedQuotes => "W110"
  | strictOctal => "W115"
  | expectedInstead _ _ => "W116"
  | notDefined _ => "W117"
  | definedInOuterScope _ => "W123"

/-- The phase of analysis that makes the finding. -/
def phase : Finding → Phase
  | unmatched _ | expectedToken _ _ | unexpected _ | expectedIdentifier _ | badAssignment
  | uninsertableSemicolon | unrecoverable _ | missingSemicolon | unnecessarySemicolon =>
    .syntactic
  | stopping _ => .configuration
  | _ => .semantic

/-- The finding as a diagnostic at a place. -/
def diagnostic (f : Finding) (line column : Nat) : Diagnostic :=
  { line, column, code := f.code, message := f.message, phase := f.phase }

end Finding

end ScriptLint
