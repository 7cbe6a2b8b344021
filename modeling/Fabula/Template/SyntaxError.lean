import Fabula.Template.ArgumentList

/-!
# Fabula.Template.SyntaxError

What can be **wrong with the text of a template**, where, and in which words it is told.
-/

namespace Fabula

/-- The kinds of faults in a template. -/
inductive SyntaxError.Kind
  /-- A reference is not closed. -/
  | unterminatedExpansion
  /-- A declaration is not closed. -/
  | unterminatedVariable
  /-- An argument list is not closed. -/
  | unterminatedArguments
  /-- A text in an argument list is not closed. -/
  | unterminatedString
  /-- A closing brace closes nothing. -/
  | unmatchedCloseBrace
  /-- An opening brace stands inside a reference. -/
  | unexpectedOpenBrace
  /-- An equals sign stands inside a reference. -/
  | unexpectedEquals
  /-- An opening parenthesis stands where no argument list can. -/
  | unexpectedOpenParen
  /-- A closing parenthesis closes nothing. -/
  | unmatchedCloseParen
  /-- An argument list is followed by something else than a modifier or the end. -/
  | unexpectedCharacter (found : Char)
  /-- A modifier has no name. -/
  | emptyModifierName
  /-- A declaration has no name. -/
  | emptyVariableName
  /-- No space follows the equals sign of a declaration. -/
  | missingSpaceAfterEquals
  /-- A decorator is closed by a single brace. -/
  | unterminatedDecorator
  /-- An argument list cannot be read. -/
  | invalidArguments (cause : ArgumentList.Cause)
  deriving DecidableEq

/-- The wording of a kind of fault. -/
def SyntaxError.Kind.message : SyntaxError.Kind → String
  | .unterminatedExpansion => "unterminated expansion"
  | .unterminatedVariable => "unterminated variable declaration"
  | .unterminatedArguments => "unterminated argument list"
  | .unterminatedString => "unterminated string literal in argument list"
  | .unmatchedCloseBrace => "unmatched '\x7d'"
  | .unexpectedOpenBrace => "unexpected '\x7b'"
  | .unexpectedEquals => "unexpected '='"
  | .unexpectedOpenParen => "unexpected '('"
  | .unmatchedCloseParen => "unmatched ')'"
  | .unexpectedCharacter c =>
    "unexpected character '" ++ String.singleton c ++ "' after argument list"
  | .emptyModifierName => "empty modifier name"
  | .emptyVariableName => "empty variable name"
  | .missingSpaceAfterEquals => "expected a space after '=' in variable declaration"
  | .unterminatedDecorator => "decorator expansion must be closed with '\x7d\x7d'"
  | .invalidArguments cause => "invalid modifier arguments: " ++ cause.message

/-- A fault in the text of a template. -/
structure SyntaxError where
  /-- What is wrong. -/
  kind : SyntaxError.Kind
  /-- Where, in bytes from the start of the text. -/
  offset : Nat
  /-- The text that was to be read. -/
  text : String
  deriving DecidableEq

/-- The wording of a fault, with its place and the text. -/
def SyntaxError.message (e : SyntaxError) : String :=
  e.kind.message ++ " at offset " ++ toString e.offset ++ " in template " ++ Text.quoted e.text

end Fabula
