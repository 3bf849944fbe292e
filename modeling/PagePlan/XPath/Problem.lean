/-
# What can be wrong with a query

A query that cannot be read or cannot be evaluated has one problem, the first that is met.
-/

namespace PagePlan.XPath

/-- Why a query has no answer. -/
inductive Problem where
  /-- The text is no expression. -/
  | expression
  /-- A quoted text has no end. -/
  | unfinishedLiteral
  /-- A quoted text was expected. -/
  | literalExpected
  /-- A dollar sign without a name after it. -/
  | variableName
  /-- A predicate without its closing bracket. -/
  | predicate
  /-- A test for a kind of node without its closing parenthesis. -/
  | unclosedTest
  /-- Expressions are nested too deeply. -/
  | nesting
  | unboundVariable
  | unboundQualifier
  | unknownFunction
  /-- A function got too few or too many arguments. -/
  | argumentCount
  /-- Something other than a set of nodes stands where one is needed. -/
  | notNodes
  /-- There is no set of which the size could be asked. -/
  | noSize
  /-- There is no set in which the context node could have a position. -/
  | noPosition
deriving DecidableEq, Repr

/-- The wording of a problem. -/
def Problem.message : Problem → String
  | expression => "Invalid expression"
  | unfinishedLiteral => "Unfinished literal"
  | literalExpected => "Start of literal"
  | variableName => "Expected $ for variable reference"
  | predicate => "Invalid predicate"
  | unclosedTest => "Missing closing curly brace"
  | nesting => "Recursion limit exceeded"
  | unboundVariable => "Undefined variable"
  | unboundQualifier => "Undefined namespace prefix"
  | unknownFunction => "Unregistered function"
  | argumentCount => "Invalid number of arguments"
  | notNodes => "Invalid type"
  | noSize => "Invalid context size"
  | noPosition => "Invalid context position"

end PagePlan.XPath
