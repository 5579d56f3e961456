import Aion.Awl.Syntax

/-!
# The printed form of AWL expressions
-/

namespace Aion.Awl

/-- The text of a string literal, its quotes and escapes included. -/
def stringLiteral (value : String) : String :=
  "\"" ++ String.ofList (value.toList.flatMap escapeChar) ++ "\""
where
  escapeChar : Char → List Char
    | '"' => ['\\', '"']
    | '\\' => ['\\', '\\']
    | '\n' => ['\\', 'n']
    | '\t' => ['\\', 't']
    | ch => [ch]

/-- The text of an operator. -/
def BinaryOp.text : BinaryOp → String
  | .or => "or"
  | .and => "and"
  | .eq => "=="
  | .ne => "!="
  | .lt => "<"
  | .le => "<="
  | .gt => ">"
  | .ge => ">="
  | .concat => "+"

/-- The text of a predicate. -/
def PredicateKind.text : PredicateKind → String
  | .empty => "empty"
  | .present => "present"
  | .absent => "absent"

/-- The text of a quantifier. -/
def Quantifier.text : Quantifier → String
  | .any => "any"
  | .all => "all"

/-- The letter of a unit. -/
def DurationUnit.text : DurationUnit → String
  | .seconds => "s"
  | .minutes => "m"
  | .hours => "h"
  | .days => "d"

/-- The text of a duration. -/
def durationText (duration : DurationLiteral) : String :=
  toString duration.magnitude ++ duration.unit.text

mutual

/-- The canonical printed form of an expression. -/
def exprText : Expr → String
  | .string _ value => stringLiteral value
  | .rawString _ value => "\"\"\"" ++ value ++ "\"\"\""
  | .json _ body _ => "json " ++ body
  | .schemaOf _ name _ => "schema of " ++ name
  | .int _ value => toString value
  | .float _ value => value
  | .bool _ value => toString value
  | .duration literal => durationText literal
  | .list _ items => "[" ++ ", ".intercalate (exprTexts items) ++ "]"
  | .ref _ name => name
  | .variant _ name => name
  | .workflow _ => "workflow"
  | .record _ name _ args => name ++ "(" ++ ", ".intercalate (argTexts args) ++ ")"
  | .field _ base name _ => exprText base ++ "." ++ name
  | .index _ base index _ => exprText base ++ "[" ++ toString index ++ "]"
  | .accessor _ name => "." ++ name
  | .not _ expr => "not " ++ exprText expr
  | .binary _ left op right => exprText left ++ " " ++ op.text ++ " " ++ exprText right
  | .predicate _ subject kind => exprText subject ++ " is " ++ kind.text
  | .collectionPredicate _ collection quantifier predicate =>
    exprText collection ++ " |> " ++ quantifier.text ++ "(" ++ exprText predicate ++ ")"

/-- The texts of expressions. -/
def exprTexts : List Expr → List String
  | [] => []
  | item :: items => exprText item :: exprTexts items

/-- The text of an argument. -/
def argText : Arg → String
  | ⟨_, name, _, value⟩ => name ++ ": " ++ exprText value

/-- The texts of arguments. -/
def argTexts : List Arg → List String
  | [] => []
  | arg :: args => argText arg :: argTexts args

end

end Aion.Awl
