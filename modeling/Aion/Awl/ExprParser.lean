import Aion.Awl.TokenStream

/-!
# Parsing AWL expressions

Expressions by precedence: `or`, `and`, `not`, comparisons and `is` predicates, `+`, and then
field access, indexing and collection predicates on a primary expression. There are no
parentheses for grouping; an expression stands in another one only in the places that have
brackets of their own, so the functions below take the parser of those as a parameter, and those
that are called by `parseNot` and `parseExpr` on the way back to them take these.
-/

namespace Aion.Awl

open Fuelled.Comp Aion.Awl.Parser

/-- From the start of one span to the end of another. -/
def joinSpan (start stop : Span) : Span := ⟨start.start, stop.stop, start.line, start.column⟩

/-- The source span of an expression. -/
def exprSpan : Expr → Span
  | .string span .. | .rawString span .. | .json span .. | .schemaOf span .. | .int span .. | .float
      span .. | .bool span ..
  | .list span .. | .ref span .. | .workflow span | .variant span .. | .record span ..
  | .field span .. | .index span .. | .accessor span .. | .not span .. | .binary span ..
  | .predicate span .. | .collectionPredicate span .. => span
  | .duration literal => literal.span

/-- Two operands joined. -/
def binary (left : Expr) (op : BinaryOp) (right : Expr) : Expr :=
  .binary (joinSpan (exprSpan left) (exprSpan right)) left op right

/-- The operator a token compares by. -/
def comparisonOp : TokenKind → Option BinaryOp
  | .equalEqual => some .eq
  | .bangEqual => some .ne
  | .less => some .lt
  | .lessEqual => some .le
  | .greater => some .gt
  | .greaterEqual => some .ge
  | _ => none

/-- `visits` is a reserved word that reads as a reference. -/
def visitsExpr (span : Span) : Expr := .ref span "visits"

/-! ### Items in brackets -/

/-- One round of the loops of `parse_list` and `parse_args`. A comma may stand behind the last
item. -/
def itemsStep {α : Type} (item : Parser α) (close : TokenKind) (message : String) (items : List α) :
    Parser (List α ⊕ List α × Span) := do
  match ← eat (· = close) with
  | some token => return .inr (items, token.span)
  | none =>
    let items := items ++ [← item]
    match ← eat (· = .comma) with
    | some _ => return .inl items
    | none =>
      let token ← expect close message
      return .inr (items, token.span)

/-- A named argument `name: value`. -/
def parseArg (expr : Parser Expr) : Parser Arg := do
  match ← peek with
  | none => failAtEof "arguments must be named (`name: value`); expected an argument name"
  | some token =>
    match token.kind with
    | .identifier name => named name token.span
    | .keyword keyword =>
      if softKeyword keyword then named keyword.asWord token.span else refuse token
    | _ => refuse token
where
  refuse (token : Token) : Parser Arg :=
    throw ⟨token.span, "arguments must be named (`name: value`), found " ++ describe token.kind⟩
  named (name : String) (nameSpan : Span) : Parser Arg := do
    let _ ← next
    match ← eat (· = .colon) with
    | none => throw ⟨nameSpan, "arguments must be named: write `" ++ name ++ ": <value>`"⟩
    | some _ =>
      let value ← expr
      return ⟨joinSpan nameSpan (exprSpan value), name, nameSpan, value⟩

/-- The arguments behind an opening parenthesis, and the span of the closing one. -/
def parseArgs (fuel : ℕ) (expr : Parser Expr) : Parser (List Arg × Span) :=
  loop (itemsStep (parseArg expr) .rightParen "expected `)` to close the argument list") fuel []

/-- The rest of a list literal. -/
def parseList (fuel : ℕ) (expr : Parser Expr) (opening : Span) : Parser Expr := do
  let (items, close) ← loop (itemsStep expr .rightBracket "expected `]` to close the list literal")
    fuel []
  return .list (joinSpan opening close) items

/-! ### Primary expressions -/

/-- The body of a `json` literal, behind the keyword. -/
def parseJsonLiteral (jsonSpan : Span) : Parser Expr := do
  match ← peek with
  | none => failAtEof "a `json` literal opens its body with `\x7b`, found end of input"
  | some token =>
    match token.kind with
    | .jsonBody body =>
      let _ ← next
      return .json (joinSpan jsonSpan token.span) body token.span
    | _ => throw ⟨token.span, "a `json` literal opens its body with `\x7b`, found " ++ describe token.kind⟩

/-- `of Type`, behind the keyword `schema`. -/
def parseSchemaOf (schemaSpan : Span) : Parser Expr := do
  match ← eat (· = .keyword .of) with
  | none => throw ⟨← peekSpan, "`schema` in an expression takes the form `schema of <Type>`"⟩
  | some _ =>
    match ← peek with
    | none => failAtEof "`schema of` names a TitleCase type, found end of input"
    | some token =>
      match token.kind with
      | .typeIdentifier name =>
        let _ ← next
        return .schemaOf (joinSpan schemaSpan token.span) name token.span
      | _ => throw ⟨token.span, "`schema of` names a TitleCase type, found " ++ describe token.kind⟩

/-- What `parse_primary` does at a token. -/
def primaryAt (fuel : ℕ) (expr : Parser Expr) (token : Token) : Parser Expr :=
  let span := token.span
  match token.kind with
  | .string value => do
    let _ ← next
    return .string span value
  | .rawString value => do
    let _ ← next
    return .rawString span value
  | .keyword .json => do
    let _ ← next
    parseJsonLiteral span
  | .keyword .schema => do
    let _ ← next
    parseSchemaOf span
  | .integer value => do
    let _ ← next
    return .int span value
  | .float text => do
    let _ ← next
    return .float span text
  | .keyword .trueWord => do
    let _ ← next
    return .bool span true
  | .keyword .falseWord => do
    let _ ← next
    return .bool span false
  | .duration magnitude unit => do
    let _ ← next
    return .duration ⟨span, magnitude, unit⟩
  | .leftBracket => do
    let _ ← next
    parseList fuel expr span
  | .identifier name => do
    let _ ← next
    return .ref span name
  | .keyword .workflow => do
    let _ ← next
    return .workflow span
  | .keyword .visits => do
    let _ ← next
    return visitsExpr span
  | .typeIdentifier name => do
    let _ ← next
    if ← peekIs (· = .leftParen) then
      let _ ← next
      let (args, close) ← parseArgs fuel expr
      return .record (joinSpan span close) name span args
    else return .variant span name
  | .fieldAccessor name => do
    let _ ← next
    return .accessor span name
  | other => throw ⟨span, "expected an expression, found " ++ describe other⟩

/-- An operand without its postfixes. -/
def parsePrimary (fuel : ℕ) (expr : Parser Expr) : Parser Expr := do
  match ← peek with
  | none => failAtEof "expected an expression, found end of input"
  | some token => primaryAt fuel expr token

/-! ### Postfix forms -/

/-- The index and the closing bracket. -/
def parseIndex (base : Expr) : Parser Expr := do
  match ← peek with
  | none => failAtEof "indexing is literal-only (`items[0]`); expected an integer literal"
  | some token =>
    match token.kind with
    | .integer index =>
      let _ ← next
      let close ← expect .rightBracket "expected `]` after the index"
      return .index (joinSpan (exprSpan base) close.span) base index token.span
    | other =>
      throw ⟨token.span, "indexing is literal-only (`items[0]`): a computed index of " ++ describe other ++ " is not writable"⟩

/-- A collection predicate, at its pipe. -/
def parseCollectionPredicate (expr : Parser Expr) (collection : Expr) (quantifier : Quantifier) :
    Parser Expr := do
  let _ ← next
  let _ ← next
  let _ ← expect .leftParen "expected `(` after the collection predicate"
  let predicate ← expr
  let close ← expect .rightParen "expected `)` to close the collection predicate"
  return .collectionPredicate (joinSpan (exprSpan collection) close.span) collection
    quantifier predicate

/-- One round of the loop of `parse_postfix`. -/
def postfixStep (expr : Parser Expr) (base : Expr) : Parser (Expr ⊕ Expr) := do
  match ← peek with
  | none => return .inr base
  | some token =>
    match token.kind with
    | .fieldAccessor name =>
      let _ ← next
      return .inl (.field (joinSpan (exprSpan base) token.span) base name token.span)
    | .leftBracket =>
      let _ ← next
      return .inl (← parseIndex base)
    | .pipe =>
      match (← peekSecond).map Token.kind with
      | some (.keyword .any) => return .inl (← parseCollectionPredicate expr base .any)
      | some (.keyword .all) => return .inl (← parseCollectionPredicate expr base .all)
      | _ => return .inr base
    | _ => return .inr base

/-- An operand with its fields and predicates. -/
def parsePostfix (fuel : ℕ) (expr : Parser Expr) : Parser Expr := do
  loop (postfixStep expr) fuel (← parsePrimary fuel expr)

/-! ### Operators -/

/-- One round of the loops of `parse_or`, `parse_and` and `parse_concat`. -/
def chainStep (operand : Parser Expr) (operator : TokenKind) (op : BinaryOp) (left : Expr) :
    Parser (Expr ⊕ Expr) := do
  match ← eat (· = operator) with
  | some _ => return .inl (binary left op (← operand))
  | none => return .inr left

/-- Operands with one operator between them, which associates to the left. -/
def parseChain (fuel : ℕ) (operand : Parser Expr) (operator : TokenKind) (op : BinaryOp) :
    Parser Expr := do
  loop (chainStep operand operator op) fuel (← operand)

/-- A chain of `+`. -/
def parseConcat (fuel : ℕ) (expr : Parser Expr) : Parser Expr :=
  parseChain fuel (parsePostfix fuel expr) .plus .concat

/-- What is behind `is`. -/
def parsePredicate (subject : Expr) : Parser Expr := do
  match ← peek with
  | none => failAtEof "expected `empty`, `present`, or `absent` after `is`"
  | some token =>
    match token.kind with
    | .keyword .empty => tested .empty token.span
    | .keyword .present => tested .present token.span
    | .keyword .absent => tested .absent token.span
    | other => throw ⟨token.span, "expected `empty`, `present`, or `absent` after `is`, found " ++ describe other⟩
where
  tested (kind : PredicateKind) (span : Span) : Parser Expr := do
    let _ ← next
    return .predicate (joinSpan (exprSpan subject) span) subject kind

/-- At most one comparison. -/
def parseComparison (fuel : ℕ) (expr : Parser Expr) : Parser Expr := do
  let left ← parseConcat fuel expr
  match (← peek).bind fun token => comparisonOp token.kind with
  | some op =>
    let _ ← next
    return binary left op (← parseConcat fuel expr)
  | none =>
    match ← eat (· = .keyword .is) with
    | some _ => parsePredicate left
    | none => return left

/-- A chain of `and`. -/
def parseAnd (fuel : ℕ) (not : Parser Expr) : Parser Expr :=
  parseChain fuel not (.keyword .and) .and

/-- A chain of `or`. -/
def parseOr (fuel : ℕ) (not : Parser Expr) : Parser Expr :=
  parseChain fuel (parseAnd fuel not) (.keyword .or) .or

mutual

/-- Any number of `not`s. -/
def parseNot : ℕ → Parser Expr
  | 0 => spent
  | fuel + 1 => do
    match ← eat (· = .keyword .not) with
    | some token =>
      let operand ← parseNot fuel
      return .not (joinSpan token.span (exprSpan operand)) operand
    | none => parseComparison fuel (parseExpr fuel)

/-- A full expression. -/
def parseExpr : ℕ → Parser Expr
  | 0 => spent
  | fuel + 1 => parseOr fuel (parseNot fuel)

end

end Aion.Awl
