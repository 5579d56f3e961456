import Aion.Awl.Tokens
import Aion.Library.Fuelled

/-!
# The token stream of the AWL parser

A parser reads from the tokens that are left. Tokens that stand for lines and indentation are
skipped inside parentheses, and so are the dedents that are owed for indents skipped there.
Leading comments and blank lines, which only the parsers of lines collect, are left out.
-/

namespace Aion.Awl

open Fuelled

/-- A refusal of the parser. -/
structure ParseError where
  span : Span
  message : String
  deriving DecidableEq, Repr

/-- The tokens from the current position on, and how they are read. -/
structure Stream where
  rest : List Token
  /-- The line of the last consumed token that is not an indent or a dedent. -/
  lastLine : ℕ
  /-- Parenthesis depth. -/
  bracketDepth : ℕ
  /-- Indents skipped inside parentheses whose dedents are owed. -/
  suppressed : ℕ
  eofSpan : Span

/-- A parser; `none` says that the fuel ran out. -/
abbrev Parser : Type → Type := Comp Stream ParseError

namespace Stream

/-- The stream before its first token. -/
def new (tokens : List Token) (sourceLen eofLine : ℕ) : Stream :=
  ⟨tokens, 0, 0, 0, ⟨sourceLen, sourceLen, eofLine, 1⟩⟩

/-- The loop of `settle`. -/
def settleTokens (bracketDepth : ℕ) : List Token → (lastLine suppressed : ℕ) → List Token × ℕ × ℕ
  | [], lastLine, suppressed => ([], lastLine, suppressed)
  | token :: rest, lastLine, suppressed =>
    match token.kind with
    | .dedent =>
      if 0 < suppressed then settleTokens bracketDepth rest lastLine (suppressed - 1)
      else (token :: rest, lastLine, suppressed)
    | .newline =>
      if 0 < bracketDepth then settleTokens bracketDepth rest token.span.line suppressed
      else (token :: rest, lastLine, suppressed)
    | .indent =>
      if 0 < bracketDepth then settleTokens bracketDepth rest lastLine (suppressed + 1)
      else (token :: rest, lastLine, suppressed)
    | _ => (token :: rest, lastLine, suppressed)

/-- Skips the tokens that are invisible at the current position. -/
def settle (stream : Stream) : Stream :=
  let (rest, lastLine, suppressed) :=
    settleTokens stream.bracketDepth stream.rest stream.lastLine stream.suppressed
  { stream with rest := rest, lastLine := lastLine, suppressed := suppressed }

/-- The end of `next`: the stream behind its first token. -/
def consume (stream : Stream) (token : Token) : Stream :=
  { stream with
    rest := stream.rest.tail
    bracketDepth :=
      match token.kind with
      | .leftParen => stream.bracketDepth + 1
      | .rightParen => stream.bracketDepth - 1
      | _ => stream.bracketDepth
    lastLine :=
      if token.kind = .indent ∨ token.kind = .dedent then stream.lastLine else token.span.line }

end Stream

namespace Parser

/-- The next token, not taken. -/
def peek : Parser (Option Token) := do
  modify Stream.settle
  return (← get).rest.head?

/-- The token after the next one, past what is skipped before the next one. -/
def peekSecond : Parser (Option Token) := do
  modify Stream.settle
  return (← get).rest.tail.head?

/-- Takes the next token. -/
def next : Parser (Option Token) := do
  modify Stream.settle
  match (← get).rest.head? with
  | none => return none
  | some token =>
    modify (Stream.consume · token)
    return some token

/-- Consumes the next token if its kind passes the test. -/
def eat (test : TokenKind → Bool) : Parser (Option Token) := do
  match ← peek with
  | some token => if test token.kind then next else return none
  | none => return none

/-- The next token passes the test. -/
def peekIs (test : TokenKind → Bool) : Parser Bool := do
  return (← peek).any fun token => test token.kind

/-- The span of the next token, or of the end of the input. -/
def peekSpan : Parser Span := do
  return ((← peek).map Token.span).getD (← get).eofSpan

/-- An error at the end of the input. -/
def failAtEof {α : Type} (message : String) : Parser α := do throw ⟨(← get).eofSpan, message⟩

/-- Takes the token that must come next. -/
def expect (want : TokenKind) (message : String) : Parser Token := do
  match ← peek with
  | none => failAtEof message
  | some token =>
    if token.kind ≠ want then throw ⟨token.span, message⟩
    else
      match ← next with
      | some token => return token
      | none => failAtEof message

end Parser

/-- The keywords that are ordinary names where a name is expected. -/
def softKeyword : Keyword → Bool
  | .filter | .map | .sort | .count | .node | .timeout | .retry | .every | .backoff | .empty | .present | .absent => true
  | _ => false

/-- A short description of a kind of token for diagnostics. -/
def describe : TokenKind → String
  | .keyword keyword => "keyword `" ++ keyword.asWord ++ "`"
  | .identifier name => "`" ++ name ++ "`"
  | .typeIdentifier name => "`" ++ name ++ "`"
  | .fieldAccessor name => "`." ++ name ++ "`"
  | .string _ => "a string literal"
  | .rawString _ => "a raw string literal"
  | .jsonBody _ => "a `json \x7b … \x7d` body"
  | .integer value => "`" ++ toString value ++ "`"
  | .float text => "`" ++ text ++ "`"
  | .duration _ _ => "a duration literal"
  | .leftParen => "`(`"
  | .rightParen => "`)`"
  | .leftBrace => "`\x7b`"
  | .rightBrace => "`\x7d`"
  | .leftBracket => "`[`"
  | .rightBracket => "`]`"
  | .colon => "`:`"
  | .comma => "`,`"
  | .arrow => "`->`"
  | .pipe => "`|>`"
  | .bar => "`|`"
  | .question => "`?`"
  | .equal => "`=`"
  | .dotDot => "`..`"
  | .plus => "`+`"
  | .minus => "`-`"
  | .equalEqual => "`==`"
  | .bangEqual => "`!=`"
  | .less => "`<`"
  | .lessEqual => "`<=`"
  | .greater => "`>`"
  | .greaterEqual => "`>=`"
  | .newline => "end of line"
  | .docHeader _ => "a `//!` narration line"
  | .docLine _ => "a `///` doc line"
  | .comment _ => "a comment"
  | .schemaBody _ => "an inline schema body"
  | .indent => "an indented block"
  | .dedent => "end of an indented block"

/-! ### What reading keeps -/

/-- All tokens that are left are of such a kind. -/
def Stream.Holds (P : TokenKind → Prop) (stream : Stream) : Prop :=
  ∀ token ∈ stream.rest, P token.kind

namespace Stream

variable {P : TokenKind → Prop} {stream : Stream}

theorem settleTokens_suffix (bracketDepth : ℕ) (tokens : List Token) (lastLine suppressed : ℕ) :
    (settleTokens bracketDepth tokens lastLine suppressed).1 <:+ tokens := by
  induction tokens generalizing lastLine suppressed with
  | nil => exact List.suffix_rfl
  | cons token rest ih =>
    have hskip (lastLine suppressed : ℕ) : (settleTokens bracketDepth rest lastLine suppressed).1 <:+ token :: rest :=
      (ih lastLine suppressed).trans (List.suffix_cons token rest)
    rw [settleTokens]
    split
    case h_4 => exact List.suffix_rfl
    all_goals
      split
      · exact hskip _ _
      · exact List.suffix_rfl

theorem Holds.settle (h : stream.Holds P) : stream.settle.Holds P :=
  fun token htok => h token ((settleTokens_suffix ..).subset htok)

theorem Holds.consume (h : stream.Holds P) (token : Token) : (stream.consume token).Holds P :=
  fun token htok => h token (List.mem_of_mem_tail htok)

end Stream

namespace Parser

open Comp

variable {P : TokenKind → Prop}

theorem keeps_peek : Keeps (Stream.Holds P) peek fun found => ∀ token ∈ found, P token.kind := by
  intro stream found last hstr hrets
  simp only [peek, returns_bind_iff, returns_modify_iff, returns_get_iff, returns_pure_iff] at hrets
  obtain ⟨_, _, rfl, _, _, ⟨rfl, rfl⟩, rfl, rfl⟩ := hrets
  exact ⟨hstr.settle, fun token htok => hstr.settle token (List.mem_of_mem_head? htok)⟩

theorem keeps_peekSecond :
    Keeps (Stream.Holds P) peekSecond fun found => ∀ token ∈ found, P token.kind := by
  intro stream found last hstr hrets
  simp only [peekSecond, returns_bind_iff, returns_modify_iff, returns_get_iff,
    returns_pure_iff] at hrets
  obtain ⟨_, _, rfl, _, _, ⟨rfl, rfl⟩, rfl, rfl⟩ := hrets
  exact ⟨hstr.settle, fun token htok =>
      hstr.settle token (List.mem_of_mem_tail (List.mem_of_mem_head? htok))⟩

theorem keeps_next : Keeps (Stream.Holds P) next fun found => ∀ token ∈ found, P token.kind := by
  intro stream found last hstr hrets
  simp only [next, returns_bind_iff, returns_modify_iff, returns_get_iff] at hrets
  obtain ⟨_, _, rfl, _, _, ⟨rfl, rfl⟩, hrets⟩ := hrets
  cases htok : stream.settle.rest.head? with
  | none =>
    rw [htok] at hrets
    obtain ⟨rfl, rfl⟩ := returns_pure_iff.mp hrets
    exact ⟨hstr.settle, by simp⟩
  | some token =>
    simp only [htok, returns_bind_iff, returns_modify_iff, returns_pure_iff] at hrets
    obtain ⟨_, _, rfl, rfl, rfl⟩ := hrets
    refine ⟨hstr.settle.consume token, ?_⟩
    rintro _ ⟨⟩
    exact hstr.settle token (List.mem_of_mem_head? htok)

theorem keeps_eat (test : TokenKind → Bool) :
    Keeps (Stream.Holds P) (eat test) fun found => ∀ token ∈ found, P token.kind := by
  refine keeps_peek.bind fun found _ => ?_
  cases found with
  | none => exact keeps_pure (by simp)
  | some token =>
    dsimp only
    split
    · exact keeps_next
    · exact keeps_pure (by simp)

theorem keeps_peekIs (test : TokenKind → Bool) :
    Keeps (Stream.Holds P) (peekIs test) fun _ => True :=
  keeps_peek.bind fun _ _ => keeps_pure trivial

theorem keeps_peekSpan : Keeps (Stream.Holds P) peekSpan fun _ => True :=
  keeps_peek.bind fun _ _ => keeps_get.bind fun _ _ => keeps_pure trivial

theorem keeps_failAtEof {α : Type} {good : α → Prop} {message : String} :
    Keeps (Stream.Holds P) (failAtEof message) good :=
  keeps_get.bind fun _ _ => keeps_throw

theorem keeps_expect (want : TokenKind) (message : String) :
    Keeps (Stream.Holds P) (expect want message) fun _ => True := by
  refine keeps_peek.bind fun found _ => ?_
  cases found with
  | none => exact keeps_failAtEof
  | some token =>
    dsimp only
    split
    · exact keeps_throw
    · refine keeps_next.bind fun found _ => ?_
      cases found with
      | none => exact keeps_failAtEof
      | some token => exact keeps_pure trivial

end Parser

end Aion.Awl
