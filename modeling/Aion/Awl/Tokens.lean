import Aion.Awl.Syntax

/-!
# Tokens of AWL

The reserved words, the kinds of tokens with their payloads, and lexical errors.
-/

namespace Aion.Awl

/-- A reserved word. -/
inductive Keyword
  | workflow
  | input
  | signal
  | outcome
  | type
  | schema
  | worker
  | action
  | child
  | step
  | after
  | fork
  | join
  | loop
  | counting
  | until
  | max
  | sequential
  | spawn
  | wait
  | sleep
  | timeout
  | retry
  | every
  | backoff
  | node
  | on
  | failure
  | when
  | otherwise
  | route
  | success
  | filter
  | map
  | sort
  | count
  | any
  | all
  | is
  | empty
  | present
  | absent
  | not
  | and
  | or
  | trueWord
  | falseWord
  | const
  | json
  | of
  | subflow
  | distribute
  | sequence
  | collect
  | visits
  deriving DecidableEq, Repr

/-- The word a keyword lexes from. -/
def Keyword.asWord : Keyword → String
  | .workflow => "workflow"
  | .input => "input"
  | .signal => "signal"
  | .outcome => "outcome"
  | .type => "type"
  | .schema => "schema"
  | .worker => "worker"
  | .action => "action"
  | .child => "child"
  | .step => "step"
  | .after => "after"
  | .fork => "fork"
  | .join => "join"
  | .loop => "loop"
  | .counting => "counting"
  | .until => "until"
  | .max => "max"
  | .sequential => "sequential"
  | .spawn => "spawn"
  | .wait => "wait"
  | .sleep => "sleep"
  | .timeout => "timeout"
  | .retry => "retry"
  | .every => "every"
  | .backoff => "backoff"
  | .node => "node"
  | .on => "on"
  | .failure => "failure"
  | .when => "when"
  | .otherwise => "otherwise"
  | .route => "route"
  | .success => "success"
  | .filter => "filter"
  | .map => "map"
  | .sort => "sort"
  | .count => "count"
  | .any => "any"
  | .all => "all"
  | .is => "is"
  | .empty => "empty"
  | .present => "present"
  | .absent => "absent"
  | .not => "not"
  | .and => "and"
  | .or => "or"
  | .trueWord => "true"
  | .falseWord => "false"
  | .const => "const"
  | .json => "json"
  | .of => "of"
  | .subflow => "subflow"
  | .distribute => "distribute"
  | .sequence => "sequence"
  | .collect => "collect"
  | .visits => "visits"

/-- The keywords, in the order of the table. -/
def Keyword.table : List Keyword :=
  [.workflow, .input, .signal, .outcome, .type, .schema, .worker, .action, .child, .step, .after,
      .fork, .join,
    .loop, .counting, .until, .max, .sequential, .spawn, .wait, .sleep, .timeout, .retry,
      .every, .backoff,
    .node, .on, .failure, .when, .otherwise, .route, .success, .filter, .map, .sort, .count,
      .any, .all, .is,
    .empty, .present, .absent, .not, .and, .or, .trueWord, .falseWord, .const, .json, .of, .subflow,
      .distribute,
    .sequence, .collect, .visits]

/-- The keyword a word is reserved for. -/
def Keyword.fromWord (text : String) : Option Keyword := Keyword.table.find? (·.asWord = text)

@[simp]
theorem Keyword.fromWord_asWord (keyword : Keyword) :
    Keyword.fromWord keyword.asWord = some keyword := by
  cases keyword <;> decide

/-- The kinds of tokens. -/
inductive TokenKind
  | keyword (keyword : Keyword)
  | identifier (name : String)
  | typeIdentifier (name : String)
  | fieldAccessor (name : String)
  | string (value : String)
  | rawString (value : String)
  | integer (value : ℕ)
  | float (lexeme : String)
  | duration (magnitude : ℕ) (unit : DurationUnit)
  | leftParen
  | rightParen
  | leftBrace
  | rightBrace
  | leftBracket
  | rightBracket
  | colon
  | comma
  | arrow
  | pipe
  | bar
  | question
  | equal
  | dotDot
  | plus
  | minus
  | equalEqual
  | bangEqual
  | less
  | lessEqual
  | greater
  | greaterEqual
  | newline
  | docHeader (text : String)
  | docLine (text : String)
  | comment (text : String)
  | schemaBody (body : String)
  | jsonBody (body : String)
  | indent
  | dedent
  deriving DecidableEq, Repr

/-- A token and its place. -/
structure Token where
  kind : TokenKind
  span : Span
  deriving DecidableEq, Repr

/-- A refusal of the lexer. -/
structure LexError where
  span : Span
  message : String
  deriving DecidableEq, Repr

end Aion.Awl
