import Aion.Awl.ExprGrammar
import Aion.Awl.TokenReading

/-!
# Reading an expression back from its tokens

`exprKinds` is the sequence of tokens that stands for an expression. From a stream that shows
them, with something behind them that does not go on with the expression, `parseExpr` reads a
tree of the grammar back (`reads_parseExpr`), up to the places in the source.

An operand of a left-associative operator is read before it is known that the operator follows, so
what is read of an expression is stated with the loop that goes on behind it (`ReadsThrough`).
-/

namespace Aion.Awl

open Fuelled.Comp Aion.Awl.Parser

/-! ### Trees without places -/

/-- The span that forgets. -/
def noSpan : Span := ⟨0, 0, 0, 0⟩

mutual

/-- The expression with no places of the source in it. -/
def Expr.withoutSpans : Expr → Expr
  | .string _ value => .string noSpan value
  | .rawString _ value => .rawString noSpan value
  | .json _ body _ => .json noSpan body noSpan
  | .schemaOf _ name _ => .schemaOf noSpan name noSpan
  | .int _ value => .int noSpan value
  | .float _ value => .float noSpan value
  | .bool _ value => .bool noSpan value
  | .duration literal => .duration { literal with span := noSpan }
  | .list _ items => .list noSpan (exprsWithoutSpans items)
  | .ref _ name => .ref noSpan name
  | .workflow _ => .workflow noSpan
  | .variant _ name => .variant noSpan name
  | .record _ name _ args => .record noSpan name noSpan (argsWithoutSpans args)
  | .field _ base name _ => .field noSpan base.withoutSpans name noSpan
  | .index _ base index _ => .index noSpan base.withoutSpans index noSpan
  | .accessor _ name => .accessor noSpan name
  | .not _ expr => .not noSpan expr.withoutSpans
  | .binary _ left op right => .binary noSpan left.withoutSpans op right.withoutSpans
  | .predicate _ subject kind => .predicate noSpan subject.withoutSpans kind
  | .collectionPredicate _ collection quantifier predicate =>
    .collectionPredicate noSpan collection.withoutSpans quantifier predicate.withoutSpans

/-- Expressions without their spans. -/
def exprsWithoutSpans : List Expr → List Expr
  | [] => []
  | item :: items => item.withoutSpans :: exprsWithoutSpans items

/-- An argument without its spans. -/
def Arg.withoutSpans : Arg → Arg
  | ⟨_, name, _, value⟩ => ⟨noSpan, name, noSpan, value.withoutSpans⟩

/-- Arguments without their spans. -/
def argsWithoutSpans : List Arg → List Arg
  | [] => []
  | arg :: args => arg.withoutSpans :: argsWithoutSpans args

end

/-! ### The tokens of an expression -/

theorem wordKind_asWord (keyword : Keyword) : wordKind keyword.asWord = .keyword keyword := by
  rw [wordKind, Keyword.fromWord_asWord]

theorem wordKind_of_eq_none {word : String} (h : Keyword.fromWord word = none) :
    wordKind word = .identifier word := by
  rw [wordKind, h]

/-- The token of an operator. -/
def BinaryOp.kind : BinaryOp → TokenKind
  | .or => .keyword .or
  | .and => .keyword .and
  | .eq => .equalEqual
  | .ne => .bangEqual
  | .lt => .less
  | .le => .lessEqual
  | .gt => .greater
  | .ge => .greaterEqual
  | .concat => .plus

/-- The keyword of a predicate. -/
def PredicateKind.keyword : PredicateKind → Keyword
  | .empty => .empty
  | .present => .present
  | .absent => .absent

/-- The keyword of a quantifier. -/
def Quantifier.keyword : Quantifier → Keyword
  | .any => .any
  | .all => .all

mutual

/-- The tokens of a printed expression. -/
def exprKinds : Expr → List TokenKind
  | .string _ value => [.string value]
  | .rawString _ value => [.rawString value]
  | .json _ body _ => [.keyword .json, .jsonBody body]
  | .schemaOf _ name _ => [.keyword .schema, .keyword .of, .typeIdentifier name]
  | .int _ value => [.integer value]
  | .float _ value => [.float value]
  | .bool _ value => [.keyword (if value then .trueWord else .falseWord)]
  | .duration literal => [.duration literal.magnitude literal.unit]
  | .list _ items => .leftBracket :: ([.comma].intercalate (exprsKinds items) ++ [.rightBracket])
  | .ref _ name => [wordKind name]
  | .workflow _ => [.keyword .workflow]
  | .variant _ name => [.typeIdentifier name]
  | .record _ name _ args =>
    .typeIdentifier name :: .leftParen :: ([.comma].intercalate (argsKinds args) ++ [.rightParen])
  | .field _ base name _ => exprKinds base ++ [.fieldAccessor name]
  | .index _ base index _ => exprKinds base ++ [.leftBracket, .integer index, .rightBracket]
  | .accessor _ name => [.fieldAccessor name]
  | .not _ expr => .keyword .not :: exprKinds expr
  | .binary _ left op right => exprKinds left ++ op.kind :: exprKinds right
  | .predicate _ subject kind => exprKinds subject ++ [.keyword .is, .keyword kind.keyword]
  | .collectionPredicate _ collection quantifier predicate =>
    exprKinds collection ++ .pipe :: .keyword quantifier.keyword :: .leftParen ::
      (exprKinds predicate ++ [.rightParen])

/-- The tokens of each expression. -/
def exprsKinds : List Expr → List (List TokenKind)
  | [] => []
  | item :: items => exprKinds item :: exprsKinds items

/-- The tokens of an argument. -/
def argKinds : Arg → List TokenKind
  | ⟨_, name, _, value⟩ => wordKind name :: .colon :: exprKinds value

/-- The tokens of each argument. -/
def argsKinds : List Arg → List (List TokenKind)
  | [] => []
  | arg :: args => argKinds arg :: argsKinds args

end

/-! ### What may follow -/

/-- How tightly a token binds to the expression before it, when it goes on with one. -/
def TokenKind.binding : TokenKind → ℕ
  | .keyword .or => 1
  | .keyword .and => 2
  | .keyword .is | .equalEqual | .bangEqual | .less | .lessEqual | .greater | .greaterEqual => 4
  | .plus => 5
  | .fieldAccessor _ | .leftBracket | .pipe => 6
  | .leftParen => 7
  | _ => 0

/-- What follows does not go on with an expression of this level. -/
def Stops (level : ℕ) (more : List TokenKind) : Prop := ∀ kind ∈ more.head?, kind.binding ≤ level

variable {quantifier : Quantifier} {collection whole : Expr} {nameSpan : Span} {level' : ℕ}

theorem Stops.mono {level : ℕ} {more : List TokenKind} (h : Stops level more)
    (hle : level ≤ level') : Stops level' more :=
  fun kind hkind => (h kind hkind).trans hle

theorem stops_cons {level : ℕ} {kind : TokenKind} {more : List TokenKind}
    (h : kind.binding ≤ level) : Stops level (kind :: more) := by
  rintro _ ⟨⟩
  exact h

theorem BinaryOp.binding_kind (op : BinaryOp) : op.kind.binding = op.level + 1 := by
  cases op <;> rfl

/-! ### Reading back -/

/-- The parser reads the expression, with anything behind it that does not go on at this level. -/
def ReadsExpr (parser : ℕ → Parser Expr) (level : ℕ) (expr : Expr) : Prop :=
  ∀ more, Stops level more → Reads parser (exprKinds expr ++ more) more fun read =>
    read.withoutSpans = expr.withoutSpans

/-- The start and some rounds of the loop read the expression, whatever the loop reads then. -/
def ReadsThrough (start : ℕ → Parser Expr) (step : ℕ → Expr → Parser (Expr ⊕ Expr)) (level : ℕ)
    (expr : Expr) : Prop :=
  ∀ more left good, Stops level more →
    (∀ read, read.withoutSpans = expr.withoutSpans → ReadsLoop step read more left good) →
    Reads (fun fuel => do loop (step fuel) fuel (← start fuel)) (exprKinds expr ++ more) left good

section Loops

variable {start : ℕ → Parser Expr} {step : ℕ → Expr → Parser (Expr ⊕ Expr)} {level : ℕ}
  {expr : Expr}

/-- The start reads the expression, and the loop nothing of it. -/
theorem ReadsExpr.readsThrough (h : ReadsExpr start level expr) :
    ReadsThrough start step level expr := by
  intro more left good hstops hloop
  exact (h more hstops).bind fun read hread => (hloop read hread).attains

/-- The loop ends behind the expression. -/
theorem ReadsThrough.readsExpr (h : ReadsThrough start step (level + 1) expr)
    (hend : ∀ read more, Stops level more → Reads (fun fuel => step fuel read) more more fun next => next = .inr read) :
    ReadsExpr (fun fuel => do loop (step fuel) fuel (← start fuel)) level expr := by
  intro more hstops
  refine h more more _ (hstops.mono (Nat.le_succ level)) fun read hread => readsLoop_of_inr ?_
  refine (hend read more hstops).mono ?_
  rintro _ last ⟨rfl, hlast⟩
  exact ⟨⟨read, rfl, hread⟩, hlast⟩

end Loops

/-! ### Chains -/

section Chains

variable {operand : ℕ → Parser Expr} {op : BinaryOp} {left right : Expr}

/-- A loop of a chain ends where its operator does not follow. -/
theorem reads_chainStep_end {more : List TokenKind} (hstops : Stops op.level more) (read : Expr) :
    Reads (fun fuel => chainStep (operand fuel) op.kind op read) more more fun next =>
      next = .inr read := by
  have hkind : ∀ kind ∈ more.head?, decide (kind = op.kind) = false := by
    intro kind hkind
    have hle := hstops kind hkind
    refine decide_eq_false ?_
    rintro rfl
    rw [op.binding_kind] at hle
    omega
  refine (reads_eat_none hkind).bind ?_
  rintro _ rfl
  exact reads_pure rfl

/-- The chain ends behind the expression. -/
theorem ReadsThrough.readsChain {expr : Expr}
    (h : ReadsThrough operand (fun fuel => chainStep (operand fuel) op.kind op)
        (op.level + 1) expr) :
    ReadsExpr (fun fuel => parseChain fuel (operand fuel) op.kind op) op.level expr :=
  h.readsExpr fun read _ hstops => reads_chainStep_end hstops read

/-- One more operand. -/
theorem ReadsThrough.binary {span : Span}
    (hleft : ReadsThrough operand (fun fuel => chainStep (operand fuel) op.kind op)
        (op.level + 1) left) (hright : ReadsExpr operand (op.level + 1) right) :
    ReadsThrough operand (fun fuel => chainStep (operand fuel) op.kind op) (op.level + 1)
      (.binary span left op right) := by
  intro more final good hstops hloop
  have hkinds : exprKinds (.binary span left op right) ++ more = exprKinds left ++ (op.kind :: (exprKinds right ++ more)) := by
    simp [exprKinds]
  rw [hkinds]
  refine hleft _ _ _ (stops_cons op.binding_kind.le) fun read hread => readsLoop_of_inl ?_ hloop
  refine (reads_eat_some (decide_eq_true rfl)).bind fun found hfd => ?_
  obtain ⟨token, rfl, -⟩ := Option.map_eq_some_iff.mp hfd
  refine (hright more hstops).bind fun other hother => reads_pure ⟨_, rfl, ?_⟩
  rw [Aion.Awl.binary, Expr.withoutSpans, Expr.withoutSpans, hread, hother]

end Chains

/-! ### From level to level -/

variable {lexical : TokenKind → Prop} {expr : Expr}

/-- What is read of an expression by the parser of its level, with the loop behind it where that
level has one. -/
def ReadsAt : ℕ → Expr → Prop
  | 0 =>
    ReadsThrough (fun fuel => parseAnd fuel (parseNot fuel))
      (fun fuel => chainStep (parseAnd fuel (parseNot fuel)) BinaryOp.or.kind .or) 1
  | 1 => ReadsThrough parseNot (fun fuel => chainStep (parseNot fuel) BinaryOp.and.kind .and) 2
  | 2 => ReadsExpr parseNot 2
  | 3 => ReadsExpr (fun fuel => parseComparison fuel (parseExpr fuel)) 3
  | 4 => ReadsThrough (fun fuel => parsePostfix fuel (parseExpr fuel))
      (fun fuel => chainStep (parsePostfix fuel (parseExpr fuel)) BinaryOp.concat.kind .concat) 5
  | _ => ReadsThrough (fun fuel => parsePrimary fuel (parseExpr fuel)) (fun fuel => postfixStep (parseExpr fuel)) 6

theorem reads_postfixStep_end {more : List TokenKind} (hstops : Stops 5 more) (read : Expr) :
    Reads (fun fuel => postfixStep (parseExpr fuel) read) more more fun next =>
      next = .inr read := by
  refine reads_peek.bind fun found hfd => ?_
  cases found with
  | none => exact reads_pure rfl
  | some token =>
    have hbinding := hstops token.kind hfd.symm
    dsimp only
    split
    · rename_i hkind
      simp [hkind, TokenKind.binding] at hbinding
    · rename_i hkind
      simp [hkind, TokenKind.binding] at hbinding
    · rename_i hkind
      simp [hkind, TokenKind.binding] at hbinding
    · exact reads_pure rfl

/-- The parser of the postfix forms. -/
theorem ReadsAt.readsPostfix (h : ReadsAt 5 expr) :
    ReadsExpr (fun fuel => parsePostfix fuel (parseExpr fuel)) 5 expr :=
  ReadsThrough.readsExpr h fun read _ hstops => reads_postfixStep_end hstops read

theorem ReadsAt.readsConcat (h : ReadsAt 4 expr) :
    ReadsExpr (fun fuel => parseConcat fuel (parseExpr fuel)) 4 expr :=
  @ReadsThrough.readsChain _ .concat _ h

theorem ReadsAt.readsAnd (h : ReadsAt 1 expr) :
    ReadsExpr (fun fuel => parseAnd fuel (parseNot fuel)) 1 expr :=
  @ReadsThrough.readsChain _ .and _ h

theorem ReadsAt.readsOr (h : ReadsAt 0 expr) :
    ReadsExpr (fun fuel => parseOr fuel (parseNot fuel)) 0 expr :=
  @ReadsThrough.readsChain _ .or _ h

theorem ReadsAt.readsExpr (h : ReadsAt 0 expr) : ReadsExpr parseExpr 0 expr :=
  fun more hstops => attains_of_succ (h.readsOr more hstops)

/-- A comparison may have no operator. -/
theorem ReadsAt.comparison (h : ReadsAt 4 expr) : ReadsAt 3 expr := by
  intro more hstops
  refine (h.readsConcat more (hstops.mono (by decide))).bind fun read hread => ?_
  refine reads_peek.bind fun found hfd => ?_
  have hnone : (found.bind fun token => comparisonOp token.kind) = none := by
    cases found with
    | none => rfl
    | some token =>
      have hbinding := hstops token.kind hfd.symm
      show comparisonOp token.kind = none
      cases hkind : token.kind <;> first | rfl | simp [hkind, TokenKind.binding] at hbinding
  simp only [hnone]
  have his : ∀ kind ∈ more.head?, decide (kind = .keyword .is) = false := by
    intro kind hkind
    refine decide_eq_false ?_
    rintro rfl
    exact absurd (hstops _ hkind) (by decide)
  refine (reads_eat_none his).bind ?_
  rintro _ rfl
  exact reads_pure hread

/-- A negation may have no `not`. -/
theorem ReadsAt.not (h : ReadsAt 3 expr)
    (hhead : ∀ kind ∈ (exprKinds expr).head?, kind ≠ .keyword .not) (hne : exprKinds expr ≠ []) :
    ReadsAt 2 expr := by
  intro more hstops
  refine attains_of_succ ?_
  have hnot : ∀ kind ∈ (exprKinds expr ++ more).head?, decide (kind = .keyword .not) = false := by
    intro kind hkind
    rw [List.head?_append_of_ne_nil _ hne] at hkind
    exact decide_eq_false (hhead kind hkind)
  refine (reads_eat_none hnot).bind ?_
  rintro _ rfl
  exact h more (hstops.mono (by decide))

/-! ### The first token -/

/-- The first token closes no brackets, and it is no `not` where the expression binds tighter than a
negation. -/
def Begins (expr : Expr) : Prop :=
  ∃ kind rest, exprKinds expr = kind :: rest ∧ kind ≠ .rightBracket ∧
    (3 ≤ expr.level → kind ≠ .keyword .not)

/-- A form that begins with another one. -/
theorem Begins.of_append {more : List TokenKind} (h : Begins expr)
    (hkinds : exprKinds whole = exprKinds expr ++ more)
    (hlevel : 3 ≤ whole.level → 3 ≤ expr.level) : Begins whole := by
  obtain ⟨kind, rest, heq, hbracket, hnot⟩ := h
  exact ⟨kind, rest ++ more, by rw [hkinds, heq, List.cons_append], hbracket, fun h =>
      hnot (hlevel h)⟩

theorem BinaryOp.three_le_leftLevel {op : BinaryOp} (h : 3 ≤ op.level) : 3 ≤ op.leftLevel := by
  cases op <;> simp [BinaryOp.level, BinaryOp.leftLevel] at h ⊢

theorem Grammatical.begins
    (hword : ∀ name, lexical (.identifier name) → Keyword.fromWord name = none)
    (h : Grammatical lexical expr) : Begins expr := by
  induction h with
  | ref hname => exact ⟨_, [], by rw [exprKinds, wordKind, hword _ hname], by simp⟩
  | visits => exact ⟨.keyword .visits, [], by rw [exprKinds]; rfl, by simp⟩
  | bool => exact ⟨_, [], by rw [exprKinds], by split <;> simp⟩
  | not => exact ⟨.keyword .not, _, by rw [exprKinds], by simp [Expr.level]⟩
  | field _ hlevel _ ih =>
    exact ih.of_append (by rw [exprKinds]) fun _ => Nat.le_trans (by decide) hlevel
  | index _ hlevel _ ih =>
    exact ih.of_append (by rw [exprKinds]) fun _ => Nat.le_trans (by decide) hlevel
  | collectionPredicate _ hlevel _ ih =>
    exact ih.of_append (by rw [exprKinds]) fun _ => Nat.le_trans (by decide) hlevel
  | predicate _ hlevel ih =>
    exact ih.of_append (by rw [exprKinds]) fun _ => Nat.le_trans (by decide) hlevel
  | binary _ hlevel _ _ ih =>
    exact ih.of_append (by rw [exprKinds]) fun hop => (BinaryOp.three_le_leftLevel hop).trans hlevel
  | _ => exact ⟨_, _, by rw [exprKinds], by simp⟩

/-- One level lower. -/
theorem ReadsAt.pred {level : ℕ} (h : ReadsAt (level + 1) expr) (hbegins : Begins expr)
    (hlevel : level + 1 ≤ expr.level) : ReadsAt level expr := by
  rcases level with _ | _ | _ | _ | _ | level
  · exact h.readsAnd.readsThrough
  · exact ReadsExpr.readsThrough h
  · obtain ⟨kind, rest, heq, -, hnot⟩ := hbegins
    refine h.not ?_ (by rw [heq]; exact List.cons_ne_nil kind rest)
    rw [heq]
    rintro _ ⟨⟩
    exact hnot hlevel
  · exact h.comparison
  · exact h.readsPostfix.readsThrough
  · exact h

/-- An expression that is read at its own level is read at every lower one. -/
theorem ReadsAt.mono {level : ℕ} (h : ReadsAt level expr) (hbegins : Begins expr)
    (hexpr : level ≤ expr.level) (hle : level' ≤ level) : ReadsAt level' expr := by
  induction hle using Nat.decreasingInduction with
  | self => exact h
  | of_succ lower hlower ih => exact ih.pred hbegins (hlower.trans_le hexpr)

/-! ### Items in brackets -/

section Items

variable {α : Type} {item : ℕ → Parser α} {close : TokenKind} {kindsOf : α → List TokenKind}
  {bare : α → α}

/-- The loop over the items reads them, up to the closing bracket. -/
theorem readsLoop_items {items : List α} (message : String) (hclose : close ≠ .comma)
    (hitem : ∀ expected ∈ items, ∀ next more, next = .comma ∨ next = close →
        Reads item (kindsOf expected ++ next :: more) (next :: more) fun read =>
      bare read = bare expected)
    (hhead : ∀ expected ∈ items, ∃ kind rest, kindsOf expected = kind :: rest ∧ kind ≠ close)
    (more : List TokenKind) (done : List α) :
    ReadsLoop (fun fuel => itemsStep (item fuel) close message) done
      ([.comma].intercalate (items.map kindsOf) ++ close :: more) more
      fun found => found.1.map bare = done.map bare ++ items.map bare := by
  induction items generalizing done with
  | nil =>
    refine readsLoop_of_inr ((reads_eat_some (decide_eq_true rfl)).bind fun found hfd => ?_)
    obtain ⟨token, rfl, -⟩ := Option.map_eq_some_iff.mp hfd
    exact reads_pure ⟨_, rfl, by simp⟩
  | cons expected rest ih =>
    obtain ⟨kind, kinds, heq, hkind⟩ := hhead expected List.mem_cons_self
    have hfst (next : TokenKind) (more : List TokenKind) :
        ∀ kind ∈ (kindsOf expected ++ next :: more).head?, decide (kind = close) = false := by
      rw [heq]
      rintro _ ⟨⟩
      exact decide_eq_false hkind
    cases rest with
    | nil =>
      rw [List.map_singleton, List.intercalate_singleton]
      refine readsLoop_of_inr ((reads_eat_none (hfst close more)).bind ?_)
      rintro _ rfl
      refine (hitem expected List.mem_cons_self close more (.inr rfl)).bind fun read hread => ?_
      have hcomma : ∀ kind ∈ (close :: more).head?, decide (kind = .comma) = false := by
        rintro _ ⟨⟩
        exact decide_eq_false hclose
      refine (reads_eat_none hcomma).bind ?_
      rintro _ rfl
      refine (reads_expect message).bind fun token _ => reads_pure ⟨_, rfl, ?_⟩
      simp [hread]
    | cons next rest =>
      have hkinds : [.comma].intercalate ((expected :: next :: rest).map kindsOf) ++ close :: more =
          kindsOf expected ++ .comma :: ([.comma].intercalate ((next :: rest).map kindsOf) ++ close :: more) := by
        simp
      have hrest := ih (fun other hother => hitem other (List.mem_cons_of_mem _ hother))
        fun other hother => hhead other (List.mem_cons_of_mem _ hother)
      have hround : Reads (fun fuel => itemsStep (item fuel) close message done)
          (kindsOf expected ++ .comma :: ([.comma].intercalate ((next :: rest).map kindsOf) ++ close :: more))
          ([.comma].intercalate ((next :: rest).map kindsOf) ++ close :: more)
          fun next => ∃ items, next = .inl items ∧ items.map bare = done.map bare ++ [bare expected] := by
        refine (reads_eat_none (hfst _ _)).bind ?_
        rintro _ rfl
        refine (hitem expected List.mem_cons_self .comma _ (.inl rfl)).bind fun read hread => ?_
        refine (reads_eat_some (decide_eq_true rfl)).bind fun found hfd => ?_
        obtain ⟨token, rfl, -⟩ := Option.map_eq_some_iff.mp hfd
        exact reads_pure ⟨_, rfl, by simp [hread]⟩
      rw [hkinds]
      refine readsLoop_of_inl hround fun items hitems => ?_
      have hloop := hrest items
      rw [hitems] at hloop
      simpa using hloop

end Items

theorem exprsKinds_eq_map (items : List Expr) : exprsKinds items = items.map exprKinds := by
  induction items with
  | nil => rw [exprsKinds, List.map_nil]
  | cons item items ih => rw [exprsKinds, ih, List.map_cons]

theorem argsKinds_eq_map (args : List Arg) : argsKinds args = args.map argKinds := by
  induction args with
  | nil => rw [argsKinds, List.map_nil]
  | cons arg args ih => rw [argsKinds, ih, List.map_cons]

theorem exprsWithoutSpans_eq_map (items : List Expr) :
    exprsWithoutSpans items = items.map Expr.withoutSpans := by
  induction items with
  | nil => rw [exprsWithoutSpans, List.map_nil]
  | cons item items ih => rw [exprsWithoutSpans, ih, List.map_cons]

theorem argsWithoutSpans_eq_map (args : List Arg) :
    argsWithoutSpans args = args.map Arg.withoutSpans := by
  induction args with
  | nil => rw [argsWithoutSpans, List.map_nil]
  | cons arg args ih => rw [argsWithoutSpans, ih, List.map_cons]

theorem argKinds_head (arg : Arg) :
    ∃ kind rest, argKinds arg = kind :: rest ∧ kind ≠ .rightParen := by
  obtain ⟨span, name, nameSpan, value⟩ := arg
  refine ⟨wordKind name, .colon :: exprKinds value, by rw [argKinds], ?_⟩
  rw [wordKind]
  split <;> simp

/-- The parser of list items and argument values. -/
theorem ReadsAt.readsItem (h : ReadsAt expr.level expr) (hbegins : Begins expr) {next : TokenKind}
    (hnext : next.binding = 0) (more : List TokenKind) :
    Reads parseExpr (exprKinds expr ++ next :: more) (next :: more) fun read =>
      read.withoutSpans = expr.withoutSpans :=
  (h.mono hbegins le_rfl (Nat.zero_le _)).readsExpr _ (stops_cons hnext.le)

/-- An argument. -/
theorem reads_parseArg {arg : Arg}
    (hword : ∀ name, lexical (.identifier name) → Keyword.fromWord name = none)
    (hname : ArgName lexical arg.name) (hval : ReadsAt arg.value.level arg.value)
    (hbegins : Begins arg.value) {next : TokenKind} (hnext : next.binding = 0)
    (more : List TokenKind) :
    Reads (fun fuel => parseArg (parseExpr fuel)) (argKinds arg ++ next :: more) (next :: more)
      fun read => read.withoutSpans = arg.withoutSpans := by
  obtain ⟨span, name, nameSpan, value⟩ := arg
  have hnamed (span : Span) : Reads (fun fuel => parseArg.named (parseExpr fuel) name span)
      (wordKind name :: .colon :: (exprKinds value ++ next :: more)) (next :: more)
      fun read => read.withoutSpans = Arg.withoutSpans ⟨span, name, nameSpan, value⟩ := by
    refine reads_next.bind fun _ _ => (reads_eat_some (decide_eq_true rfl)).bind fun found hfd => ?_
    obtain ⟨token, rfl, -⟩ := Option.map_eq_some_iff.mp hfd
    refine (hval.readsItem hbegins hnext more).bind fun read hread => reads_pure ?_
    simp only [Arg.withoutSpans, hread]
  rw [argKinds]
  refine reads_peek.bind fun found hfd => ?_
  obtain ⟨token, rfl, hkind⟩ := Option.map_eq_some_iff.mp hfd
  cases hname with
  | identifier hname =>
    have hidentifier : token.kind = .identifier name :=
      hkind.trans (wordKind_of_eq_none (hword name hname))
    simp only [hidentifier]
    exact hnamed token.span
  | @soft keyword hsoft =>
    have hkeyword : token.kind = .keyword keyword := hkind.trans (wordKind_asWord keyword)
    simp only [hkeyword, hsoft, if_true]
    exact hnamed token.span

/-! ### Primary and postfix forms -/

theorem reads_parsePrimary {kind : TokenKind} {shown left : List TokenKind} {good : Expr → Prop}
    (h : ∀ token, token.kind = kind →
        Reads (fun fuel => primaryAt fuel (parseExpr fuel) token) (kind :: shown) left good) :
    Reads (fun fuel => parsePrimary fuel (parseExpr fuel)) (kind :: shown) left good := by
  refine reads_peek.bind fun found hfd => ?_
  obtain ⟨token, rfl, hkind⟩ := Option.map_eq_some_iff.mp hfd
  exact h token hkind

/-- A form of one token. -/
theorem readsAt_leaf {kind : TokenKind} (leaf : Span → Expr) (hkinds : exprKinds expr = [kind])
    (hleaf : ∀ span, (leaf span).withoutSpans = expr.withoutSpans)
    (hprim : ∀ fuel token, token.kind = kind →
      primaryAt fuel (parseExpr fuel) token = (do let _ ← next; return leaf token.span : Parser Expr)) : ReadsAt 5 expr := by
  refine ReadsExpr.readsThrough fun more _ => ?_
  rw [hkinds]
  refine reads_parsePrimary fun token hkind => ?_
  simp only [hprim _ token hkind]
  exact reads_next.bind fun _ _ => reads_pure (hleaf token.span)

/-- One more postfix form. -/
theorem ReadsAt.extend (shown : List TokenKind) (h : ReadsAt 5 expr)
    (hkinds : exprKinds whole = exprKinds expr ++ shown) (hshown : ∀ more, Stops 6 (shown ++ more))
    (hstep : ∀ read more, read.withoutSpans = expr.withoutSpans →
        Reads (fun fuel => postfixStep (parseExpr fuel) read) (shown ++ more) more fun next =>
      ∃ read, next = .inl read ∧ read.withoutSpans = whole.withoutSpans) : ReadsAt 5 whole := by
  intro more left good _ hloop
  rw [hkinds, List.append_assoc]
  exact h _ _ _ (hshown more) fun read hread => readsLoop_of_inl (hstep read more hread) hloop

theorem readsAt_json {span bodySpan : Span} {body : String} :
    ReadsAt 5 (.json span body bodySpan) := by
  refine ReadsExpr.readsThrough fun more _ => ?_
  rw [exprKinds]
  refine reads_parsePrimary fun token hkind => ?_
  simp only [primaryAt, hkind]
  refine reads_next.bind fun _ _ => reads_peek.bind fun found hfd => ?_
  obtain ⟨bodyToken, rfl, hbody⟩ := Option.map_eq_some_iff.mp hfd
  simp only [hbody]
  exact reads_next.bind fun _ _ => reads_pure (by simp only [Expr.withoutSpans])

theorem readsAt_schemaOf {span : Span} {name : String} :
    ReadsAt 5 (.schemaOf span name nameSpan) := by
  refine ReadsExpr.readsThrough fun more _ => ?_
  rw [exprKinds]
  refine reads_parsePrimary fun token hkind => ?_
  simp only [primaryAt, hkind]
  refine reads_next.bind fun _ _ => (reads_eat_some (decide_eq_true rfl)).bind fun found hfd => ?_
  obtain ⟨_, rfl, -⟩ := Option.map_eq_some_iff.mp hfd
  refine reads_peek.bind fun found hfd => ?_
  obtain ⟨nameToken, rfl, hname⟩ := Option.map_eq_some_iff.mp hfd
  simp only [hname]
  exact reads_next.bind fun _ _ => reads_pure (by simp only [Expr.withoutSpans])

theorem readsAt_list {span : Span} {items : List Expr} (hbegins : ∀ item ∈ items, Begins item)
    (hitems : ∀ item ∈ items, ReadsAt item.level item) : ReadsAt 5 (.list span items) := by
  refine ReadsExpr.readsThrough fun more _ => ?_
  rw [exprKinds, exprsKinds_eq_map, List.cons_append, List.append_assoc]
  refine reads_parsePrimary fun token hkind => ?_
  simp only [primaryAt, hkind]
  refine reads_next.bind fun _ _ => ?_
  have hloop := readsLoop_items "expected `]` to close the list literal" (by decide : TokenKind.rightBracket ≠ .comma)
    (fun item hitem next more hnext =>
        (hitems item hitem).readsItem (hbegins item hitem)
      (by rcases hnext with rfl | rfl <;> rfl) more)
    (fun item hitem => by obtain ⟨kind, rest, heq, hkind, -⟩ := hbegins item hitem; exact ⟨kind, rest, heq, hkind⟩) more []
  refine Reads.bind hloop.attains fun found hfd => reads_pure ?_
  simp [Expr.withoutSpans, exprsWithoutSpans_eq_map, hfd]

theorem readsAt_variant {span : Span} {name : String} : ReadsAt 5 (.variant span name) := by
  refine ReadsExpr.readsThrough fun more hstops => ?_
  rw [exprKinds, List.singleton_append]
  refine reads_parsePrimary fun token hkind => ?_
  simp only [primaryAt, hkind]
  refine reads_next.bind fun _ _ => (reads_peekIs _).bind ?_
  have hopens : (more.head?.any fun kind => decide (kind = .leftParen)) = false := by
    cases hhead : more.head? with
    | none => rfl
    | some kind =>
      refine decide_eq_false ?_
      rintro rfl
      exact absurd (hstops _ hhead) (by decide)
  rintro _ rfl
  simp only [hopens, Bool.false_eq_true, if_false]
  exact reads_pure (by simp only [Expr.withoutSpans])

theorem readsAt_record {span : Span} {name : String} {args : List Arg}
    (hword : ∀ name, lexical (.identifier name) → Keyword.fromWord name = none)
    (hnames : ∀ arg ∈ args, ArgName lexical arg.name) (hbegins : ∀ arg ∈ args, Begins arg.value)
    (hvalues : ∀ arg ∈ args, ReadsAt arg.value.level arg.value) :
    ReadsAt 5 (.record span name nameSpan args) := by
  refine ReadsExpr.readsThrough fun more _ => ?_
  rw [exprKinds, argsKinds_eq_map, List.cons_append, List.cons_append, List.append_assoc]
  refine reads_parsePrimary fun token hkind => ?_
  simp only [primaryAt, hkind]
  refine reads_next.bind fun _ _ => (reads_peekIs _).bind ?_
  rintro _ rfl
  refine reads_next.bind fun _ _ => ?_
  have hloop := readsLoop_items "expected `)` to close the argument list" (by decide : TokenKind.rightParen ≠ .comma)
    (fun arg harg next more hnext =>
      reads_parseArg hword (hnames arg harg) (hvalues arg harg) (hbegins arg harg)
        (by rcases hnext with rfl | rfl <;> rfl) more)
    (fun arg _ => argKinds_head arg) more []
  refine Reads.bind hloop.attains fun found hfd => reads_pure ?_
  simp [Expr.withoutSpans, argsWithoutSpans_eq_map, hfd]

theorem reads_parseIndex {base read : Expr} {span indexSpan : Span} {index : ℕ}
    {more : List TokenKind} (hread : read.withoutSpans = base.withoutSpans) :
    Reads (fun _ => parseIndex read) (.integer index :: .rightBracket :: more) more
      fun result => result.withoutSpans = (Expr.index span base index indexSpan).withoutSpans := by
  refine reads_peek.bind fun found hfd => ?_
  obtain ⟨token, rfl, hkind⟩ := Option.map_eq_some_iff.mp hfd
  simp only [hkind]
  refine reads_next.bind fun _ _ => (reads_expect _).bind fun _ _ => reads_pure ?_
  simp only [Expr.withoutSpans, hread]

theorem reads_parseCollectionPredicate {predicate read : Expr} {span : Span} {more : List TokenKind}
    (hread : read.withoutSpans = collection.withoutSpans)
    (hpred : ReadsAt predicate.level predicate) (hbegins : Begins predicate) :
    Reads (fun fuel => parseCollectionPredicate (parseExpr fuel) read quantifier)
      (.pipe :: .keyword quantifier.keyword :: .leftParen ::
          (exprKinds predicate ++ .rightParen :: more)) more
      fun result => result.withoutSpans =
        (Expr.collectionPredicate span collection quantifier predicate).withoutSpans := by
  refine reads_next.bind fun _ _ => reads_next.bind fun _ _ => (reads_expect _).bind fun _ _ => ?_
  refine (hpred.readsItem hbegins rfl more).bind fun inner hinner =>
    (reads_expect _).bind fun _ _ => reads_pure ?_
  simp only [Expr.withoutSpans, hread, hinner]

theorem readsAt_collectionPredicate {predicate : Expr} {span : Span} (hcoll : ReadsAt 5 collection)
    (hpred : ReadsAt predicate.level predicate) (hbegins : Begins predicate) :
    ReadsAt 5 (.collectionPredicate span collection quantifier predicate) := by
  refine hcoll.extend (.pipe :: .keyword quantifier.keyword :: .leftParen ::
      (exprKinds predicate ++ [.rightParen]))
    (by rw [exprKinds]) (fun _ => stops_cons le_rfl) fun read more hread => ?_
  simp only [List.cons_append, List.append_assoc, List.nil_append]
  refine reads_peek.bind fun found hfd => ?_
  obtain ⟨token, rfl, hkind⟩ := Option.map_eq_some_iff.mp hfd
  simp only [hkind]
  refine reads_peekSecond.bind fun second hsnd => ?_
  have hinner : Reads (fun fuel => (do return .inl (← parseCollectionPredicate (parseExpr fuel) read quantifier) : Parser (Expr ⊕ Expr)))
      (.pipe :: .keyword quantifier.keyword :: .leftParen :: (exprKinds predicate ++ .rightParen :: more)) more
      fun next : Expr ⊕ Expr => ∃ result : Expr, next = .inl result ∧
        result.withoutSpans = (Expr.collectionPredicate span collection quantifier predicate).withoutSpans :=
    (reads_parseCollectionPredicate hread hpred hbegins).bind fun result hres =>
      reads_pure ⟨result, rfl, hres⟩
  simp only [hsnd, List.tail_cons, List.head?_cons]
  cases quantifier <;> exact hinner

/-- A comparison with an operator. -/
theorem readsAt_comparison {span : Span} {left right : Expr} {op : BinaryOp}
    (hop : comparisonOp op.kind = some op) (hleft : ReadsAt 4 left) (hright : ReadsAt 4 right) :
    ReadsAt 3 (.binary span left op right) := by
  intro more hstops
  rw [exprKinds, List.append_assoc, List.cons_append]
  have hbinding : op.kind.binding ≤ 4 := by rw [op.binding_kind, (levels_of_comparisonOp hop).1]
  refine (hleft.readsConcat _ (stops_cons hbinding)).bind fun read hread =>
    reads_peek.bind fun found hfd => ?_
  obtain ⟨token, rfl, hkind⟩ := Option.map_eq_some_iff.mp hfd
  simp only [Option.bind_some, hkind, hop]
  refine reads_next.bind fun _ _ => (hright.readsConcat more (hstops.mono (by decide))).bind
    fun other hother => reads_pure ?_
  rw [binary, Expr.withoutSpans, Expr.withoutSpans, hread, hother]

theorem readsAt_predicate {span : Span} {subject : Expr} {kind : PredicateKind}
    (hsubject : ReadsAt 4 subject) : ReadsAt 3 (.predicate span subject kind) := by
  intro more _
  rw [exprKinds, List.append_assoc]
  refine (hsubject.readsConcat _ (stops_cons le_rfl)).bind fun read hread =>
    reads_peek.bind fun found hfd => ?_
  obtain ⟨token, rfl, hkind⟩ := Option.map_eq_some_iff.mp hfd
  simp only [Option.bind_some, hkind, comparisonOp]
  refine (reads_eat_some (decide_eq_true rfl)).bind fun found hfd => ?_
  obtain ⟨_, rfl, -⟩ := Option.map_eq_some_iff.mp hfd
  refine reads_peek.bind fun found hfd => ?_
  obtain ⟨kindToken, rfl, hkindToken⟩ := Option.map_eq_some_iff.mp hfd
  have htested : Reads (fun _ => parsePredicate.tested read kind kindToken.span)
    (.keyword kind.keyword :: more) more
      fun result => result.withoutSpans = (Expr.predicate span subject kind).withoutSpans :=
    reads_next.bind fun _ _ => reads_pure (by simp only [Expr.withoutSpans, hread])
  cases kind <;> simp only [hkindToken, PredicateKind.keyword] <;> exact htested

theorem readsAt_binary {span : Span} {left right : Expr} {op : BinaryOp}
    (hleft : ReadsAt op.leftLevel left) (hright : ReadsAt op.rightLevel right) :
    ReadsAt op.level (.binary span left op right) := by
  cases op with
  | or => exact @ReadsThrough.binary _ .or _ _ _ hleft hright.readsAnd
  | and => exact @ReadsThrough.binary _ .and _ _ _ hleft hright
  | concat => exact @ReadsThrough.binary _ .concat _ _ _ hleft hright.readsPostfix
  | _ => exact readsAt_comparison rfl hleft hright

/-- **An expression of the grammar is read back** by the parser of its level. -/
theorem Grammatical.readsAt
    (hword : ∀ name, lexical (.identifier name) → Keyword.fromWord name = none)
    (h : Grammatical lexical expr) : ReadsAt expr.level expr := by
  induction h with
  | @string _ value =>
    exact readsAt_leaf (.string · value) (by rw [exprKinds])
      (fun _ => by simp only [Expr.withoutSpans])
      fun _ _ hkind => by simp only [primaryAt, hkind]
  | @rawString _ value =>
    exact readsAt_leaf (.rawString · value) (by rw [exprKinds])
      (fun _ => by simp only [Expr.withoutSpans])
      fun _ _ hkind => by simp only [primaryAt, hkind]
  | json => exact readsAt_json
  | schemaOf => exact readsAt_schemaOf
  | @int _ value =>
    exact readsAt_leaf (.int · value) (by rw [exprKinds])
      (fun _ => by simp only [Expr.withoutSpans])
      fun _ _ hkind => by simp only [primaryAt, hkind]
  | @float _ value =>
    exact readsAt_leaf (.float · value) (by rw [exprKinds])
      (fun _ => by simp only [Expr.withoutSpans])
      fun _ _ hkind => by simp only [primaryAt, hkind]
  | @bool _ value =>
    refine readsAt_leaf (.bool · value) (by rw [exprKinds])
      (fun _ => by simp only [Expr.withoutSpans]) fun _ _ hkind => ?_
    cases value <;> simp only [primaryAt, hkind] <;> rfl
  | @duration literal =>
    exact readsAt_leaf (.duration ⟨·, literal.magnitude, literal.unit⟩) (by rw [exprKinds])
      (fun _ => by simp only [Expr.withoutSpans])
      fun _ _ hkind => by simp only [primaryAt, hkind]
  | list hitems ih => exact readsAt_list (fun item hitem => (hitems item hitem).begins hword) ih
  | @ref _ name hname =>
    have hkinds := wordKind_of_eq_none (hword name hname)
    exact readsAt_leaf (.ref · name) (by rw [exprKinds, hkinds])
      (fun _ => by simp only [Expr.withoutSpans])
      fun _ _ hkind => by simp only [primaryAt, hkind]
  | visits =>
    have hvisits : wordKind "visits" = .keyword .visits := wordKind_asWord .visits
    exact readsAt_leaf visitsExpr (by rw [exprKinds, hvisits])
      (fun _ => by simp only [visitsExpr, Expr.withoutSpans])
      fun _ _ hkind => by simp only [primaryAt, hkind]
  | workflow =>
    exact readsAt_leaf .workflow (by rw [exprKinds]) (fun _ => by simp only [Expr.withoutSpans])
      fun _ _ hkind => by simp only [primaryAt, hkind]
  | variant => exact readsAt_variant
  | @accessor _ name =>
    exact readsAt_leaf (.accessor · name) (by rw [exprKinds])
      (fun _ => by simp only [Expr.withoutSpans])
      fun _ _ hkind => by simp only [primaryAt, hkind]
  | record _ hnames hvalues ih =>
    exact readsAt_record hword hnames (fun arg harg => (hvalues arg harg).begins hword) ih
  | @field _ _ base name hbase hlevel _ ih =>
    refine (ih.mono (hbase.begins hword) le_rfl hlevel).extend [.fieldAccessor name]
      (by rw [exprKinds]) (fun _ => stops_cons le_rfl)
      fun read more hread => reads_peek.bind fun found hfd => ?_
    obtain ⟨token, rfl, hkind⟩ := Option.map_eq_some_iff.mp hfd
    simp only [hkind]
    exact reads_next.bind fun _ _ => reads_pure ⟨_, rfl, by simp only [Expr.withoutSpans, hread]⟩
  | @index _ _ base index hbase hlevel _ ih =>
    refine (ih.mono (hbase.begins hword) le_rfl hlevel).extend [.leftBracket, .integer index,
        .rightBracket] (by rw [exprKinds])
      (fun _ => stops_cons le_rfl) fun read more hread => reads_peek.bind fun found hfd => ?_
    obtain ⟨token, rfl, hkind⟩ := Option.map_eq_some_iff.mp hfd
    simp only [hkind]
    refine reads_next.bind fun _ _ => Reads.bind (reads_parseIndex hread) fun result hres =>
      reads_pure ⟨_, rfl, hres⟩
  | @not _ expr hexpr hlevel ih =>
    intro more hstops
    rw [exprKinds, List.cons_append]
    refine attains_of_succ ((reads_eat_some (decide_eq_true rfl)).bind fun found hfd => ?_)
    obtain ⟨token, rfl, -⟩ := Option.map_eq_some_iff.mp hfd
    refine Reads.bind (ih.mono (hexpr.begins hword) le_rfl hlevel more hstops) fun read hread =>
      reads_pure ?_
    simp only [Expr.withoutSpans, hread]
  | binary hleft hleftLevel hright hrightLevel ihLeft ihRight =>
    exact readsAt_binary (ihLeft.mono (hleft.begins hword) le_rfl hleftLevel)
      (ihRight.mono (hright.begins hword) le_rfl hrightLevel)
  | predicate hsubject hlevel ih =>
    exact readsAt_predicate (ih.mono (hsubject.begins hword) le_rfl hlevel)
  | collectionPredicate hcoll hlevel hpred ihCollection ihPredicate =>
    exact readsAt_collectionPredicate
      (ihCollection.mono (hcoll.begins hword) le_rfl hlevel) ihPredicate (hpred.begins hword)

/-- **A tree of the grammar is read back from its tokens**, up to places, with nothing left. -/
theorem Grammatical.reads_parseExpr
    (hword : ∀ name, lexical (.identifier name) → Keyword.fromWord name = none)
    (h : Grammatical lexical expr) :
    Reads parseExpr (exprKinds expr) [] fun read => read.withoutSpans = expr.withoutSpans := by
  have hreads :=
    ((h.readsAt hword).mono (h.begins hword) le_rfl (Nat.zero_le _)).readsExpr [] (by simp [Stops])
  rwa [List.append_nil] at hreads

end Aion.Awl
