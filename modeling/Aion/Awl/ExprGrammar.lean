import Aion.Awl.ExprParser

/-!
# The grammar of AWL expressions

`Grammatical` is the tree form of the grammar: each form with the forms that may stand in it
without parentheses. The forms bind at levels, from `or` to the postfix and primary forms, and an
operand binds at least as tightly as its place asks. All that `parseExpr` gives is grammatical
(`keeps_parseExpr`); names and literals are those of the tokens.
-/

namespace Aion.Awl

open Fuelled.Comp Aion.Awl.Parser

/-! ### Levels -/

/-- The level of precedence of an operator. -/
def BinaryOp.level : BinaryOp → ℕ
  | .or => 0
  | .and => 1
  | .concat => 4
  | _ => 3

/-- The least level of a left operand. -/
def BinaryOp.leftLevel : BinaryOp → ℕ
  | .or => 0
  | .and => 1
  | _ => 4

/-- The least level of a right operand. -/
def BinaryOp.rightLevel : BinaryOp → ℕ
  | .or => 1
  | .and => 2
  | .concat => 5
  | _ => 4

/-- How tightly the outermost form of an expression binds. -/
def Expr.level : Expr → ℕ
  | .binary _ _ op _ => op.level
  | .not .. => 2
  | .predicate .. => 3
  | _ => 5

/-- A name that an argument may have. -/
inductive ArgName (lexical : TokenKind → Prop) : String → Prop
  | identifier {name : String} (hname : lexical (.identifier name)) : ArgName lexical name
  | soft {keyword : Keyword} (hsoft : softKeyword keyword = true) : ArgName lexical keyword.asWord

/-- The trees of the grammar, over the tokens that carry names and values. -/
inductive Grammatical (lexical : TokenKind → Prop) : Expr → Prop
  | string {span : Span} {value : String} (hval : lexical (.string value)) :
    Grammatical lexical (.string span value)
  | rawString {span : Span} {value : String}
    (hval : lexical (.rawString value)) : Grammatical lexical (.rawString span value)
  | json {span bodySpan : Span} {body : String}
    (hbody : lexical (.jsonBody body)) : Grammatical lexical (.json span body bodySpan)
  | schemaOf {span nameSpan : Span} {name : String} (hname : lexical (.typeIdentifier name)) :
    Grammatical lexical (.schemaOf span name nameSpan)
  | int {span : Span} {value : ℕ} (hval : lexical (.integer value)) :
    Grammatical lexical (.int span value)
  | float {span : Span} {value : String} (hval : lexical (.float value)) :
    Grammatical lexical (.float span value)
  | bool {span : Span} {value : Bool} : Grammatical lexical (.bool span value)
  | duration {literal : DurationLiteral}
    (hliteral : lexical (.duration literal.magnitude literal.unit)) :
    Grammatical lexical (.duration literal)
  | list {span : Span} {items : List Expr}
    (hitems : ∀ item ∈ items, Grammatical lexical item) : Grammatical lexical (.list span items)
  | ref {span : Span} {name : String} (hname : lexical (.identifier name)) :
    Grammatical lexical (.ref span name)
  | visits {span : Span} : Grammatical lexical (.ref span "visits")
  | workflow {span : Span} : Grammatical lexical (.workflow span)
  | variant {span : Span} {name : String}
    (hname : lexical (.typeIdentifier name)) : Grammatical lexical (.variant span name)
  | record {span nameSpan : Span} {name : String}
    {args : List Arg} (hname : lexical (.typeIdentifier name))
    (hnames : ∀ arg ∈ args, ArgName lexical arg.name)
    (hvalues : ∀ arg ∈ args, Grammatical lexical arg.value) :
    Grammatical lexical (.record span name nameSpan args)
  | field {span nameSpan : Span} {base : Expr} {name : String} (hbase : Grammatical lexical base)
    (hlevel : 5 ≤ base.level)
    (hname : lexical (.fieldAccessor name)) : Grammatical lexical (.field span base name nameSpan)
  | index {span indexSpan : Span} {base : Expr} {index : ℕ} (hbase : Grammatical lexical base)
    (hlevel : 5 ≤ base.level)
    (hindex : lexical (.integer index)) : Grammatical lexical (.index span base index indexSpan)
  | accessor {span : Span} {name : String}
    (hname : lexical (.fieldAccessor name)) : Grammatical lexical (.accessor span name)
  | not {span : Span} {expr : Expr} (hexpr : Grammatical lexical expr)
    (hlevel : 2 ≤ expr.level) : Grammatical lexical (.not span expr)
  | binary {span : Span} {left right : Expr} {op : BinaryOp} (hleft : Grammatical lexical left)
    (hleftLevel : op.leftLevel ≤ left.level)
    (hright : Grammatical lexical right)
    (hrightLevel : op.rightLevel ≤ right.level) : Grammatical lexical (.binary span left op right)
  | predicate {span : Span} {subject : Expr} {kind : PredicateKind}
    (hsubject : Grammatical lexical subject)
    (hlevel : 4 ≤ subject.level) : Grammatical lexical (.predicate span subject kind)
  | collectionPredicate {span : Span} {collection predicate : Expr} {quantifier : Quantifier}
    (hcoll : Grammatical lexical collection) (hlevel : 5 ≤ collection.level)
    (hpred : Grammatical lexical predicate) :
    Grammatical lexical (.collectionPredicate span collection quantifier predicate)

/-- A tree of the grammar that may stand in a place of this level. -/
structure Fits (lexical : TokenKind → Prop) (level : ℕ) (expr : Expr) : Prop where
  grammatical : Grammatical lexical expr
  level : level ≤ expr.level

/-! ### The parser gives trees of the grammar -/

section Parser

variable {lexical : TokenKind → Prop} {fuel : ℕ} {expr : Parser Expr} {level : ℕ}

theorem keeps_itemsStep {α : Type} {item : Parser α} {good : α → Prop}
    (hitem : Keeps (Stream.Holds lexical) item good) (close : TokenKind) (message : String)
    {items : List α} (hitems : ∀ item ∈ items, good item) :
    Keeps (Stream.Holds lexical) (itemsStep item close message items)
      (Sum.elim (fun items => ∀ item ∈ items, good item) fun found => ∀ item ∈ found.1,
        good item) := by
  refine (keeps_eat _).bind fun found _ => ?_
  cases found with
  | some token => exact keeps_pure hitems
  | none =>
    refine hitem.bind fun item hitem => (keeps_eat _).bind fun found _ => ?_
    have hmore : ∀ other ∈ items ++ [item], good other := by
      intro other hother
      rcases List.mem_append.mp hother with hother | hother
      · exact hitems other hother
      · obtain rfl := List.mem_singleton.mp hother
        exact hitem
    cases found with
    | some _ => exact keeps_pure hmore
    | none => exact (keeps_expect _ _).bind fun _ _ => keeps_pure hmore

theorem keeps_items {α : Type} {item : Parser α} {good : α → Prop}
    (hitem : Keeps (Stream.Holds lexical) item good) (close : TokenKind) (message : String) :
    Keeps (Stream.Holds lexical) (loop (itemsStep item close message) fuel []) fun found =>
      ∀ item ∈ found.1, good item := by
  have hstep (items : List α) (hitems : ∀ item ∈ items, good item) :=
    keeps_itemsStep hitem close message hitems
  exact Keeps.loop hstep fuel (List.forall_mem_nil good)

/-- An argument whose name and value are as they should be. -/
def GoodArg (lexical : TokenKind → Prop) (arg : Arg) : Prop :=
  ArgName lexical arg.name ∧ Grammatical lexical arg.value

theorem keeps_parseArg (hexpr : Keeps (Stream.Holds lexical) expr (Grammatical lexical)) :
    Keeps (Stream.Holds lexical) (parseArg expr) (GoodArg lexical) := by
  have hnamed {name : String} (hname : ArgName lexical name) (span : Span) :
      Keeps (Stream.Holds lexical) (parseArg.named expr name span) (GoodArg lexical) := by
    refine keeps_next.bind fun _ _ => (keeps_eat _).bind fun found _ => ?_
    cases found with
    | none => exact keeps_throw
    | some _ => exact hexpr.bind fun value hval => keeps_pure ⟨hname, hval⟩
  refine keeps_peek.bind fun found hfd => ?_
  cases found with
  | none => exact keeps_failAtEof
  | some token =>
    have htok := hfd token rfl
    dsimp only
    split
    · rename_i name hkind
      exact hnamed (.identifier (hkind ▸ htok)) _
    · split
      · rename_i hsoft
        exact hnamed (.soft hsoft) _
      · exact keeps_throw
    · exact keeps_throw

theorem keeps_parseArgs (hexpr : Keeps (Stream.Holds lexical) expr (Grammatical lexical)) :
    Keeps (Stream.Holds lexical) (parseArgs fuel expr) fun found => ∀ arg ∈ found.1,
      GoodArg lexical arg :=
  keeps_items (keeps_parseArg hexpr) _ _

theorem keeps_parseList (hexpr : Keeps (Stream.Holds lexical) expr (Grammatical lexical))
    (opening : Span) :
    Keeps (Stream.Holds lexical) (parseList fuel expr opening) (Fits lexical 5) :=
  (keeps_items hexpr _ _).bind fun _ hitems => keeps_pure ⟨.list hitems, le_rfl⟩

theorem keeps_parseJsonLiteral (span : Span) :
    Keeps (Stream.Holds lexical) (parseJsonLiteral span) (Fits lexical 5) := by
  refine keeps_peek.bind fun found hfd => ?_
  cases found with
  | none => exact keeps_failAtEof
  | some token =>
    have htok := hfd token rfl
    dsimp only
    split
    · rename_i body hkind
      exact keeps_next.bind fun _ _ => keeps_pure ⟨.json (hkind ▸ htok), le_rfl⟩
    · exact keeps_throw

theorem keeps_parseSchemaOf (span : Span) :
    Keeps (Stream.Holds lexical) (parseSchemaOf span) (Fits lexical 5) := by
  refine (keeps_eat _).bind fun found _ => ?_
  cases found with
  | none => exact keeps_peekSpan.bind fun _ _ => keeps_throw
  | some _ =>
    refine keeps_peek.bind fun found hfd => ?_
    cases found with
    | none => exact keeps_failAtEof
    | some token =>
      have htok := hfd token rfl
      dsimp only
      split
      · rename_i name hkind
        exact keeps_next.bind fun _ _ => keeps_pure ⟨.schemaOf (hkind ▸ htok), le_rfl⟩
      · exact keeps_throw

theorem keeps_primaryAt (hexpr : Keeps (Stream.Holds lexical) expr (Grammatical lexical))
    {token : Token} (htok : lexical token.kind) :
    Keeps (Stream.Holds lexical) (primaryAt fuel expr token) (Fits lexical 5) := by
  have hleaf {leaf : Expr} (h : Grammatical lexical leaf) (hlevel : leaf.level = 5) :
      Keeps (Stream.Holds lexical) (do let _ ← next; return leaf : Parser Expr) (Fits lexical 5) :=
    keeps_next.bind fun _ _ => keeps_pure ⟨h, hlevel.ge⟩
  dsimp only [primaryAt]
  split <;> rename_i hkind
  case h_1 => exact hleaf (.string (hkind ▸ htok)) rfl
  case h_2 => exact hleaf (.rawString (hkind ▸ htok)) rfl
  case h_3 => exact keeps_next.bind fun _ _ => keeps_parseJsonLiteral _
  case h_4 => exact keeps_next.bind fun _ _ => keeps_parseSchemaOf _
  case h_5 => exact hleaf (.int (hkind ▸ htok)) rfl
  case h_6 => exact hleaf (.float (hkind ▸ htok)) rfl
  case h_7 => exact hleaf .bool rfl
  case h_8 => exact hleaf .bool rfl
  case h_9 => exact hleaf (.duration (hkind ▸ htok)) rfl
  case h_10 => exact keeps_next.bind fun _ _ => keeps_parseList hexpr _
  case h_11 => exact hleaf (.ref (hkind ▸ htok)) rfl
  case h_12 => exact hleaf .workflow rfl
  case h_13 => exact hleaf .visits rfl
  case h_14 =>
    refine keeps_next.bind fun _ _ => (keeps_peekIs _).bind fun opens _ => ?_
    split
    · refine keeps_next.bind fun _ _ => (keeps_parseArgs hexpr).bind fun found hfd => ?_
      have hnames := fun arg harg => (hfd arg harg).1
      exact keeps_pure ⟨.record (hkind ▸ htok) hnames fun arg harg => (hfd arg harg).2, le_rfl⟩
    · exact keeps_pure ⟨.variant (hkind ▸ htok), le_rfl⟩
  case h_15 => exact hleaf (.accessor (hkind ▸ htok)) rfl
  case h_16 => exact keeps_throw

theorem keeps_parsePrimary (hexpr : Keeps (Stream.Holds lexical) expr (Grammatical lexical)) :
    Keeps (Stream.Holds lexical) (parsePrimary fuel expr) (Fits lexical 5) := by
  refine keeps_peek.bind fun found hfd => ?_
  cases found with
  | none => exact keeps_failAtEof
  | some token => exact keeps_primaryAt hexpr (hfd token rfl)

variable {not : Parser Expr} {base : Expr}

theorem keeps_parseIndex (hbase : Fits lexical 5 base) :
    Keeps (Stream.Holds lexical) (parseIndex base) (Fits lexical 5) := by
  refine keeps_peek.bind fun found hfd => ?_
  cases found with
  | none => exact keeps_failAtEof
  | some token =>
    have htok := hfd token rfl
    dsimp only
    split
    · rename_i index hkind
      refine keeps_next.bind fun _ _ => (keeps_expect _ _).bind fun _ _ => keeps_pure ?_
      exact ⟨.index hbase.grammatical hbase.level (hkind ▸ htok), le_rfl⟩
    · exact keeps_throw

theorem keeps_parseCollectionPredicate
    (hexpr : Keeps (Stream.Holds lexical) expr (Grammatical lexical)) {collection : Expr}
    (hcoll : Fits lexical 5 collection) (quantifier : Quantifier) :
    Keeps (Stream.Holds lexical) (parseCollectionPredicate expr collection quantifier)
      (Fits lexical 5) := by
  refine keeps_next.bind fun _ _ => keeps_next.bind fun _ _ => (keeps_expect _ _).bind fun _ _ => ?_
  refine hexpr.bind fun predicate hpred => (keeps_expect _ _).bind fun _ _ => keeps_pure ?_
  exact ⟨.collectionPredicate hcoll.grammatical hcoll.level hpred, le_rfl⟩

theorem keeps_postfixStep (hexpr : Keeps (Stream.Holds lexical) expr (Grammatical lexical))
    (hbase : Fits lexical 5 base) :
    Keeps (Stream.Holds lexical) (postfixStep expr base)
      (Sum.elim (Fits lexical 5) (Fits lexical 5)) := by
  refine keeps_peek.bind fun found hfd => ?_
  cases found with
  | none => exact keeps_pure hbase
  | some token =>
    have htok := hfd token rfl
    dsimp only
    split
    · rename_i name hkind
      refine keeps_next.bind fun _ _ => keeps_pure ?_
      exact ⟨.field hbase.grammatical hbase.level (hkind ▸ htok), le_rfl⟩
    · exact keeps_next.bind fun _ _ => (keeps_parseIndex hbase).bind fun _ hindex => keeps_pure hindex
    · refine keeps_peekSecond.bind fun second _ => ?_
      split
      · exact (keeps_parseCollectionPredicate hexpr hbase .any).bind fun _ hfits => keeps_pure hfits
      · exact (keeps_parseCollectionPredicate hexpr hbase .all).bind fun _ hfits => keeps_pure hfits
      · exact keeps_pure hbase
    · exact keeps_pure hbase

theorem keeps_parsePostfix (hexpr : Keeps (Stream.Holds lexical) expr (Grammatical lexical)) :
    Keeps (Stream.Holds lexical) (parsePostfix fuel expr) (Fits lexical 5) :=
  (keeps_parsePrimary hexpr).bind fun _ hprim =>
    Keeps.loop (fun _ hbase => keeps_postfixStep hexpr hbase) fuel hprim

/-- The operands of a chain fit its operator, and so does the chain to the left of it. -/
theorem keeps_parseChain {operand : Parser Expr} {op : BinaryOp}
    (hoperand : Keeps (Stream.Holds lexical) operand (Fits lexical op.rightLevel))
    (hleft : op.leftLevel ≤ op.level) (hright : op.level ≤ op.rightLevel) (operator : TokenKind) :
    Keeps (Stream.Holds lexical) (parseChain fuel operand operator op) (Fits lexical op.level) := by
  refine hoperand.bind fun first hfst => ?_
  have hstep (left : Expr) (hfits : Fits lexical op.level left) :
      Keeps (Stream.Holds lexical) (chainStep operand operator op left)
        (Sum.elim (Fits lexical op.level) (Fits lexical op.level)) := by
    refine (keeps_eat _).bind fun found _ => ?_
    cases found with
    | none => exact keeps_pure hfits
    | some _ =>
      refine hoperand.bind fun right hrightFits => keeps_pure ?_
      exact ⟨.binary hfits.grammatical (hleft.trans hfits.level) hrightFits.grammatical hrightFits.level, le_rfl⟩
  exact Keeps.loop hstep fuel ⟨hfst.grammatical, hright.trans hfst.level⟩

theorem keeps_parseConcat (hexpr : Keeps (Stream.Holds lexical) expr (Grammatical lexical)) :
    Keeps (Stream.Holds lexical) (parseConcat fuel expr) (Fits lexical 4) :=
  @keeps_parseChain _ _ _ .concat (keeps_parsePostfix hexpr) le_rfl (by decide) .plus

theorem keeps_parsePredicate {subject : Expr} (hsubject : Fits lexical 4 subject) :
    Keeps (Stream.Holds lexical) (parsePredicate subject) (Fits lexical 3) := by
  have htested (kind : PredicateKind) (span : Span) :
      Keeps (Stream.Holds lexical) (parsePredicate.tested subject kind span) (Fits lexical 3) :=
    keeps_next.bind fun _ _ => keeps_pure ⟨.predicate hsubject.grammatical hsubject.level, le_rfl⟩
  refine keeps_peek.bind fun found _ => ?_
  cases found with
  | none => exact keeps_failAtEof
  | some token =>
    dsimp only
    split
    · exact htested _ _
    · exact htested _ _
    · exact htested _ _
    · exact keeps_throw

/-- The operators of comparisons stand between operands of the level of concatenations. -/
theorem levels_of_comparisonOp {kind : TokenKind} {op : BinaryOp}
    (h : comparisonOp kind = some op) : op.level = 3 ∧ op.leftLevel = 4 ∧ op.rightLevel = 4 := by
  unfold comparisonOp at h
  split at h <;> cases h <;> exact ⟨rfl, rfl, rfl⟩

theorem keeps_parseComparison (hexpr : Keeps (Stream.Holds lexical) expr (Grammatical lexical)) :
    Keeps (Stream.Holds lexical) (parseComparison fuel expr) (Fits lexical 3) := by
  refine (keeps_parseConcat hexpr).bind fun left hleft => keeps_peek.bind fun found _ => ?_
  split
  · rename_i op hop
    obtain ⟨token, -, hcomparison⟩ := Option.bind_eq_some_iff.mp hop
    obtain ⟨hlevel, hleftLevel, hrightLevel⟩ := levels_of_comparisonOp hcomparison
    refine keeps_next.bind fun _ _ => (keeps_parseConcat hexpr).bind fun right hright =>
      keeps_pure ?_
    refine ⟨.binary hleft.grammatical ?_ hright.grammatical ?_, hlevel.ge⟩
    · exact hleftLevel.trans_le hleft.level
    · exact hrightLevel.trans_le hright.level
  · refine (keeps_eat _).bind fun found _ => ?_
    cases found with
    | some _ => exact keeps_parsePredicate hleft
    | none => exact keeps_pure ⟨hleft.grammatical, Nat.le_of_succ_le hleft.level⟩

theorem keeps_parseAnd (hnot : Keeps (Stream.Holds lexical) not (Fits lexical 2)) :
    Keeps (Stream.Holds lexical) (parseAnd fuel not) (Fits lexical 1) :=
  @keeps_parseChain _ _ _ .and hnot le_rfl (by decide) (.keyword .and)

theorem keeps_parseOr (hnot : Keeps (Stream.Holds lexical) not (Fits lexical 2)) :
    Keeps (Stream.Holds lexical) (parseOr fuel not) (Fits lexical 0) :=
  @keeps_parseChain _ _ _ .or (keeps_parseAnd hnot) le_rfl (by decide) (.keyword .or)

theorem keeps_parseNot_parseExpr (lexical : TokenKind → Prop) (fuel : ℕ) :
    Keeps (Stream.Holds lexical) (parseNot fuel) (Fits lexical 2) ∧
      Keeps (Stream.Holds lexical) (parseExpr fuel) (Grammatical lexical) := by
  induction fuel with
  | zero => exact ⟨keeps_spent, keeps_spent⟩
  | succ fuel ih =>
    obtain ⟨hnot, hexpr⟩ := ih
    refine ⟨(keeps_eat _).bind fun found _ => ?_, (keeps_parseOr hnot).mono fun _ hfits => hfits.grammatical⟩
    cases found with
    | some token => exact hnot.bind fun operand hoperand => keeps_pure ⟨.not hoperand.grammatical hoperand.level, le_rfl⟩
    | none => exact (keeps_parseComparison hexpr).mono fun _ hfits => ⟨hfits.grammatical, Nat.le_of_succ_le hfits.level⟩

/-- **What the parser gives is grammatical**, over the tokens it reads. -/
theorem keeps_parseExpr (lexical : TokenKind → Prop) (fuel : ℕ) :
    Keeps (Stream.Holds lexical) (parseExpr fuel) (Grammatical lexical) :=
  (keeps_parseNot_parseExpr lexical fuel).2

end Parser

end Aion.Awl
