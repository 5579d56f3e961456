import Aion.Awl.ExprLexing

/-!
# The round trip of AWL expressions

What `parseExpr` gives from the tokens of any document is printed to a text that lexes and parses to
the same expression, but for places (`exprText_roundTrip`): what the parser gives is grammatical
over the values the lexer reads, its printed form lexes to its tokens, and these are read back.
-/

namespace Aion.Awl

open Fuelled.Comp Filter

/-! ### No token of an expression is one of layout -/

theorem isLayout_of_mem_intercalate {kinds : List (List TokenKind)}
    (h : ∀ item ∈ kinds, ∀ kind ∈ item, kind.isLayout = false) :
    ∀ kind ∈ [TokenKind.comma].intercalate kinds, kind.isLayout = false := by
  induction kinds with
  | nil => nofun
  | cons item items ih =>
    have hrest := ih fun other hother => h other (List.mem_cons_of_mem _ hother)
    have hitem := h item List.mem_cons_self
    cases items with
    | nil => simpa using hitem
    | cons other items =>
      rw [List.intercalate_cons_cons]
      intro kind hkind
      simp only [List.mem_append, List.mem_singleton] at hkind
      rcases hkind with (hkind | rfl) | hkind
      · exact hitem kind hkind
      · rfl
      · exact hrest kind hkind

theorem BinaryOp.isLayout_kind (op : BinaryOp) : op.kind.isLayout = false := by
  cases op <;> rfl

variable {expr : Expr}

theorem Grammatical.isLayout {lexical : TokenKind → Prop} (h : Grammatical lexical expr) :
    ∀ kind ∈ exprKinds expr, kind.isLayout = false := by
  induction h with
  | list _ ih =>
    have hitems := isLayout_of_mem_intercalate (List.forall_mem_map.mpr ih)
    simpa [exprKinds, exprsKinds_eq_map, or_imp, forall_and, TokenKind.isLayout] using hitems
  | @record _ _ _ args _ _ _ ih =>
    have hargs : ∀ item ∈ args.map argKinds, ∀ kind ∈ item, kind.isLayout = false := by
      refine List.forall_mem_map.mpr fun arg harg => ?_
      obtain ⟨span, name, nameSpan, value⟩ := arg
      rw [argKinds, List.forall_mem_cons, List.forall_mem_cons]
      exact ⟨wordKind_isLayout name, rfl, ih _ harg⟩
    have hitems := isLayout_of_mem_intercalate hargs
    simpa [exprKinds, argsKinds_eq_map, or_imp, forall_and, TokenKind.isLayout] using hitems
  | ref _ => simp [exprKinds, wordKind_isLayout]
  | visits => simp [exprKinds, wordKind_isLayout]
  | @binary _ _ _ op _ _ _ _ ihLeft ihRight =>
    simpa [exprKinds, or_imp, forall_and, op.isLayout_kind] using ⟨ihLeft, ihRight⟩
  | field _ _ _ ih => simpa [exprKinds, or_imp, forall_and, TokenKind.isLayout] using ih
  | index _ _ _ ih => simpa [exprKinds, or_imp, forall_and, TokenKind.isLayout] using ih
  | not _ _ ih => simpa [exprKinds, or_imp, forall_and, TokenKind.isLayout] using ih
  | predicate _ _ ih => simpa [exprKinds, or_imp, forall_and, TokenKind.isLayout] using ih
  | collectionPredicate _ _ _ ihCollection ihPredicate =>
    simpa [exprKinds, or_imp, forall_and, TokenKind.isLayout] using ⟨ihCollection, ihPredicate⟩
  | _ => simp [exprKinds, TokenKind.isLayout]

/-! ### The round trip -/

/-- The text of a tree of the grammar lexes, and what it lexes to is parsed to the tree up to
places, with nothing left. -/
theorem Grammatical.roundTrip (h : Grammatical TokenKind.Lexical expr) (sourceLen eofLine : ℕ) :
    ∃ printed, (∀ fuel, (exprText expr).toList.length + 2 ≤ fuel →
        lex fuel (exprText expr) = some (.ok printed)) ∧
      ∃ again last, again.withoutSpans = expr.withoutSpans ∧ last.rest = [] ∧
        ∀ᶠ fuel in atTop, (parseExpr fuel).Returns (.new printed sourceLen eofLine) again last := by
  obtain ⟨ch, rest, htext, hopens, hwhite⟩ := h.beginsText
  obtain ⟨printed, hprinted, hkinds⟩ := (h.lexes [] ends_nil).lex htext hopens hwhite
  have hshows : (Stream.new printed sourceLen eofLine).Shows (exprKinds expr) :=
    ⟨hkinds, h.isLayout⟩
  obtain ⟨again, last, ⟨hagain, hlast⟩, hrets⟩ :=
    h.reads_parseExpr (fun _ hname => hname.2) _ hshows
  exact ⟨printed, hprinted, again, last, hagain, List.map_eq_nil_iff.mp hlast.kinds_eq, hrets⟩

/-- **Expressions need no parentheses**: whatever the parser gives from tokens of a document, its
printed form lexes with enough fuel, and with enough fuel the parser reads from it the same
expression up to places, and leaves nothing. -/
theorem exprText_roundTrip {lexFuel parseFuel : ℕ} {source : String} {tokens : List Token}
    {stream last : Stream} {expr : Expr} (hlex : lex lexFuel source = some (.ok tokens))
    (hstream : ∀ token ∈ stream.rest, token ∈ tokens)
    (hparse : (parseExpr parseFuel).Returns stream expr last) (sourceLen eofLine : ℕ) :
    ∃ printed, (∀ fuel, (exprText expr).toList.length + 2 ≤ fuel →
        lex fuel (exprText expr) = some (.ok printed)) ∧
      ∃ again last', again.withoutSpans = expr.withoutSpans ∧ last'.rest = [] ∧
        ∃ enough, ∀ fuel, enough ≤ fuel →
          (parseExpr fuel).Returns (.new printed sourceLen eofLine) again last' := by
  have hholds : stream.Holds TokenKind.Lexical :=
    fun token htok => lexical_of_lex hlex token (hstream token htok)
  obtain ⟨-, hgrammatical⟩ :=
    keeps_parseExpr TokenKind.Lexical parseFuel stream expr last hholds hparse
  obtain ⟨printed, hprinted, again, last', hagain, hlast, hrets⟩ :=
    hgrammatical.roundTrip sourceLen eofLine
  exact ⟨printed, hprinted, again, last', hagain, hlast, eventually_atTop.mp hrets⟩

/-- A field of a number, and a duration. -/
theorem exprText_roundTrip_concat :
    ∃ tokens expr last, lex 11 "07.b + 1s" = some (.ok tokens) ∧
      (parseExpr 4).Returns (.new tokens 9 1) expr last ∧
      exprText expr = "7.b + 1s" ∧
      ∃ printed, (∀ fuel, (exprText expr).toList.length + 2 ≤ fuel →
          lex fuel (exprText expr) = some (.ok printed)) ∧
        ∃ again last', again.withoutSpans = expr.withoutSpans ∧ last'.rest = [] ∧
          ∃ enough, ∀ fuel, enough ≤ fuel →
      (parseExpr fuel).Returns (.new printed 9 1) again last' := by
  obtain ⟨tokens, expr, last, hlex, hparse, htext⟩ : ∃ tokens expr last,
    lex 11 "07.b + 1s" = some (.ok tokens) ∧
      (parseExpr 4).Returns (.new tokens 9 1) expr last ∧ exprText expr = "7.b + 1s" :=
    ⟨[⟨.integer 7, ⟨0, 2, 1, 1⟩⟩, ⟨.fieldAccessor "b", ⟨2, 4, 1, 3⟩⟩, ⟨.plus, ⟨5, 6, 1, 6⟩⟩,
        ⟨.duration 1 .seconds, ⟨7, 9, 1, 8⟩⟩],
      _, _, rfl, rfl, rfl⟩
  exact ⟨tokens, expr, last, hlex, hparse, htext,
      exprText_roundTrip hlex (fun _ htok => htok) hparse 9 1⟩

end Aion.Awl
