import Aion.Awl.LexerLexemes
import Aion.Awl.TokenStream

/-!
# Reading from a stream that shows its tokens

What a parser reads of a stream is what the kinds of its tokens say, as long as none of them is one
of layout. `Reads` says how far it reads with enough fuel and what it gives, `ReadsLoop` says it of
a loop that is at some value; both are `Attains` with what the stream shows as its condition.
-/

namespace Aion.Awl

open Fuelled.Comp Aion.Awl.Parser

/-! ### Streams that show tokens -/

/-- The stream has tokens of these kinds left, and none of layout. -/
structure Stream.Shows (stream : Stream) (kinds : List TokenKind) : Prop where
  kinds_eq : stream.rest.map Token.kind = kinds
  flat : ∀ kind ∈ kinds, kind.isLayout = false

variable {kind : TokenKind} {kinds shown middle left : List TokenKind} {stream : Stream}

theorem settleTokens_of_head {tokens : List Token}
    (h : ∀ token ∈ tokens.head?, token.kind.isLayout = false)
    (bracketDepth lastLine suppressed : ℕ) :
    Stream.settleTokens bracketDepth tokens lastLine suppressed =
      (tokens, lastLine, suppressed) := by
  cases tokens with
  | nil => rfl
  | cons token rest =>
    have htok := h token rfl
    rw [Stream.settleTokens]
    split
    case h_4 => rfl
    all_goals
      rename_i hkind
      rw [hkind] at htok
      cases htok

theorem Stream.Shows.settle (h : stream.Shows kinds) : stream.settle = stream := by
  have hhead : ∀ token ∈ stream.rest.head?, token.kind.isLayout = false := fun token htok =>
    h.flat token.kind (h.kinds_eq ▸ List.mem_map_of_mem (List.mem_of_mem_head? htok))
  rw [Stream.settle, settleTokens_of_head hhead]

theorem Stream.Shows.consume (h : stream.Shows (kind :: kinds)) (token : Token) :
    (stream.consume token).Shows kinds where
  kinds_eq := by
    show stream.rest.tail.map Token.kind = kinds
    rw [List.map_tail, h.kinds_eq]
    rfl
  flat := fun kind hkind => h.flat kind (List.mem_cons_of_mem _ hkind)

/-- With enough fuel the parser reads what is shown up to what is left, and gives a value as it
should be. -/
def Reads {α : Type} (parser : ℕ → Parser α) (shown left : List TokenKind) (good : α → Prop) :
    Prop :=
  Attains (Stream.Shows · shown) parser fun value last => good value ∧ last.Shows left

variable {α β : Type} {good : α → Prop} {good' : β → Prop}

theorem reads_pure {value : α} (h : good value) : Reads (fun _ => pure value) shown shown good :=
  attains_pure fun _ hstr => ⟨h, hstr⟩

theorem Reads.bind {parser : ℕ → Parser α} {f : ℕ → α → Parser β}
    (h : Reads parser shown middle good)
    (hf : ∀ value, good value → Reads (fun fuel => f fuel value) middle left good') :
    Reads (fun fuel => parser fuel >>= f fuel) shown left good' := by
  refine Attains.bind h fun value => ?_
  rintro stream ⟨hval, hstr⟩
  exact hf value hval stream hstr

theorem Stream.Shows.head? (h : stream.Shows kinds) :
    stream.rest.head?.map Token.kind = kinds.head? := by
  rw [← List.head?_map, h.kinds_eq]

theorem reads_peek :
    Reads (fun _ => peek) shown shown fun found => found.map Token.kind = shown.head? := by
  refine attains_of_returns fun stream hstr => ⟨stream.rest.head?, stream, ⟨hstr.head?, hstr⟩, ?_⟩
  simp only [peek, returns_bind_iff, returns_modify_iff, returns_get_iff, returns_pure_iff]
  exact ⟨(), stream, hstr.settle, stream, stream, ⟨rfl, rfl⟩, rfl, rfl⟩

theorem reads_peekSecond :
    Reads (fun _ => peekSecond) shown shown fun found =>
      found.map Token.kind = shown.tail.head? := by
  refine attains_of_returns fun stream hstr => ⟨stream.rest.tail.head?, stream, ⟨?_, hstr⟩, ?_⟩
  · show stream.rest.tail.head?.map Token.kind = _
    rw [← List.head?_map, List.map_tail, hstr.kinds_eq]
  · simp only [peekSecond, returns_bind_iff, returns_modify_iff, returns_get_iff, returns_pure_iff]
    exact ⟨(), stream, hstr.settle, stream, stream, ⟨rfl, rfl⟩, rfl, rfl⟩

theorem reads_next :
    Reads (fun _ => next) (kind :: left) left fun found => found.map Token.kind = some kind := by
  refine attains_of_returns fun stream hstr => ?_
  obtain ⟨token, htok, hkind⟩ := Option.map_eq_some_iff.mp hstr.head?
  refine ⟨some token, stream.consume token, ⟨congrArg some hkind, hstr.consume token⟩, ?_⟩
  simp only [next, returns_bind_iff, returns_modify_iff, returns_get_iff]
  refine ⟨(), stream, hstr.settle, stream, stream, ⟨rfl, rfl⟩, ?_⟩
  rw [htok]
  simp only [returns_bind_iff, returns_modify_iff, returns_pure_iff, true_and]
  exact ⟨(), stream.consume token, rfl, rfl⟩

variable {test : TokenKind → Bool}

theorem reads_eat_some (htest : test kind = true) :
    Reads (fun _ => eat test) (kind :: left) left fun found =>
      found.map Token.kind = some kind := by
  refine reads_peek.bind fun found hfd => ?_
  obtain ⟨token, rfl, rfl⟩ := Option.map_eq_some_iff.mp hfd
  simp only [htest, if_true]
  exact reads_next

theorem reads_eat_none (htest : ∀ kind ∈ shown.head?, test kind = false) :
    Reads (fun _ => eat test) shown shown fun found => found = none := by
  refine reads_peek.bind fun found hfd => ?_
  cases found with
  | none => exact reads_pure rfl
  | some token =>
    simp only [htest token.kind hfd.symm, Bool.false_eq_true, if_false]
    exact reads_pure rfl

theorem reads_peekIs (test : TokenKind → Bool) :
    Reads (fun _ => peekIs test) shown shown fun value => value = shown.head?.any test := by
  refine reads_peek.bind fun found hfd => reads_pure ?_
  rw [← hfd, Option.any_map]

theorem reads_expect (message : String) :
    Reads (fun _ => expect kind message) (kind :: left) left fun _ => True := by
  refine reads_peek.bind fun found hfd => ?_
  obtain ⟨token, rfl, hkind⟩ := Option.map_eq_some_iff.mp hfd
  simp only [hkind, ne_eq, not_true, if_false]
  refine reads_next.bind fun found hfd => ?_
  obtain ⟨token, rfl, -⟩ := Option.map_eq_some_iff.mp hfd
  exact reads_pure trivial

/-- With enough fuel the loop reads what is shown up to what is left. -/
def ReadsLoop (step : ℕ → α → Parser (α ⊕ β)) (value : α) (shown left : List TokenKind)
    (good' : β → Prop) : Prop :=
  AttainsLoop (Stream.Shows · shown) step value fun result last => good' result ∧ last.Shows left

variable {step : ℕ → α → Parser (α ⊕ β)} {value : α}

theorem readsLoop_of_inr
    (h : Reads (fun fuel => step fuel value) shown left fun next => ∃ result, next = .inr result ∧
        good' result) : ReadsLoop step value shown left good' := by
  refine attainsLoop_of_inr (Attains.mono h ?_)
  rintro _ last ⟨⟨result, rfl, hres⟩, hlast⟩
  exact ⟨result, rfl, hres, hlast⟩

theorem readsLoop_of_inl
    (h : Reads (fun fuel => step fuel value) shown middle fun next => ∃ value, next = .inl value ∧
        good value) (hrest : ∀ value, good value → ReadsLoop step value middle left good') :
    ReadsLoop step value shown left good' := by
  have hstep : Attains (Stream.Shows · shown) (fun fuel => step fuel value)
      fun next last => ∃ value, next = .inl value ∧ good value ∧ last.Shows middle := by
    refine Attains.mono h ?_
    rintro _ last ⟨⟨value, rfl, hval⟩, hlast⟩
    exact ⟨value, rfl, hval, hlast⟩
  refine attainsLoop_of_inl hstep fun value => ?_
  rintro stream ⟨hval, hstr⟩
  exact hrest value hval stream hstr

end Aion.Awl
