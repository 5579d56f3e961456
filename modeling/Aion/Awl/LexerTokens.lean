import Aion.Awl.Lexer
import Aion.Library.Result
import Mathlib.Data.List.TakeDrop
import Mathlib.Data.List.TakeWhile

/-!
# The cursor takes a token

An ordinary token is read from what follows the cursor in its line: its span goes over the text
it was read from, and the cursor is behind that text afterwards (`Took`). Each function of the
cursor has its lemma; `took_of_nextToken` puts them together.
-/

namespace Aion.Awl

open SourceText

/-- Tokens that stand for the lines and their indentation. -/
def TokenKind.isLayout : TokenKind → Bool
  | .newline => true
  | .indent => true
  | .dedent => true
  | _ => false

namespace Cursor

variable {cursor next : Cursor} {before after piece : List Char}

/-- The cursor stands between two parts of its line. -/
structure At (cursor : Cursor) (before after : List Char) : Prop where
  line_eq : cursor.line = before ++ after
  index_eq : cursor.index = bytes before

/-- The cursor behind a piece. -/
def moved (cursor : Cursor) (piece : List Char) : Cursor :=
  { cursor with index := cursor.index + bytes piece }

theorem At.rest (h : cursor.At before after) : cursor.rest = after := by
  rw [Cursor.rest, h.line_eq, h.index_eq, fromByte_append]

theorem At.moved (h : cursor.At before (piece ++ after)) :
    (cursor.moved piece).At (before ++ piece) after :=
  ⟨by simpa [Cursor.moved] using h.line_eq, by simp [Cursor.moved, h.index_eq]⟩

@[simp]
theorem moved_nil : cursor.moved [] = cursor := by simp [moved]

theorem moved_append (piece piece' : List Char) :
    cursor.moved (piece ++ piece') = (cursor.moved piece).moved piece' := by
  simp [moved, Nat.add_assoc]

/-- A token was read from what follows the cursor: its span goes from `start` to where the cursor is
then. -/
def Took (cursor : Cursor) (after : List Char) (start : ℕ) (token : Token) (next : Cursor) : Prop :=
  ∃ piece after', after = piece ++ after' ∧ next = cursor.moved piece ∧
    token.span = cursor.span start next.index ∧
    token.kind.isLayout = false

variable {start : ℕ} {token : Token}

theorem Took.moved {after' : List Char} (h : (cursor.moved piece).Took after' start token next) :
    cursor.Took (piece ++ after') start token next := by
  obtain ⟨piece', rest, rfl, rfl, hspan, hkind⟩ := h
  exact ⟨piece ++ piece', rest, by simp, (moved_append piece piece').symm, hspan, hkind⟩

theorem took_of_simple {kind : TokenKind} (hkind : kind.isLayout = false)
    (h : cursor.simple kind start = .ok (token, next)) : cursor.Took after start token next := by
  cases h
  exact ⟨[], after, rfl, moved_nil.symm, rfl, hkind⟩

theorem advanceChar_eq (h : cursor.At before after) :
    cursor.advanceChar = after.head?.map fun ch => (ch, cursor.moved [ch]) := by
  rw [advanceChar, current, h.rest]
  cases after <;> rfl

variable {expected : Char}

theorem consumeIf_eq_some (h : cursor.At before after)
    (hnext : cursor.consumeIf expected = some next) :
    ∃ after', after = expected :: after' ∧ next = cursor.moved [expected] := by
  rw [consumeIf, advanceChar_eq h] at hnext
  cases after with
  | nil => cases hnext
  | cons ch rest =>
    simp only [List.head?_cons, Option.map_some] at hnext
    split_ifs at hnext with hch
    cases hnext
    exact ⟨rest, by rw [hch], by rw [hch]⟩

theorem advanceWhile_eq (h : cursor.At before after) (p : Char → Bool) :
    cursor.advanceWhile p = cursor.moved (after.takeWhile p) := by
  rw [advanceWhile, h.rest]
  rfl

/-- Reading on while a condition holds. -/
theorem At.advanceWhile (h : cursor.At before after) (p : Char → Bool) :
    (cursor.advanceWhile p).At (before ++ after.takeWhile p) (after.dropWhile p) := by
  rw [advanceWhile_eq h]
  exact At.moved (by rwa [List.takeWhile_append_dropWhile])

theorem took_of_advanceWhile (h : cursor.At before after) (p : Char → Bool)
    (htook : (cursor.advanceWhile p).Took (after.dropWhile p) start token next) :
    cursor.Took after start token next := by
  rw [advanceWhile_eq h] at htook
  have := htook.moved
  rwa [List.takeWhile_append_dropWhile] at this

theorem took_of_consumeIf (h : cursor.At before after) {behind : Cursor}
    (hbehind : cursor.consumeIf expected = some behind)
    (htook : ∀ after', behind.Took after' start token next) :
    cursor.Took after start token next := by
  obtain ⟨after', rfl, rfl⟩ := consumeIf_eq_some h hbehind
  exact (htook after').moved

theorem took_of_either {long short : TokenKind} (h : cursor.At before after)
    (hlong : long.isLayout = false) (hshort : short.isLayout = false)
    (htok : cursor.either expected long short start = .ok (token, next)) :
    cursor.Took after start token next := by
  unfold either at htok
  cases hbehind : cursor.consumeIf expected with
  | some behind =>
    rw [hbehind] at htok
    exact took_of_consumeIf h hbehind fun _ => took_of_simple hlong htok
  | none =>
    rw [hbehind] at htok
    exact took_of_simple hshort htok

theorem took_of_fieldAccessor (h : cursor.At before after)
    (htok : cursor.fieldAccessor start = .ok (token, next)) :
    cursor.Took after start token next := by
  unfold fieldAccessor at htok
  split_ifs at htok
  exact took_of_advanceWhile h _ (took_of_simple rfl htok)

/-- The characters of a string, from behind `consumed` on. -/
theorem took_of_stringFrom (chars : List Char) (index : ℕ) (value : List Char)
    (htok : cursor.stringFrom start chars index value = .ok (token, next)) (consumed : List Char)
    (hindex : index = cursor.index + bytes consumed) :
    cursor.Took (consumed ++ chars) start token next := by
  fun_induction stringFrom cursor start chars index value generalizing consumed with
  | case1 => cases htok
  | case2 rest index value =>
    have hnext : { cursor with index := index + 1 } = cursor.moved (consumed ++ ['"']) := by
      rw [hindex, moved, bytes_append]
      rfl
    rw [hnext] at htok
    have htook : cursor.Took ((consumed ++ ['"']) ++ rest) start token next :=
      (took_of_simple rfl htok).moved
    rwa [List.append_assoc] at htook
  | case3 => cases htok
  | case4 rest index value ih =>
    simpa using ih htok (consumed ++ ['\\', '"']) (by rw [hindex, bytes_append]; rfl)
  | case5 rest index value ih =>
    simpa using ih htok (consumed ++ ['\\', '\\']) (by rw [hindex, bytes_append]; rfl)
  | case6 rest index value ih =>
    simpa using ih htok (consumed ++ ['\\', 'n']) (by rw [hindex, bytes_append]; rfl)
  | case7 rest index value ih =>
    simpa using ih htok (consumed ++ ['\\', 't']) (by rw [hindex, bytes_append]; rfl)
  | case8 => cases htok
  | case9 ch rest index value _ _ _ ih =>
    simpa using ih htok (consumed ++ [ch]) (by simp [hindex, Nat.add_assoc])

theorem took_of_string (h : cursor.At before after)
    (htok : cursor.string start = .ok (token, next)) : cursor.Took after start token next := by
  rw [string, h.rest] at htok
  exact took_of_stringFrom after cursor.index [] htok [] rfl

theorem took_of_integer (htok : plainNumber.integer cursor start = .ok (token, next)) :
    cursor.Took after start token next := by
  obtain ⟨value, -, htok⟩ := Result.bind_eq_ok htok
  exact took_of_simple rfl htok

theorem took_of_plainNumber (h : cursor.At before after)
    (htok : cursor.plainNumber start = .ok (token, next)) : cursor.Took after start token next := by
  rw [plainNumber, h.rest] at htok
  split at htok
  · next digit rest =>
    split_ifs at htok with hdigit
    · have hdot : (cursor.moved ['.']).At (before ++ ['.']) (digit :: rest) := At.moved h
      refine (took_of_advanceWhile hdot Char.isDigit ?_).moved
      simp only [moved] at htok ⊢
      split_ifs at htok
      exact took_of_simple rfl htok
    · exact took_of_integer htok
  · exact took_of_integer htok

theorem durationUnit_size {ch : Char} {unit : DurationUnit} (h : durationUnit ch = some unit) :
    ch.utf8Size = 1 := by
  unfold durationUnit at h
  split at h <;> first | rfl | cases h

theorem took_of_number (h : cursor.At before after)
    (htok : cursor.number start = .ok (token, next)) : cursor.Took after start token next := by
  refine took_of_advanceWhile h Char.isDigit ?_
  have hdigits := h.advanceWhile Char.isDigit
  unfold number at htok
  extract_lets digits behind at htok
  split at htok
  · next unit hunit =>
    split_ifs at htok
    · exact took_of_plainNumber hdigits htok
    · obtain ⟨magnitude, -, htok⟩ := Result.bind_eq_ok htok
      rw [current, hdigits.rest] at hunit
      obtain ⟨ch, hch, hunit⟩ := Option.bind_eq_some_iff.mp hunit
      obtain ⟨rest, hrest⟩ := List.head?_eq_some_iff.mp hch
      have hbehind : behind = digits.moved [ch] := by simp [behind, moved, durationUnit_size hunit]
      rw [hbehind] at htok
      rw [hrest]
      exact (took_of_simple rfl htok).moved
  · exact took_of_plainNumber hdigits htok

theorem took_of_word {typeName : Bool} (h : cursor.At before after)
    (htok : cursor.word start typeName = .ok (token, next)) :
    cursor.Took after start token next := by
  refine took_of_advanceWhile h isIdentifierContinue ?_
  unfold word at htok
  extract_lets at htok
  split at htok
  · exact took_of_simple rfl htok
  · split at htok <;> exact took_of_simple rfl htok

theorem took_of_tokenAfter {ch : Char} (h : cursor.At before after)
    (htok : cursor.tokenAfter ch start = .ok (token, next)) :
    cursor.Took after start token next := by
  unfold tokenAfter at htok
  split at htok
  case h_11 =>
    split at htok
    · next hbehind => exact took_of_consumeIf h hbehind fun _ => took_of_simple rfl htok
    · exact took_of_fieldAccessor h htok
  case h_15 =>
    split at htok
    · next hbehind => exact took_of_consumeIf h hbehind fun _ => took_of_simple rfl htok
    · cases htok
  case h_18 => exact took_of_string h htok
  case h_19 =>
    split_ifs at htok
    · exact took_of_number h htok
    · exact took_of_word h htok
    · exact took_of_word h htok
    · cases htok
  all_goals first | exact took_of_simple rfl htok | exact took_of_either h rfl rfl htok

/-- The next token, which takes a character at least. -/
theorem took_of_nextToken (h : cursor.At before after)
    (htok : cursor.nextToken = .ok (token, next)) :
    ∃ piece after', after = piece ++ after' ∧ piece ≠ [] ∧ next = cursor.moved piece ∧
      token.span = cursor.span cursor.index next.index ∧ token.kind.isLayout = false := by
  rw [nextToken, advanceChar_eq h] at htok
  cases after with
  | nil => cases htok
  | cons ch rest =>
    obtain ⟨piece, after', rfl, rfl, hspan, hkind⟩ := took_of_tokenAfter (At.moved h) htok
    exact ⟨ch :: piece, after', rfl, List.cons_ne_nil ch piece, (moved_append [ch] piece).symm, hspan, hkind⟩

end Cursor

end Aion.Awl
