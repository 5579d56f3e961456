import Aion.Awl.LexerTokens

/-!
# What the values of tokens look like

The names, numbers and bodies that tokens carry are those the lexer can read (`Lexical`): a name is
a word of its case and not a reserved one, a number fits 64 bits, and the body of a capture ends
where it is closed.
-/

namespace Aion.Awl

open SourceText

/-- A word that begins with a character of a kind. -/
def IsWord (first : Char → Bool) : List Char → Prop
  | [] => False
  | ch :: rest => first ch = true ∧ ∀ ch ∈ rest, isIdentifierContinue ch = true

/-- The token of a word in lower case. -/
def wordKind (word : String) : TokenKind :=
  match Keyword.fromWord word with
  | some keyword => .keyword keyword
  | none => .identifier word

/-- A capture from its first brace to the one that closes it. -/
def IsBraced (body : List Char) : Prop :=
  body.head? = some '{' ∧ ∃ newlines, bracedFrom body 0 0 0 false = some (bytes body, newlines)

/-- The value of a token is one the lexer reads. -/
def TokenKind.Lexical : TokenKind → Prop
  | .identifier name => IsWord Char.isLower name.toList ∧ Keyword.fromWord name = none
  | .typeIdentifier name => IsWord Char.isUpper name.toList
  | .fieldAccessor name => IsWord Char.isLower name.toList
  | .integer value => value < 2 ^ 64
  | .duration magnitude _ => magnitude < 2 ^ 64
  | .float lexeme => parsesAsFloat lexeme.toList = true
  | .rawString value => findQuotes (value.toList ++ ['"', '"', '"']) 0 = some (bytes value.toList)
  | .jsonBody body => IsBraced body.toList
  | _ => True

variable {source chars : List Char} {kind : TokenKind} {newlines stop opening : ℕ} {ch : Char}
  {inString : Bool} {openSpan span : Span}

theorem parseU64_eq_ok {digits : List Char} {value : ℕ} (h : parseU64 digits span = .ok value) :
    value < 2 ^ 64 := by
  unfold parseU64 at h
  extract_lets read at h
  split_ifs at h with hread
  obtain rfl := Except.ok.inj h
  exact hread

theorem isIdentifierContinue_of_isLower (h : ch.isLower = true) :
    isIdentifierContinue ch = true := by
  unfold isIdentifierContinue Char.isAlphanum Char.isAlpha
  simp [h]

namespace Cursor

variable {cursor next : Cursor} {before after piece : List Char} {start : ℕ} {token : Token}

/-- The text of the line since a place before the cursor. -/
theorem At.slice (h : cursor.At (before ++ piece) after) :
    cursor.slice (bytes before) cursor.index = piece := by
  rw [Cursor.slice, h.line_eq, h.index_eq, List.append_assoc, fromByte_append, bytes_append,
    Nat.add_sub_cancel_left, uptoByte_append]

theorem lexical_of_simple (h : cursor.simple kind start = .ok (token, next))
    (hkind : kind.Lexical) : token.kind.Lexical := by
  cases h
  exact hkind

theorem lexical_of_either {expected : Char} {long short : TokenKind}
    (h : cursor.either expected long short start = .ok (token, next)) (hlong : long.Lexical)
    (hshort : short.Lexical) : token.kind.Lexical := by
  unfold either at h
  split at h
  · exact lexical_of_simple h hlong
  · exact lexical_of_simple h hshort

theorem lexical_of_fieldAccessor (hat : cursor.At (before ++ ['.']) after)
    (h : cursor.fieldAccessor (bytes before) = .ok (token, next)) : token.kind.Lexical := by
  unfold fieldAccessor at h
  split_ifs at h with hcur
  refine lexical_of_simple h ?_
  rw [current, hat.rest] at hcur
  obtain ⟨ch, hch, hlower⟩ := (Option.any_eq_true _ _).mp hcur
  obtain ⟨rest, rfl⟩ := List.head?_eq_some_iff.mp hch
  have hslice := (hat.advanceWhile isIdentifierContinue).slice
  rw [bytes_append] at hslice
  change IsWord Char.isLower (String.ofList _).toList
  rw [String.toList_ofList]
  change Cursor.slice _ (bytes before + 1) _ = _ at hslice
  rw [hslice, List.takeWhile_cons_of_pos (isIdentifierContinue_of_isLower hlower)]
  exact ⟨hlower, fun ch hch => List.mem_takeWhile_imp hch⟩

theorem lexical_of_stringFrom (chars : List Char) (index : ℕ) (value : List Char)
    (h : cursor.stringFrom start chars index value = .ok (token, next)) : token.kind.Lexical := by
  fun_induction stringFrom cursor start chars index value with
  | case1 => cases h
  | case2 => exact lexical_of_simple h trivial
  | case3 => cases h
  | case4 _ _ _ ih => exact ih h
  | case5 _ _ _ ih => exact ih h
  | case6 _ _ _ ih => exact ih h
  | case7 _ _ _ ih => exact ih h
  | case8 => cases h
  | case9 _ _ _ _ _ _ _ ih => exact ih h

theorem lexical_of_integer (h : plainNumber.integer cursor start = .ok (token, next)) :
    token.kind.Lexical := by
  obtain ⟨value, hval, h⟩ := Result.bind_eq_ok h
  exact lexical_of_simple h (parseU64_eq_ok hval)

theorem lexical_of_plainNumber (h : cursor.plainNumber start = .ok (token, next)) :
    token.kind.Lexical := by
  unfold plainNumber at h
  split at h
  · extract_lets behind lexeme at h
    split_ifs at h with hdigit hfloat
    · refine lexical_of_simple h ?_
      change parsesAsFloat (String.ofList lexeme).toList = true
      rwa [String.toList_ofList]
    · exact lexical_of_integer h
  · exact lexical_of_integer h

theorem lexical_of_number (h : cursor.number start = .ok (token, next)) : token.kind.Lexical := by
  unfold number at h
  extract_lets digits behind at h
  split at h
  · split_ifs at h
    · exact lexical_of_plainNumber h
    · obtain ⟨magnitude, hmagnitude, h⟩ := Result.bind_eq_ok h
      exact lexical_of_simple h (parseU64_eq_ok hmagnitude)
  · exact lexical_of_plainNumber h

theorem lexical_of_word {typeName : Bool} (hat : cursor.At (before ++ [ch]) after)
    (hch : (if typeName then ch.isUpper else ch.isLower) = true)
    (h : cursor.word (bytes before) typeName = .ok (token, next)) : token.kind.Lexical := by
  have hread := hat.advanceWhile isIdentifierContinue
  rw [List.append_assoc] at hread
  unfold word at h
  extract_lets behind text at h
  have htext : text = String.ofList (ch :: after.takeWhile isIdentifierContinue) :=
    congrArg String.ofList hread.slice
  have hword {first : Char → Bool} (hfst : first ch = true) : IsWord first text.toList := by
    rw [htext, String.toList_ofList]
    exact ⟨hfst, fun ch hch => List.mem_takeWhile_imp hch⟩
  cases typeName with
  | true => exact lexical_of_simple h (hword hch)
  | false =>
    simp only [Bool.false_eq_true, if_false] at h
    split at h
    · exact lexical_of_simple h trivial
    · next hkeyword => exact lexical_of_simple h ⟨hword hch, hkeyword⟩

theorem lexical_of_tokenAfter (hat : cursor.At (before ++ [ch]) after)
    (h : cursor.tokenAfter ch (bytes before) = .ok (token, next)) : token.kind.Lexical := by
  unfold tokenAfter at h
  split at h
  case h_11 =>
    split at h
    · exact lexical_of_simple h trivial
    · exact lexical_of_fieldAccessor hat h
  case h_15 =>
    split at h
    · exact lexical_of_simple h trivial
    · cases h
  case h_18 => exact lexical_of_stringFrom _ _ _ h
  case h_19 =>
    split_ifs at h with hdigit hlower hupper
    · exact lexical_of_number h
    · exact lexical_of_word hat (by exact hlower) h
    · exact lexical_of_word hat (by exact hupper) h
    · cases h
  all_goals first | exact lexical_of_simple h trivial | exact lexical_of_either h trivial trivial

theorem lexical_of_nextToken (hat : cursor.At before after)
    (h : cursor.nextToken = .ok (token, next)) : token.kind.Lexical := by
  rw [nextToken, advanceChar_eq hat] at h
  cases after with
  | nil => cases h
  | cons ch rest =>
    have hmoved : (cursor.moved [ch]).At (before ++ [ch]) rest := At.moved hat
    rw [hat.index_eq] at h
    exact lexical_of_tokenAfter hmoved h

end Cursor

/-! ### Captures -/

/-- A character that neither ends a line nor opens or closes anything. -/
structure IsPlain (inString : Bool) (ch : Char) : Prop where
  feed : ch ≠ '\n'
  quote : ch ≠ '"'
  brace : inString = false → ch ≠ '{' ∧ ch ≠ '}'
  escape : inString = true → ch ≠ '\\'

theorem bracedFrom_plain (h : IsPlain inString ch) (rest : List Char)
    (consumed depth newlines : ℕ) :
    bracedFrom (ch :: rest) consumed depth newlines inString =
      bracedFrom rest (consumed + ch.utf8Size) depth newlines inString := by
  rw [bracedFrom]
  case x_5 => exact h.feed
  case x_6 => exact fun hin hch _ => h.escape hin hch
  case x_7 => exact fun _ _ hin hch _ => h.escape hin hch
  case x_8 => exact h.quote
  case x_9 => exact fun hin => (h.brace hin).1
  case x_10 => exact fun hin => (h.brace hin).2

/-- A body is read from its own text alone. -/
theorem bracedFrom_reads {consumed depth crossed : ℕ}
    (h : bracedFrom chars consumed depth newlines inString = some (stop, crossed)) :
    ∃ piece left, chars = piece ++ left ∧ stop = consumed + bytes piece ∧
      ∀ more, bracedFrom (piece ++ more) consumed depth newlines inString =
      some (stop, crossed) := by
  fun_induction bracedFrom chars consumed depth newlines inString with
  | case1 => cases h
  | case2 rest consumed depth newlines inString ih =>
    obtain ⟨piece, left, rfl, rfl, hpiece⟩ := ih h
    refine ⟨'\n' :: piece, left, rfl, (Nat.add_assoc ..), fun more => ?_⟩
    rw [List.cons_append, bracedFrom, hpiece]
  | case3 => cases h
  | case4 escaped rest consumed depth newlines ih =>
    obtain ⟨piece, left, rfl, rfl, hpiece⟩ := ih h
    refine ⟨'\\' :: escaped :: piece, left, rfl, ?_, fun more => ?_⟩
    · rw [bytes_cons, bytes_cons, ← Nat.add_assoc, ← Nat.add_assoc]
      rfl
    · rw [List.cons_append, List.cons_append, bracedFrom, hpiece]
  | case5 rest consumed depth newlines inString ih =>
    obtain ⟨piece, left, rfl, rfl, hpiece⟩ := ih h
    refine ⟨'"' :: piece, left, rfl, (Nat.add_assoc ..), fun more => ?_⟩
    rw [List.cons_append, bracedFrom, hpiece]
  | case6 rest consumed depth newlines ih =>
    obtain ⟨piece, left, rfl, rfl, hpiece⟩ := ih h
    refine ⟨'{' :: piece, left, rfl, (Nat.add_assoc ..), fun more => ?_⟩
    rw [List.cons_append, bracedFrom, hpiece]
  | case7 rest consumed depth newlines hdepth =>
    cases h
    exact ⟨['}'], rest, rfl, rfl, fun more => by rw [List.singleton_append, bracedFrom, if_pos hdepth]⟩
  | case8 rest consumed depth newlines hdepth ih =>
    obtain ⟨piece, left, rfl, rfl, hpiece⟩ := ih h
    refine ⟨'}' :: piece, left, rfl, (Nat.add_assoc ..), fun more => ?_⟩
    rw [List.cons_append, bracedFrom, if_neg hdepth, hpiece]
  | case9 ch rest consumed depth newlines inString hfeed hend hescape hquote hopen hclose ih =>
    obtain ⟨piece, left, rfl, rfl, hpiece⟩ := ih h
    have hplain : IsPlain inString ch := by
      refine ⟨hfeed, hquote, fun hin => ⟨hopen hin, hclose hin⟩, fun hin hch => ?_⟩
      cases hrest : piece ++ left with
      | nil => exact hend hin hch hrest
      | cons escaped rest => exact hescape escaped rest hin hch hrest
    refine ⟨ch :: piece, left, rfl, by rw [bytes_cons, Nat.add_assoc], fun more => ?_⟩
    rw [List.cons_append, bracedFrom_plain hplain, hpiece]

theorem lexical_of_scanBracedBody {kind : BracedBody}
    (hopening : (fromByte source opening).head? = some '{')
    (h : scanBracedBody source opening openSpan kind = .ok (stop, newlines)) :
    (kind.tokenKind (String.ofList (uptoByte (fromByte source opening)
        (stop - opening)))).Lexical := by
  unfold scanBracedBody at h
  split at h
  · next consumed crossed hbr =>
    cases h
    obtain ⟨piece, left, heq, rfl, hpiece⟩ := bracedFrom_reads hbr
    rw [heq, Nat.zero_add, Nat.add_sub_cancel_left, uptoByte_append]
    cases kind with
    | schema => exact trivial
    | json =>
      have hown := hpiece []
      rw [List.append_nil, Nat.zero_add] at hown
      change IsBraced (String.ofList piece).toList
      rw [String.toList_ofList]
      refine ⟨?_, _, hown⟩
      rw [heq, List.head?_append_of_ne_nil] at hopening
      · exact hopening
      · rintro rfl
        cases hown
  · cases h

/-- A raw string is read from its own text and its quotes alone. -/
theorem findQuotes_reads {offset length : ℕ} (h : findQuotes chars offset = some length) :
    ∃ value left, chars = value ++ ['"', '"', '"'] ++ left ∧ length = offset + bytes value ∧
      ∀ more, findQuotes (value ++ ['"', '"', '"'] ++ more) offset = some length := by
  induction chars generalizing offset with
  | nil => cases h
  | cons ch chars ih =>
    rw [findQuotes] at h
    split_ifs at h with hquo
    · obtain ⟨left, hleft⟩ := List.isPrefixOf_iff_prefix.mp hquo
      obtain rfl := Option.some.inj h
      exact ⟨[], left, hleft.symm, rfl, fun more => rfl⟩
    · obtain ⟨value, left, rfl, rfl, hval⟩ := ih h
      refine ⟨ch :: value, left, rfl, by rw [bytes_cons, Nat.add_assoc], fun more => ?_⟩
      -- the quotes would lie in what is read
      have hnot : ¬['"', '"', '"'].isPrefixOf (ch :: (value ++ ['"', '"', '"'] ++ more)) = true := by
        intro hstarts
        have hlen : 3 ≤ (ch :: (value ++ ['"', '"', '"'])).length := by simp
        have hmore := List.isPrefixOf_iff_prefix.mp hstarts
        have hread := List.prefix_of_prefix_length_le hmore (List.prefix_append (ch :: (value ++ ['"', '"', '"'])) more) hlen
        refine hquo ?_
        exact List.isPrefixOf_iff_prefix.mpr (hread.trans (List.prefix_append _ left))
      rw [List.cons_append, List.cons_append, findQuotes, if_neg hnot, hval]

theorem lexical_of_scanRawString {value : List Char}
    (h : scanRawString source opening openSpan = .ok (stop, newlines, value)) :
    (TokenKind.rawString (String.ofList value)).Lexical := by
  unfold scanRawString at h
  extract_lets body at h
  split at h
  · cases h
  · next length hlen =>
    obtain ⟨inner, left, hbody, rfl, hinner⟩ := findQuotes_reads hlen
    have hown := hinner []
    rw [hbody, Nat.zero_add, List.append_assoc, uptoByte_append] at h
    rw [List.append_nil, Nat.zero_add] at hown
    obtain rfl : inner = value := congrArg (fun result => result.2.2) (Except.ok.inj h)
    change findQuotes ((String.ofList inner).toList ++ _) 0 =
      some (bytes (String.ofList inner).toList)
    rwa [String.toList_ofList]

/-! ### What is pushed -/

namespace Lexer

variable {lexer middle final : Lexer}

/-- The tokens that came in are as the lexer reads them. -/
def Grows (lexer final : Lexer) : Prop :=
  ∀ token ∈ final.tokens, token ∈ lexer.tokens ∨ token.kind.Lexical

theorem Grows.refl (lexer : Lexer) : lexer.Grows lexer := fun _ htok => .inl htok

theorem Grows.trans (h : lexer.Grows middle) (h' : middle.Grows final) : lexer.Grows final := by
  intro token htok
  rcases h' token htok with htok | hlexical
  · exact h token htok
  · exact .inr hlexical

variable (lexer)

theorem grows_push (span : Span) (hkind : kind.Lexical) : lexer.Grows (lexer.push kind span) := by
  intro token htok
  rcases List.mem_append.mp htok with htok | htok
  · exact .inl htok
  · obtain rfl := List.mem_singleton.mp htok
    exact .inr hkind

theorem grows_finishLine (line : PhysicalLine) (emitNewline : Bool) :
    lexer.Grows (lexer.finishLine line emitNewline) := by
  unfold finishLine
  extract_lets stop pushed
  have hpushed : lexer.Grows pushed := by
    unfold pushed
    split
    · exact lexer.grows_push _ (by exact trivial)
    · exact .refl lexer
  exact hpushed

theorem grows_pushTrailingComment (cursor : Cursor) :
    lexer.Grows (lexer.pushTrailingComment cursor) :=
  lexer.grows_push _ (by exact trivial)

theorem grows_pushLineComment (line : PhysicalLine) (start : ℕ) :
    lexer.Grows (lexer.pushLineComment line start).1 := by
  refine lexer.grows_push _ ?_
  generalize fromByte line.text start = text
  show (classifyComment text).1.Lexical
  unfold classifyComment
  split <;> exact trivial

theorem grows_replicate (count : ℕ) (span : Span) (indents : List ℕ) :
    lexer.Grows { lexer with tokens := lexer.tokens ++ List.replicate count ⟨.dedent, span⟩, indents := indents } := by
  intro token htok
  rcases List.mem_append.mp htok with htok | htok
  · exact .inl htok
  · obtain rfl := List.eq_of_mem_replicate htok
    exact .inr trivial

variable {lexer}

theorem grows_adjustIndent {lineStart spaces : ℕ} (h : lexer.adjustIndent lineStart spaces = .ok final) : lexer.Grows final := by
  unfold adjustIndent at h
  extract_lets current whole at h
  split_ifs at h
  · cases h
    have hpush : lexer.Grows (lexer.push .indent whole) := lexer.grows_push whole (by exact trivial)
    exact hpush
  · split at h
    split_ifs at h
    rw [← Except.ok.inj h]
    exact lexer.grows_replicate _ _ _

theorem grows_capture {line line' : PhysicalLine} {cursor cursor' : Cursor} (hkind : kind.Lexical)
    (h : (lexer.push kind span).afterCapture source line cursor stop newlines =
        (final, line', cursor')) : lexer.Grows final := by
  obtain rfl : _ = final := congrArg Prod.fst h
  have hpush := lexer.grows_push span hkind
  unfold afterCapture
  split <;> exact hpush

end Lexer

end Aion.Awl
