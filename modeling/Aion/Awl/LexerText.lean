import Aion.Awl.LexerLayout

/-!
# Lexing a text piece by piece

`Lexes` says of a piece of text that the lexer, in a line before it, reads its tokens and stands
before what follows then. Pieces are put together (`Lexes.append`); each form of token has its
lemma, with what must not follow (`Ends`). A document that is such a text has its tokens and no
others (`Lexes.lex`).
-/

namespace Aion.Awl

open SourceText

/-! ### In a line before a text -/

/-- The lexer is in a line, and this is left of the document. -/
def Facing (source : List Char) (lexer : Lexer) (line : PhysicalLine) (cursor : Cursor)
    (left : List Char) : Prop :=
  ∃ head before after terminator rest,
    InLine source lexer line cursor head before after terminator rest ∧
    after ++ terminator ++ rest = left

/-- Tokens came in, and no level of indentation was opened or closed. -/
structure Lexer.Adds (lexer : Lexer) (kinds : List TokenKind) (lexer' : Lexer) : Prop where
  tokens : lexer'.tokens.map Token.kind = lexer.tokens.map Token.kind ++ kinds
  indents : lexer'.indents = lexer.indents

/-- Before a text with this behind it, the lexer reads its tokens and stands before what is behind
it. -/
def Lexes (text : List Char) (kinds : List TokenKind) (tail : List Char) : Prop :=
  ∀ source lexer line cursor, Facing source lexer line cursor (text ++ tail) →
    ∃ lexer' line' cursor', Facing source lexer' line' cursor' tail ∧ lexer.Adds kinds lexer' ∧
      ∃ count, ∀ fuel, lexer.lexRest source (fuel + count) line cursor = lexer'.lexRest source fuel line' cursor'

variable {source text text' tail piece : List Char} {kind : TokenKind}
  {kinds kinds' : List TokenKind} {lexer lexer' lexer'' : Lexer}
  {line : PhysicalLine} {cursor : Cursor}

theorem Lexer.adds_nil (lexer : Lexer) : lexer.Adds [] lexer := ⟨(List.append_nil _).symm, rfl⟩

theorem Lexer.adds_push (lexer : Lexer) (kind : TokenKind) (span : Span) :
    lexer.Adds [kind] (lexer.push kind span) :=
  ⟨List.map_append, rfl⟩

theorem Lexer.Adds.append (h : lexer.Adds kinds lexer') (h' : lexer'.Adds kinds' lexer'') :
    lexer.Adds (kinds ++ kinds') lexer'' :=
  ⟨by rw [h'.tokens, h.tokens, List.append_assoc], h'.indents.trans h.indents⟩

theorem lexes_nil : Lexes [] [] tail :=
  fun _ lexer line cursor hfacing => ⟨lexer, line, cursor, hfacing, lexer.adds_nil, 0, fun _ => rfl⟩

/-- One text behind the other. -/
theorem Lexes.append (h : Lexes text kinds (text' ++ tail)) (h' : Lexes text' kinds' tail) :
    Lexes (text ++ text') (kinds ++ kinds') tail := by
  intro source lexer line cursor hfacing
  rw [List.append_assoc] at hfacing
  obtain ⟨lexer1, line1, cursor1, hfacing1, hadds, count, hsteps⟩ :=
    h source lexer line cursor hfacing
  obtain ⟨lexer2, line2, cursor2, hfacing2, hadds', count', hsteps'⟩ :=
    h' source lexer1 line1 cursor1 hfacing1
  refine ⟨lexer2, line2, cursor2, hfacing2, hadds.append hadds', count' + count, fun fuel => ?_⟩
  rw [← Nat.add_assoc, hsteps, hsteps']

/-- What stays in the line is in front of the cursor there. -/
theorem Facing.inLine (h : Facing source lexer line cursor (piece ++ tail)) (hne : piece ≠ [])
    (hfeed : '\n' ∉ piece) (hlast : piece.getLast? ≠ some '\r') :
    ∃ head before after terminator rest,
      InLine source lexer line cursor head before (piece ++ after) terminator rest ∧
        after ++ terminator ++ rest = tail := by
  obtain ⟨head, before, after, terminator, rest, hin, hleft⟩ := h
  have hbef : '\n' ∉ before := fun hmem => hin.isLine.inLine (List.mem_append_left _ hmem)
  have heq : before ++ after ++ terminator ++ rest = before ++ piece ++ tail := by
    rw [List.append_assoc, List.append_assoc, ← List.append_assoc after, hleft, List.append_assoc]
  have hfeed' : '\n' ∉ before ++ piece := by
    rw [List.mem_append, not_or]
    exact ⟨hbef, hfeed⟩
  have hlast' : (before ++ piece).getLast? ≠ some '\r' := by
    rwa [List.getLast?_append_of_ne_nil _ hne]
  obtain ⟨after', hafter, htail⟩ := hin.isLine.of_append heq hfeed' hlast'
  rw [List.append_assoc, List.append_cancel_left_eq] at hafter
  subst hafter
  exact ⟨head, before, after', terminator, rest, hin, htail.symm⟩

/-- A space between tokens. -/
theorem lexes_space : Lexes [' '] [] tail := by
  intro source lexer line cursor hfacing
  obtain ⟨head, before, after, terminator, rest, hin, htail⟩ :=
    hfacing.inLine (by decide) (by decide) (by decide)
  have hlaid : lexer.Laid source (head ++ before ++ [' ']) :=
    ⟨hin.laid.tiles.space, hin.laid.depth, hin.laid.bottom⟩
  have hmoved := hin.moved rfl hlaid
  refine ⟨lexer, line, _, ⟨_, _, _, _, _, hmoved, htail⟩, lexer.adds_nil, 0, fun fuel => ?_⟩
  have hskip : (cursor.moved [' ']).skipInlineWhitespace = cursor.skipInlineWhitespace := by
    rw [Cursor.skipInlineWhitespace, Cursor.skipInlineWhitespace, Cursor.advanceWhile_eq hin.at_,
      Cursor.advanceWhile_eq hmoved.at_]
    exact (Cursor.moved_append [' '] (after.takeWhile (· = ' '))).symm
  cases fuel with
  | zero => rfl
  | succ fuel =>
    rw [Nat.add_zero, Lexer.lexRest, Lexer.lexRest, hskip]

/-! ### Tokens -/

/-- The first character of a token: neither a space nor the start of a comment. -/
def Opens (ch : Char) : Prop := ch ≠ ' ' ∧ ch ≠ '/'

variable {ch : Char} {rest digits value : List Char} {p : Char → Bool} {name : String}

theorem InLine.opens {head before after terminator : List Char}
    (h : InLine source lexer line cursor head before (ch :: after) terminator rest)
    (hch : Opens ch) :
    cursor.skipInlineWhitespace = cursor ∧ ¬cursor.isAtEnd = true ∧
      ¬cursor.startsWith ['/', '/'] = true := by
  refine ⟨?_, fun hend => ?_, fun hslash => ?_⟩
  · rw [Cursor.skipInlineWhitespace, Cursor.advanceWhile_eq h.at_,
      List.takeWhile_cons_of_neg (by simpa using hch.1)]
    exact Cursor.moved_nil
  · exact List.cons_ne_nil _ _ (h.isAtEnd_iff.mp hend)
  · rw [Cursor.startsWith, h.at_.rest] at hslash
    simp [hch.2.symm] at hslash

/-- The cursor takes the text as one token. -/
def Takes (text : List Char) (kind : TokenKind) (after : List Char) : Prop :=
  ∀ (cursor : Cursor) (before : List Char), cursor.At before (text ++ after) →
    cursor.nextToken = .ok (cursor.spanned kind cursor.index (cursor.moved text).index, cursor.moved text)

/-- A text that stays in its line and opens neither a comment nor a capture. -/
structure IsPiece (text : List Char) : Prop where
  opens : ∃ ch rest, text = ch :: rest ∧ Opens ch ∧ ch ≠ '{'
  feed : '\n' ∉ text
  last : text.getLast? ≠ some '\r'

/-- A token that the cursor takes. -/
theorem lexes_of_takes (htext : IsPiece text) (hquo : ¬['"', '"', '"'] <+: text ++ tail)
    (hkind : kind.isLayout = false) (htakes : ∀ after, after <+: tail → Takes text kind after) :
    Lexes text [kind] tail := by
  intro source lexer line cursor hfacing
  obtain ⟨ch, chars, rfl, hch, hbrace⟩ := htext.opens
  obtain ⟨head, before, after, terminator, rest, hin, htail⟩ :=
    hfacing.inLine (List.cons_ne_nil _ _) htext.feed htext.last
  obtain ⟨hskip, hend, hcom⟩ := hin.opens hch
  have hstarts : after <+: tail := ⟨terminator ++ rest, by rw [← htail, List.append_assoc]⟩
  have hbr : ¬cursor.startsWith ['{'] = true := by
    rw [Cursor.startsWith, hin.at_.rest]
    simp [hbrace.symm]
  have hraw : ¬cursor.startsWith ['"', '"', '"'] = true := by
    rw [Cursor.startsWith, hin.at_.rest, List.isPrefixOf_iff_prefix]
    exact fun h => hquo (h.trans ((List.prefix_append_right_inj _).mpr hstarts))
  have hnext := htakes after hstarts cursor before hin.at_
  refine ⟨_, line, _, ⟨_, _, _, _, _, hin.push rfl hkind, htail⟩, lexer.adds_push kind _, 1,
      fun fuel => ?_⟩
  rw [Lexer.lexRest, hskip, if_neg hend, if_neg hcom, if_neg hbr]
  simp only [hraw, Bool.false_eq_true, if_false, hnext]
  rfl

theorem exists_ofList (text : String) : ∃ chars, text = String.ofList chars :=
  ⟨text.toList, String.ofList_toList.symm⟩

/-! ### Captures -/

theorem Lexer.adds_capture {span : Span} {line' : PhysicalLine} {cursor' : Cursor}
    {stop newlines : ℕ}
    (h : (lexer.push kind span).afterCapture source line cursor stop newlines =
        (lexer', line', cursor')) : lexer.Adds [kind] lexer' := by
  obtain rfl : _ = lexer' := congrArg Prod.fst h
  have hpush := lexer.adds_push kind span
  unfold afterCapture
  split
  · exact hpush
  · exact ⟨hpush.tokens, hpush.indents⟩

/-- The quotes that end a raw string are the first ones, whatever is behind them. -/
theorem findQuotes_append (h : findQuotes (value ++ ['"', '"', '"']) 0 = some (bytes value))
    (more : List Char) : findQuotes (value ++ ['"', '"', '"'] ++ more) 0 = some (bytes value) := by
  obtain ⟨value', left, heq, hbytes, hmore⟩ := findQuotes_reads h
  rw [Nat.zero_add] at hbytes
  obtain rfl : value = value' := by
    rw [← uptoByte_append value ['"', '"', '"'], heq, hbytes, List.append_assoc, uptoByte_append]
  exact hmore more

theorem scanRawString_eq (h : findQuotes (value ++ ['"', '"', '"']) 0 = some (bytes value))
    (done left : List Char) (openSpan : Span) :
    scanRawString (done ++ (['"', '"', '"'] ++ (value ++ ['"', '"', '"'] ++ left)))
      (bytes done) openSpan =
      .ok (bytes done + bytes (['"', '"', '"'] ++ value ++ ['"', '"', '"']),
          (['"', '"', '"'] ++ value ++ ['"', '"', '"']).count '\n', value) := by
  have hquo : bytes ['"', '"', '"'] = 3 := by decide
  have hbody : fromByte (done ++ (['"', '"', '"'] ++ (value ++ ['"', '"', '"'] ++ left)))
    (bytes done + 3) =
      value ++ ['"', '"', '"'] ++ left := by
    rw [← hquo, ← bytes_append, ← List.append_assoc done, fromByte_append]
  have hval : uptoByte (value ++ ['"', '"', '"'] ++ left) (bytes value) = value := by
    rw [List.append_assoc, uptoByte_append]
  have hcount : (['"', '"', '"'] ++ value ++ ['"', '"', '"']).count '\n' = value.count '\n' := by
    simp
  have hstop : bytes done + 3 + bytes value + 3 = bytes done + bytes (['"', '"', '"'] ++ value ++ ['"', '"', '"']) := by
    rw [bytes_append, bytes_append, hquo]
    omega
  rw [scanRawString, hbody]
  simp only [findQuotes_append h left, hval, hcount, hstop]

/-- A raw string. -/
theorem lexes_rawString {value : String}
    (hval : findQuotes (value.toList ++ ['"', '"', '"']) 0 = some (bytes value.toList)) :
    Lexes (['"', '"', '"'] ++ value.toList ++ ['"', '"', '"']) [.rawString value] tail := by
  obtain ⟨value, rfl⟩ := exists_ofList value
  rw [String.toList_ofList] at hval ⊢
  intro source lexer line cursor hfacing
  rw [List.append_assoc, List.append_assoc] at hfacing
  obtain ⟨head, before, after, terminator, rest, hin, htail⟩ :=
    hfacing.inLine (by decide) (by decide) (by decide)
  obtain ⟨hskip, hend, hcom⟩ := hin.opens ⟨by decide, by decide⟩
  have hbr : ¬cursor.startsWith ['{'] = true := by
    rw [Cursor.startsWith, hin.at_.rest]
    simp
  have hraw : cursor.startsWith ['"', '"', '"'] = true := by
    rw [Cursor.startsWith, hin.at_.rest, List.isPrefixOf_iff_prefix]
    exact List.prefix_append _ _
  have hpiece : ['"', '"', '"'] ++ after ++ terminator ++ rest = ['"', '"', '"'] ++ value ++ ['"', '"', '"'] ++ tail := by
    simp only [List.append_assoc, ← htail]
  have hopen : cursor.base + cursor.index = bytes (head ++ before) := by
    rw [hin.cursor_eq, bytes_append]
  have hsrc : source = (head ++ before) ++ (['"', '"', '"'] ++ (value ++ ['"', '"', '"'] ++ tail)) := by
    have hsrc := hin.source_eq
    rw [List.append_assoc before, List.append_assoc before, hpiece] at hsrc
    simpa using hsrc
  have hscan :=
    scanRawString_eq hval (head ++ before) tail (cursor.span cursor.index (cursor.index + 3))
  rw [← hsrc, ← hopen] at hscan
  obtain ⟨_, _, _, _, _, lexer', line', cursor', hleft, hin', hcapt⟩ :=
    hin.capture (.rawString (String.ofList value)) (cursor.index + 3) hpiece
      (by rw [List.getLast?_append]; rfl) (by decide) rfl rfl rfl
  refine ⟨lexer', line', cursor', ⟨_, _, _, _, _, hin', hleft⟩, Lexer.adds_capture hcapt, 1,
      fun fuel => ?_⟩
  rw [Lexer.lexRest, hskip, if_neg hend, if_neg hcom, if_neg hbr]
  simp only [hraw, if_true, hscan]
  rw [hcapt]

/-- A capture ends where it is closed, whatever is behind it. -/
theorem IsBraced.bracedFrom_append {body : List Char} (h : IsBraced body) (more : List Char) :
    bracedFrom (body ++ more) 0 0 0 false = some (bytes body, body.count '\n') ∧
      body.getLast? = some '}' := by
  obtain ⟨-, newlines, hbr⟩ := h
  obtain ⟨piece, left, heq, hbytes, hmore⟩ := bracedFrom_reads hbr
  obtain ⟨piece', left', heq', hbytes', hcross, hlast⟩ := bracedFrom_closes hbr
  have hwhole {whole left : List Char} (heq : body = whole ++ left) (hbytes : bytes body = 0 + bytes whole) : whole = body := by
    have hnil : bytes left = 0 := by
      have := congrArg bytes heq
      rw [bytes_append] at this
      omega
    rw [heq, bytes_eq_zero_iff.mp hnil, List.append_nil]
  obtain rfl := hwhole heq hbytes
  obtain rfl := hwhole heq' hbytes'
  rw [Nat.zero_add] at hcross
  rw [hmore, hcross]
  exact ⟨rfl, hlast⟩

/-- The body of a `json` literal, behind the keyword. -/
theorem Lexes.jsonBody {body : String} (h : Lexes text kinds (body.toList ++ tail))
    (hlast : kinds.getLast? = some (.keyword .json)) (hbody : IsBraced body.toList) :
    Lexes (text ++ body.toList) (kinds ++ [.jsonBody body]) tail := by
  obtain ⟨body, rfl⟩ := exists_ofList body
  rw [String.toList_ofList] at h hbody ⊢
  intro source lexer line cursor hfacing
  rw [List.append_assoc] at hfacing
  obtain ⟨lexer1, line1, cursor1, hfacing1, hadds, count, hsteps⟩ :=
    h source lexer line cursor hfacing
  obtain ⟨inner, rfl⟩ := List.head?_eq_some_iff.mp hbody.1
  obtain ⟨hscanned, hclose⟩ := hbody.bracedFrom_append tail
  have hopen : Facing source lexer1 line1 cursor1 (['{'] ++ (inner ++ tail)) := hfacing1
  obtain ⟨head, before, after, terminator, rest, hin, htail⟩ :=
    hopen.inLine (by decide) (by decide) (by decide)
  obtain ⟨hskip, hend, hcom⟩ := hin.opens ⟨by decide, by decide⟩
  have hbr : cursor1.startsWith ['{'] = true := by
    rw [Cursor.startsWith, hin.at_.rest]
    rfl
  have hkind : lexer1.lastBracedBodyKind = some .json := by
    rw [Lexer.lastBracedBodyKind, ← List.getLast?_map, hadds.tokens, List.getLast?_append, hlast]
    rfl
  have hpiece : ['{'] ++ after ++ terminator ++ rest = '{' :: inner ++ tail := by
    simpa using htail
  have hscan : scanBracedBody source (cursor1.base + cursor1.index)
    (cursor1.span cursor1.index (cursor1.index + 1)) .json =
      .ok (cursor1.base + cursor1.index + bytes ('{' :: inner), ('{' :: inner).count '\n') := by
    rw [scanBracedBody, hin.fromByte_eq, hpiece, hscanned]
  have hval : uptoByte (fromByte source (cursor1.base + cursor1.index))
      (cursor1.base + cursor1.index + bytes ('{' :: inner) - (cursor1.base + cursor1.index)) = '{' :: inner := by
    rw [hin.fromByte_eq, hpiece, Nat.add_sub_cancel_left, uptoByte_append]
  obtain ⟨_, _, _, _, _, lexer', line', cursor', hleft, hin', hcapt⟩ :=
    hin.capture (.jsonBody (String.ofList ('{' :: inner))) (cursor1.index + 1) hpiece hclose
      (by decide) rfl rfl rfl
  refine ⟨lexer', line', cursor', ⟨_, _, _, _, _, hin', hleft⟩,
      hadds.append (Lexer.adds_capture hcapt), 1 + count, fun fuel => ?_⟩
  rw [← Nat.add_assoc, hsteps, Lexer.lexRest, hskip, if_neg hend, if_neg hcom, if_pos hbr, hkind]
  simp only [hscan, hval]
  rw [BracedBody.tokenKind, hcapt]

/-! ### What may follow -/

/-- The characters that end a name, a number or a string. -/
def delimiters : List Char := [' ', ',', ':', '(', ')', '[', ']']

/-- What follows does not go on with a name, a number or a string. -/
structure Ends (tail : List Char) : Prop where
  head : ∀ ch ∈ tail.head?, ch ∈ '.' :: delimiters
  fraction : ∀ ch rest, tail = '.' :: ch :: rest → ch.isDigit = false

theorem ends_nil : Ends [] := ⟨nofun, nofun⟩

theorem ends_cons (h : ch ∈ delimiters) (rest : List Char) : Ends (ch :: rest) := by
  refine ⟨?_, ?_⟩
  · rintro _ ⟨⟩
    exact List.mem_cons_of_mem _ h
  · rintro _ _ ⟨⟩
    exact absurd h (by decide)

theorem ends_dot (h : ch.isDigit = false) (rest : List Char) : Ends ('.' :: ch :: rest) := by
  refine ⟨?_, ?_⟩
  · rintro _ ⟨⟩
    exact List.mem_cons_self
  · rintro _ _ ⟨⟩
    exact h

theorem Ends.shorter {after : List Char} (h : Ends tail) (hstarts : after <+: tail) :
    Ends after := by
  obtain ⟨rest, rfl⟩ := hstarts
  refine ⟨fun ch hch => h.head ch ?_, ?_⟩
  · obtain ⟨chars, rfl⟩ := List.head?_eq_some_iff.mp hch
    rfl
  · rintro ch chars rfl
    exact h.fraction ch (chars ++ rest) rfl

theorem Ends.head_eq_false (h : Ends tail) (hp : ('.' :: delimiters).all (!p ·) = true) :
    ∀ ch ∈ tail.head?, p ch = false := by
  intro ch hch
  simpa using List.all_eq_true.mp hp ch (h.head ch hch)

theorem Ends.takeWhile (h : Ends tail) (hp : ('.' :: delimiters).all (!p ·) = true) :
    tail.takeWhile p = [] := by
  cases tail with
  | nil => rfl
  | cons ch rest => exact List.takeWhile_cons_of_neg (by simp [h.head_eq_false hp ch rfl])

/-! ### The tokens the cursor takes -/

namespace Cursor

variable {before after : List Char}

theorem nextToken_eq (h : cursor.At before (ch :: after)) :
    cursor.nextToken = (cursor.moved [ch]).tokenAfter ch cursor.index := by
  rw [nextToken, advanceChar_eq h]
  rfl

variable {expected : Char}

theorem consumeIf_of_head (h : cursor.At before (expected :: after)) :
    cursor.consumeIf expected = some (cursor.moved [expected]) := by
  rw [consumeIf, advanceChar_eq h]
  simp

theorem consumeIf_of_ne (h : cursor.At before after) (hne : after.head? ≠ some expected) :
    cursor.consumeIf expected = none := by
  rw [consumeIf, advanceChar_eq h]
  cases after with
  | nil => rfl
  | cons ch rest => simpa using hne

end Cursor

theorem isPiece_cons (hch : Opens ch ∧ ch ≠ '{')
    (hchars : ∀ ch' ∈ ch :: rest, ch' ≠ '\n' ∧ ch' ≠ '\r') : IsPiece (ch :: rest) where
  opens := ⟨ch, rest, rfl, hch⟩
  feed := fun hmem => (hchars _ hmem).1 rfl
  last := fun hlast => (hchars _ (List.mem_of_getLast? hlast)).2 rfl

/-- What begins with another character does not begin with quotes. -/
theorem not_opens_quotes (hch : ch ≠ '"') (rest : List Char) : ¬['"', '"', '"'] <+: ch :: rest :=
  fun hstarts => hch (List.cons_prefix_cons.mp hstarts).1.symm

/-- The marks of one character that no other one makes longer. -/
def marks : List (Char × TokenKind) :=
  [('(', .leftParen), (')', .rightParen), ('[', .leftBracket), (']', .rightBracket), (':', .colon),
      (',', .comma), ('+', .plus)]

theorem lexes_mark (h : (ch, kind) ∈ marks) : Lexes [ch] [kind] tail := by
  have hmark : (∀ (cursor : Cursor) start, cursor.tokenAfter ch start = cursor.simple kind start) ∧
      ((Opens ch ∧ ch ≠ '{') ∧ ch ≠ '\n' ∧ ch ≠ '\r') ∧ ch ≠ '"' ∧ kind.isLayout = false := by
    simp only [marks, List.mem_cons, Prod.mk.injEq, List.not_mem_nil, or_false] at h
    rcases h with ⟨rfl, rfl⟩ | ⟨rfl, rfl⟩ | ⟨rfl, rfl⟩ | ⟨rfl, rfl⟩ | ⟨rfl, rfl⟩ | ⟨rfl,
      rfl⟩ | ⟨rfl, rfl⟩ <;>
      exact ⟨fun _ _ => rfl, ⟨⟨⟨by decide, by decide⟩, by decide⟩, by decide⟩, by decide, rfl⟩
  obtain ⟨htokenAfter, ⟨hopens, hplain⟩, hquote, hkind⟩ := hmark
  refine lexes_of_takes (isPiece_cons hopens (List.forall_mem_singleton.mpr hplain))
    (not_opens_quotes hquote _) hkind ?_
  intro after _ cursor before hat
  rw [Cursor.nextToken_eq hat, htokenAfter]
  rfl

/-- The marks of two characters. -/
def longMarks : List (Char × Char × TokenKind) :=
  [('|', '>', .pipe), ('=', '=', .equalEqual), ('!', '=', .bangEqual), ('<', '=', .lessEqual),
      ('>', '=', .greaterEqual)]

theorem lexes_longMark {ch' : Char} (h : (ch, ch', kind) ∈ longMarks) :
    Lexes [ch, ch'] [kind] tail := by
  have hmark : (∀ (cursor next : Cursor) start, cursor.consumeIf ch' = some next →
      cursor.tokenAfter ch start = next.simple kind start) ∧
      ((Opens ch ∧ ch ≠ '{') ∧ (ch ≠ '\n' ∧ ch ≠ '\r') ∧ ch' ≠ '\n' ∧ ch' ≠ '\r') ∧ ch ≠ '"' ∧ kind.isLayout = false := by
    simp only [longMarks, List.mem_cons, Prod.mk.injEq, List.not_mem_nil, or_false] at h
    rcases h with ⟨rfl, rfl, rfl⟩ | ⟨rfl, rfl, rfl⟩ | ⟨rfl, rfl, rfl⟩ | ⟨rfl, rfl, rfl⟩ | ⟨rfl,
      rfl, rfl⟩ <;>
      exact ⟨fun _ _ _ hnext => by simp [Cursor.tokenAfter, Cursor.either, hnext],
        ⟨⟨⟨by decide, by decide⟩, by decide⟩, by decide⟩, by decide, rfl⟩
  obtain ⟨htokenAfter, ⟨hopens, hplain, hplain'⟩, hquote, hkind⟩ := hmark
  have hchars : ∀ ch'' ∈ [ch, ch'], ch'' ≠ '\n' ∧ ch'' ≠ '\r' :=
    List.forall_mem_cons.mpr ⟨hplain, List.forall_mem_singleton.mpr hplain'⟩
  refine lexes_of_takes (isPiece_cons hopens hchars) (not_opens_quotes hquote _) hkind ?_
  intro after _ cursor before hat
  have hmoved : (cursor.moved [ch]).At (before ++ [ch]) (ch' :: after) := Cursor.At.moved hat
  rw [Cursor.nextToken_eq hat, htokenAfter _ _ _ (Cursor.consumeIf_of_head hmoved),
    ← Cursor.moved_append]
  rfl

/-- The marks that an equals sign would make longer. -/
def shortMarks : List (Char × TokenKind) := [('<', .less), ('>', .greater)]

theorem lexes_shortMark (h : (ch, kind) ∈ shortMarks) (htail : tail.head? ≠ some '=') :
    Lexes [ch] [kind] tail := by
  have hmark : (∀ (cursor : Cursor) start, cursor.consumeIf '=' = none →
      cursor.tokenAfter ch start = cursor.simple kind start) ∧
      ((Opens ch ∧ ch ≠ '{') ∧ ch ≠ '\n' ∧ ch ≠ '\r') ∧ ch ≠ '"' ∧ kind.isLayout = false := by
    simp only [shortMarks, List.mem_cons, Prod.mk.injEq, List.not_mem_nil, or_false] at h
    rcases h with ⟨rfl, rfl⟩ | ⟨rfl, rfl⟩ <;>
      exact ⟨fun _ _ hnone => by simp [Cursor.tokenAfter, Cursor.either, hnone],
        ⟨⟨⟨by decide, by decide⟩, by decide⟩, by decide⟩, by decide, rfl⟩
  obtain ⟨htokenAfter, ⟨hopens, hplain⟩, hquote, hkind⟩ := hmark
  refine lexes_of_takes (isPiece_cons hopens (List.forall_mem_singleton.mpr hplain))
    (not_opens_quotes hquote _) hkind ?_
  intro after hafter cursor before hat
  have hmoved : (cursor.moved [ch]).At (before ++ [ch]) after := Cursor.At.moved hat
  have hhead : after.head? ≠ some '=' := by
    intro hhead
    obtain ⟨rest, rfl⟩ := List.head?_eq_some_iff.mp hhead
    obtain ⟨more, rfl⟩ := hafter
    exact htail rfl
  rw [Cursor.nextToken_eq hat, htokenAfter _ _ (Cursor.consumeIf_of_ne hmoved hhead)]
  rfl

/-! ### Words -/

namespace Cursor

theorem tokenAfter_of_isLower (h : ch.isLower = true) (cursor : Cursor) (start : ℕ) :
    cursor.tokenAfter ch start = cursor.word start false := by
  unfold tokenAfter
  split
  case h_19 =>
    have hdigit : ¬ch.isDigit = true := by
      unfold Char.isLower at h
      grind [Char.isDigit]
    rw [if_neg hdigit, if_pos h]
  all_goals exact absurd h (by decide)

theorem tokenAfter_of_isUpper (h : ch.isUpper = true) (cursor : Cursor) (start : ℕ) :
    cursor.tokenAfter ch start = cursor.word start true := by
  unfold tokenAfter
  split
  case h_19 =>
    have hcode := h
    unfold Char.isUpper at hcode
    have hdigit : ¬ch.isDigit = true := by grind [Char.isDigit]
    have hlower : ¬ch.isLower = true := by
      unfold Char.isLower
      grind
    rw [if_neg hdigit, if_neg hlower, if_pos h]
  all_goals exact absurd h (by decide)

theorem tokenAfter_of_isDigit (h : ch.isDigit = true) (cursor : Cursor) (start : ℕ) :
    cursor.tokenAfter ch start = cursor.number start := by
  unfold tokenAfter
  split
  case h_19 => rw [if_pos h]
  all_goals exact absurd h (by decide)

/-- Reading on over a piece that ends. -/
theorem advanceWhile_of_forall {before after : List Char} (h : cursor.At before (piece ++ after))
    (hpiece : ∀ ch ∈ piece, p ch = true) (hafter : after.takeWhile p = []) :
    cursor.advanceWhile p = cursor.moved piece := by
  rw [advanceWhile_eq h, List.takeWhile_append_of_pos hpiece, hafter, List.append_nil]

/-- What is read of a word from behind its first character on. -/
theorem word_eq {before after : List Char} {typeName : Bool}
    (h : cursor.At before (ch :: rest ++ after))
    (hrest : ∀ ch ∈ rest, isIdentifierContinue ch = true) (hafter : Ends after) :
    (cursor.moved [ch]).word cursor.index typeName = .ok
      (cursor.spanned (if typeName then .typeIdentifier (String.ofList (ch :: rest)) else
          wordKind (String.ofList (ch :: rest)))
        cursor.index (cursor.moved (ch :: rest)).index, cursor.moved (ch :: rest)) := by
  have hmoved : (cursor.moved [ch]).At (before ++ [ch]) (rest ++ after) := At.moved h
  have hslice : (cursor.moved (ch :: rest)).slice cursor.index (cursor.moved (ch :: rest)).index = ch :: rest := by
    rw [h.index_eq]
    exact (At.moved h).slice
  rw [word, advanceWhile_of_forall hmoved hrest (hafter.takeWhile (by decide)), ← moved_append]
  simp only [List.singleton_append, hslice]
  cases typeName with
  | true => rfl
  | false =>
    simp only [Bool.false_eq_true, if_false, wordKind]
    cases Keyword.fromWord (String.ofList (ch :: rest)) <;> rfl

end Cursor

theorem isPiece_word {first : Char → Bool}
    (hfst : ∀ ch, first ch = true → isIdentifierContinue ch = true) {word : List Char}
    (h : IsWord first word) : IsPiece word ∧ ∀ tail, ¬['"', '"', '"'] <+: word ++ tail := by
  have hcont {p : Char} (hp : isIdentifierContinue p = false) {ch : Char} (hch : isIdentifierContinue ch = true) : ch ≠ p := by
    rintro rfl
    exact absurd hch (by simp [hp])
  cases word with
  | nil => exact h.elim
  | cons ch rest =>
    obtain ⟨hch, hrest⟩ := h
    have hall : ∀ ch' ∈ ch :: rest, isIdentifierContinue ch' = true := by
      rintro ch' (_ | ⟨_, hmem⟩)
      · exact hfst ch hch
      · exact hrest ch' hmem
    have hhead := hall ch List.mem_cons_self
    refine ⟨isPiece_cons ⟨⟨hcont rfl hhead, hcont rfl hhead⟩, hcont rfl hhead⟩ fun ch' hmem => ?_, fun tail => ?_⟩
    · exact ⟨hcont rfl (hall ch' hmem), hcont rfl (hall ch' hmem)⟩
    · exact not_opens_quotes (hcont rfl hhead) _

theorem isIdentifierContinue_of_isUpper (h : ch.isUpper = true) :
    isIdentifierContinue ch = true := by
  unfold isIdentifierContinue Char.isAlphanum Char.isAlpha
  simp [h]

theorem wordKind_isLayout (word : String) : (wordKind word).isLayout = false := by
  unfold wordKind
  split <;> rfl

/-- A word in lower case. -/
theorem lexes_word {word : String} (h : IsWord Char.isLower word.toList) (htail : Ends tail) :
    Lexes word.toList [wordKind word] tail := by
  obtain ⟨word, rfl⟩ := exists_ofList word
  rw [String.toList_ofList] at h ⊢
  obtain ⟨hpiece, hquo⟩ := isPiece_word (fun _ => isIdentifierContinue_of_isLower) h
  refine lexes_of_takes hpiece (hquo tail) (wordKind_isLayout _)
    fun after hafter cursor before hat => ?_
  cases word with
  | nil => exact h.elim
  | cons ch rest =>
    rw [Cursor.nextToken_eq hat, Cursor.tokenAfter_of_isLower h.1,
      Cursor.word_eq hat h.2 (htail.shorter hafter)]
    rfl

/-- The name of a type. -/
theorem lexes_typeName (h : IsWord Char.isUpper name.toList) (htail : Ends tail) :
    Lexes name.toList [.typeIdentifier name] tail := by
  obtain ⟨name, rfl⟩ := exists_ofList name
  rw [String.toList_ofList] at h ⊢
  obtain ⟨hpiece, hquo⟩ := isPiece_word (fun _ => isIdentifierContinue_of_isUpper) h
  refine lexes_of_takes hpiece (hquo tail) rfl fun after hafter cursor before hat => ?_
  cases name with
  | nil => exact h.elim
  | cons ch rest =>
    rw [Cursor.nextToken_eq hat, Cursor.tokenAfter_of_isUpper h.1,
      Cursor.word_eq hat h.2 (htail.shorter hafter)]
    rfl

/-- A dot and the name of a field. -/
theorem lexes_fieldAccessor (h : IsWord Char.isLower name.toList) (htail : Ends tail) :
    Lexes ('.' :: name.toList) [.fieldAccessor name] tail := by
  obtain ⟨name, rfl⟩ := exists_ofList name
  rw [String.toList_ofList] at h ⊢
  cases name with
  | nil => exact h.elim
  | cons ch rest =>
    have hname := (isPiece_word (fun _ => isIdentifierContinue_of_isLower) h).1
    have hpiece : IsPiece ('.' :: ch :: rest) := by
      refine ⟨⟨_, _, rfl, ⟨by decide, by decide⟩, by decide⟩, ?_, ?_⟩
      · simpa using hname.feed
      · simpa [List.getLast?_cons] using hname.last
    refine lexes_of_takes hpiece (not_opens_quotes (by decide) _) rfl fun after hafter cursor
      before hat => ?_
    have hmoved : (cursor.moved ['.']).At (before ++ ['.']) (ch :: rest ++ after) :=
      Cursor.At.moved hat
    have hdots : (cursor.moved ['.']).consumeIf '.' = none := by
      refine Cursor.consumeIf_of_ne hmoved ?_
      rintro ⟨⟩
      exact absurd h.1 (by decide)
    have hcur : (cursor.moved ['.']).current.any Char.isLower = true := by
      rw [Cursor.current, hmoved.rest]
      exact h.1
    have hall : ∀ ch' ∈ ch :: rest, isIdentifierContinue ch' = true := by
      rintro ch' (_ | ⟨_, hmem⟩)
      · exact isIdentifierContinue_of_isLower h.1
      · exact h.2 ch' hmem
    have hread : (cursor.moved ['.']).advanceWhile isIdentifierContinue = cursor.moved ('.' :: ch :: rest) := by
      rw [Cursor.advanceWhile_of_forall hmoved hall ((htail.shorter hafter).takeWhile (by decide)), ← Cursor.moved_append]
      rfl
    have hslice : (cursor.moved ('.' :: ch :: rest)).slice (cursor.index + 1)
        (cursor.moved ('.' :: ch :: rest)).index = ch :: rest := by
      have hslice := (Cursor.At.moved hmoved).slice
      rw [bytes_append, ← hat.index_eq, ← Cursor.moved_append] at hslice
      exact hslice
    rw [Cursor.nextToken_eq hat]
    simp only [Cursor.tokenAfter, hdots, Cursor.fieldAccessor, hcur, if_true, hread, hslice]
    rfl

/-! ### Numbers -/

/-- Some digits. -/
def AreDigits (digits : List Char) : Prop := digits ≠ [] ∧ ∀ ch ∈ digits, ch.isDigit = true

/-- What begins with digits is read as a number. -/
theorem Cursor.nextToken_of_digits {before after : List Char}
    (h : cursor.At before (digits ++ after)) (hdigits : AreDigits digits)
    (hafter : after.takeWhile Char.isDigit = []) :
    ∃ ch, cursor.nextToken = (cursor.moved [ch]).number cursor.index ∧
      (cursor.moved [ch]).advanceWhile Char.isDigit = cursor.moved digits := by
  obtain ⟨hne, hall⟩ := hdigits
  cases digits with
  | nil => exact absurd rfl hne
  | cons ch rest =>
    refine ⟨ch, ?_, ?_⟩
    · rw [nextToken_eq h, tokenAfter_of_isDigit (hall ch List.mem_cons_self)]
    · have hmoved : (cursor.moved [ch]).At (before ++ [ch]) (rest ++ after) := At.moved h
      rw [advanceWhile_of_forall hmoved (fun ch' hmem => hall ch' (List.mem_cons_of_mem _ hmem)) hafter, ← moved_append]
      rfl

theorem AreDigits.isPiece (h : AreDigits digits) (hrest : ∀ ch ∈ rest, ch ≠ '\n' ∧ ch ≠ '\r') :
    IsPiece (digits ++ rest) ∧ ∀ tail, ¬['"', '"', '"'] <+: digits ++ rest ++ tail := by
  obtain ⟨hne, hall⟩ := h
  have hdigit {p : Char} (hp : p.isDigit = false) {ch : Char} (hch : ch.isDigit = true) :
      ch ≠ p := by
    rintro rfl
    exact absurd hch (by simp [hp])
  cases digits with
  | nil => exact absurd rfl hne
  | cons ch digits =>
    have hhead := hall ch List.mem_cons_self
    refine ⟨isPiece_cons ⟨⟨hdigit rfl hhead, hdigit rfl hhead⟩, hdigit rfl hhead⟩ fun ch' hmem => ?_, fun tail => ?_⟩
    · rcases List.mem_append.mp (show ch' ∈ (ch :: digits) ++ rest from hmem) with hmem | hmem
      · exact ⟨hdigit rfl (hall ch' hmem), hdigit rfl (hall ch' hmem)⟩
      · exact hrest ch' hmem
    · exact not_opens_quotes (hdigit rfl hhead) _

theorem parseU64_toDigits {value : ℕ} (h : value < 2 ^ 64) (span : Span) :
    parseU64 (Nat.toDigits 10 value) span = .ok value := by
  have hval : (Nat.toDigits 10 value).foldl (fun value ch => 10 * value + (ch.toNat - '0'.toNat)) 0 = value := by
    rw [← Nat.ofDigitChars_eq_foldl]
    exact Nat.ofDigitChars_ten_toDigits
  rw [parseU64, hval]
  exact if_pos h

theorem areDigits_toDigits (value : ℕ) : AreDigits (Nat.toDigits 10 value) :=
  ⟨Nat.toDigits_ne_nil, fun _ hch => Nat.isDigit_of_mem_toDigits (by decide) (by decide) hch⟩

theorem Cursor.At.slice_moved {before after : List Char} (h : cursor.At before (piece ++ after)) :
    (cursor.moved piece).slice cursor.index (cursor.moved piece).index = piece := by
  rw [h.index_eq]
  exact (At.moved h).slice

/-- No unit of durations follows. -/
theorem Ends.durationUnit (h : Ends tail) : tail.head?.bind durationUnit = none := by
  cases hhead : tail.head? with
  | none => rfl
  | some ch =>
    have hunits : ('.' :: delimiters).all (fun ch => !(Aion.Awl.durationUnit ch).isSome) = true := by decide
    simpa using h.head_eq_false hunits ch hhead

/-- No fraction follows. -/
theorem Ends.plainNumber {before : List Char} (h : Ends tail) (hat : cursor.At before tail)
    (start : ℕ) : cursor.plainNumber start = Cursor.plainNumber.integer cursor start := by
  rw [Cursor.plainNumber, hat.rest]
  split
  · next digit rest =>
    rw [if_neg (by rw [h.fraction digit rest rfl]; exact Bool.false_ne_true)]
  · rfl

/-- An integer. -/
theorem lexes_integer {value : ℕ} (h : value < 2 ^ 64) (htail : Ends tail) :
    Lexes (Nat.toDigits 10 value) [.integer value] tail := by
  have hdigits := areDigits_toDigits value
  generalize hshown : Nat.toDigits 10 value = digits at hdigits
  have hpiece := hdigits.isPiece (List.forall_mem_nil _)
  rw [List.append_nil] at hpiece
  refine lexes_of_takes hpiece.1 (hpiece.2 tail) rfl fun after hafter cursor before hat => ?_
  have hends := htail.shorter hafter
  obtain ⟨ch, hnext, hread⟩ := Cursor.nextToken_of_digits hat hdigits (hends.takeWhile (by decide))
  have hbehind := Cursor.At.moved hat
  have hunit : (cursor.moved digits).current.bind durationUnit = none := by
    rw [Cursor.current, hbehind.rest]
    exact hends.durationUnit
  rw [hnext, Cursor.number, hread]
  simp only [hunit, hends.plainNumber hbehind, Cursor.plainNumber.integer, hat.slice_moved]
  rw [← hshown, parseU64_toDigits h]
  rfl

/-- A duration. -/
theorem lexes_duration {magnitude : ℕ} {unit : DurationUnit} (h : magnitude < 2 ^ 64)
    (hunit : durationUnit ch = some unit) (htail : Ends tail) :
    Lexes (Nat.toDigits 10 magnitude ++ [ch]) [.duration magnitude unit] tail := by
  have hdigits := areDigits_toDigits magnitude
  generalize hshown : Nat.toDigits 10 magnitude = digits at hdigits
  have hch : (ch ≠ '\n' ∧ ch ≠ '\r') ∧ ch.isDigit = false := by
    unfold durationUnit at hunit
    split at hunit <;> first | exact ⟨⟨by decide, by decide⟩, rfl⟩ | cases hunit
  have hpiece := hdigits.isPiece (List.forall_mem_singleton.mpr hch.1)
  refine lexes_of_takes hpiece.1 (hpiece.2 tail) rfl fun after hafter cursor before hat => ?_
  have hends := htail.shorter hafter
  have hat' := hat
  rw [List.append_assoc] at hat'
  obtain ⟨first, hnext, hread⟩ :=
    Cursor.nextToken_of_digits hat' hdigits (List.takeWhile_cons_of_neg (by simp [hch.2]))
  have hbehind : (cursor.moved digits).At (before ++ digits) ([ch] ++ after) := Cursor.At.moved hat'
  have hcur : (cursor.moved digits).current.bind durationUnit = some unit := by
    rw [Cursor.current, hbehind.rest]
    exact hunit
  have hmoved : { cursor.moved digits with index := (cursor.moved digits).index + 1 } = cursor.moved (digits ++ [ch]) := by
    simp [Cursor.moved, Cursor.durationUnit_size hunit, Nat.add_assoc]
  have hcont : (cursor.moved (digits ++ [ch])).current.any isIdentifierContinue = false := by
    rw [Cursor.current, (Cursor.At.moved hat).rest]
    cases after with
    | nil => rfl
    | cons ch rest =>
      have hdelimiters : ('.' :: delimiters).all (!isIdentifierContinue ·) = true := by decide
      exact hends.head_eq_false hdelimiters ch rfl
  rw [hnext, Cursor.number, hread]
  simp only [hcur, hmoved, hcont, hat'.slice_moved]
  rw [← hshown, parseU64_toDigits h]
  rfl

theorem parsesAsFloat_eq_true {lexeme : List Char} (h : parsesAsFloat lexeme = true) :
    ∃ whole fraction, lexeme = whole ++ '.' :: fraction ∧ AreDigits whole ∧ AreDigits fraction := by
  unfold parsesAsFloat at h
  split at h
  · next whole fraction hspan =>
    rw [List.span_eq_takeWhile_dropWhile] at hspan
    obtain ⟨rfl, hrest⟩ := Prod.mk.inj hspan
    simp only [Bool.and_eq_true, Bool.not_eq_true', List.isEmpty_eq_false_iff,
      List.all_eq_true] at h
    obtain ⟨⟨hwhole, hfraction⟩, hall⟩ := h
    refine ⟨_, fraction, ?_, ⟨hwhole, fun ch hch => List.mem_takeWhile_imp hch⟩, hfraction, hall⟩
    rw [← hrest, List.takeWhile_append_dropWhile]
  · cases h

/-- A floating-point number. -/
theorem lexes_float {lexeme : String} (h : parsesAsFloat lexeme.toList = true) (htail : Ends tail) :
    Lexes lexeme.toList [.float lexeme] tail := by
  obtain ⟨lexeme, rfl⟩ := exists_ofList lexeme
  rw [String.toList_ofList] at h ⊢
  obtain ⟨whole, fraction, hlexeme, hwhole, hne, hall⟩ := parsesAsFloat_eq_true h
  have hplain : ∀ ch ∈ '.' :: fraction, ch ≠ '\n' ∧ ch ≠ '\r' := by
    rintro ch (_ | ⟨_, hmem⟩)
    · decide
    · constructor <;> rintro rfl <;> exact absurd (hall _ hmem) (by decide)
  have hpiece := hwhole.isPiece hplain
  rw [← hlexeme] at hpiece
  refine lexes_of_takes hpiece.1 (hpiece.2 tail) rfl fun after hafter cursor before hat => ?_
  have hends := htail.shorter hafter
  have hat' : cursor.At before (whole ++ ('.' :: (fraction ++ after))) := by
    simpa [hlexeme] using hat
  obtain ⟨first, hnext, hread⟩ :=
    Cursor.nextToken_of_digits hat' hwhole (List.takeWhile_cons_of_neg (by decide))
  have hbehind := Cursor.At.moved hat'
  have hcur : (cursor.moved whole).current.bind durationUnit = none := by
    rw [Cursor.current, hbehind.rest]
    rfl
  have hdot : ((cursor.moved whole).moved ['.']).At (before ++ whole ++ ['.']) (fraction ++ after) := Cursor.At.moved hbehind
  have hmoved : ({ cursor.moved whole with index :=
      (cursor.moved whole).index + 1 } : Cursor).advanceWhile Char.isDigit =
      cursor.moved lexeme := by
    change ((cursor.moved whole).moved ['.']).advanceWhile Char.isDigit = cursor.moved lexeme
    rw [Cursor.advanceWhile_of_forall hdot hall (hends.takeWhile (by decide)),
      ← Cursor.moved_append, ← Cursor.moved_append, hlexeme]
    rfl
  have hfloat : (cursor.moved whole).plainNumber cursor.index =
      (cursor.moved lexeme).simple (.float (String.ofList lexeme)) cursor.index := by
    obtain ⟨digit, rest, rfl⟩ := List.exists_cons_of_ne_nil hne
    rw [Cursor.plainNumber, hbehind.rest]
    simp [hall digit List.mem_cons_self, hmoved, hat.slice_moved, h]
  rw [hnext, Cursor.number, hread]
  simp only [hcur, hfloat]
  rfl

/-! ### Documents -/

/-- At the end of the document the line is closed, and nothing comes in. -/
theorem Facing.ends (h : Facing source lexer line cursor []) :
    ∃ final, lexer.Adds [] final ∧ final.Between source source [] ∧
    ∀ fuel, lexer.lexRest source (fuel + 1) line cursor = some (.ok final) := by
  obtain ⟨head, before, after, terminator, rest, hin, hnil⟩ := h
  obtain ⟨htext, rfl⟩ := List.append_eq_nil_iff.mp hnil
  obtain ⟨rfl, rfl⟩ := List.append_eq_nil_iff.mp htext
  have hskip : cursor.skipInlineWhitespace = cursor := by
    rw [Cursor.skipInlineWhitespace, Cursor.advanceWhile_eq hin.at_]
    exact Cursor.moved_nil
  have hquiet : line.hasLineFeed = false := by
    rw [hin.physical]
    rfl
  obtain ⟨done, hdone⟩ := hin.finishLine true
  obtain rfl : source = done := hdone.source_eq.trans (List.append_nil done)
  refine ⟨_, ?_, hdone, fun fuel => ?_⟩
  · constructor <;> simp [Lexer.finishLine, hquiet]
  · rw [Lexer.lexRest, hskip, if_pos (hin.isAtEnd_iff.mpr rfl)]

/-- The first line of a document that begins with a token. -/
theorem facing_begin (hsrc : source = ch :: rest) (hch : Opens ch) (hwhite : isWhite ch = false) :
    ∃ line cursor, Facing source ⟨[], [0], 0, 1⟩ line cursor source ∧
      ∀ fuel, Lexer.lexLine source fuel ⟨[], [0], 0, 1⟩ =
        Lexer.lexRest source fuel ⟨[], [0], 0, 1⟩ line cursor := by
  have hbegin := Lexer.between_begin source
  obtain ⟨text, terminator, left, htext, hline, hspl⟩ := splitLine_eq [] source
  have hplain : '\n' ∉ [ch] ∧ [ch].getLast? ≠ some '\r' := by
    constructor
    · intro hmem
      obtain rfl := List.mem_singleton.mp hmem
      exact absurd hwhite (by decide)
    · rintro ⟨⟩
      exact absurd hwhite (by decide)
  obtain ⟨more, rfl, -⟩ := hline.of_append (htext.symm.trans hsrc) hplain.1 hplain.2
  have htext' : source = [] ++ (ch :: more) ++ terminator ++ left := htext
  have hline' : IsLine ([] ++ (ch :: more)) terminator left := hline
  have hlaid : (⟨[], [0], 0, 1⟩ : Lexer).Laid source ([] ++ []) := hbegin.laid
  have hin := hbegin.inLine htext' (.inl rfl) hline' rfl hlaid
  refine ⟨_, _, ⟨_, _, _, _, _, hin, htext.symm⟩, fun fuel => ?_⟩
  have hphysical : splitLine source 0 = .of [] (ch :: more) terminator := hspl
  have hspaces : countLeadingSpaces (ch :: more) 0 1 = .ok 0 := by
    have htake : (ch :: more).takeWhile (· = ' ') = [] :=
      List.takeWhile_cons_of_neg (by simpa using hch.1)
    have hdrop : (ch :: more).dropWhile (· = ' ') = ch :: more :=
      List.dropWhile_cons_of_neg (by simpa using hch.1)
    rw [countLeadingSpaces, htake, hdrop]
    split
    · next heq =>
      obtain ⟨rfl, -⟩ := List.cons.inj heq
      cases hwhite
    · rfl
  have hblank : ¬(ch :: more).all isWhite = true := by simp [hwhite]
  have hcom : ¬['/', '/'].isPrefixOf (ch :: more) = true := by
    intro hslash
    simp [hch.2.symm] at hslash
  rw [Lexer.lexLine, hphysical]
  simp only [PhysicalLine.of, bytes_nil, hspaces, fromByte_zero, if_neg hblank, if_neg hcom]
  rfl

/-- A document that is a text of tokens has these tokens, and no others. -/
theorem Lexes.lex {document : String} (h : Lexes document.toList kinds [])
    (hdocument : document.toList = ch :: rest) (hch : Opens ch) (hwhite : isWhite ch = false) :
    ∃ tokens, (∀ fuel, document.toList.length + 2 ≤ fuel →
        Aion.Awl.lex fuel document = some (.ok tokens)) ∧
      tokens.map Token.kind = kinds := by
  obtain ⟨line, cursor, hfacing, hline⟩ := facing_begin hdocument hch hwhite
  have hwhole : Facing document.toList ⟨[], [0], 0, 1⟩ line cursor (document.toList ++ []) := by
    rwa [List.append_nil]
  obtain ⟨lexer', line', cursor', hfacing', hadds, count, hsteps⟩ := h _ _ _ _ hwhole
  obtain ⟨final, hadds', hfinal, hends⟩ := hfacing'.ends
  obtain ⟨htoks, hindents⟩ := hadds.append hadds'
  have hmore : 0 < bytes document.toList := by
    rw [hdocument]
    exact Nat.pos_of_ne_zero (bytes_ne_zero ch rest)
  have hdone : ¬final.offset < bytes document.toList := by
    rw [hfinal.offset_eq]
    exact Nat.lt_irrefl _
  have hlines : Lexer.lexLines document.toList (count + 2) ⟨[], [0], 0, 1⟩ = some (.ok final) := by
    have hopened : final.indents.length - 1 = 0 := by
      rw [hindents]
      rfl
    rw [Lexer.lexLines, if_pos hmore, hline, Nat.add_comm, hsteps, hends]
    dsimp only
    rw [Nat.add_comm, Lexer.lexLines, if_neg hdone]
    simp [hopened]
  have hlines : ∀ fuel, document.toList.length + 2 ≤ fuel →
      Lexer.lexLines document.toList fuel ⟨[], [0], 0, 1⟩ = some (.ok final) := by
    intro fuel hfuel
    obtain ⟨result, hres⟩ := Option.isSome_iff_exists.mp ((lexLines_spec fuel (Lexer.between_begin document.toList)).1 hfuel)
    have hmax := lexLines_mono (Nat.le_max_left fuel (count + 2)) hres
    rw [lexLines_mono (Nat.le_max_right fuel (count + 2)) hlines] at hmax
    rw [hres, hmax]
  refine ⟨final.tokens, fun fuel hfuel => ?_, by simpa using htoks⟩
  rw [Aion.Awl.lex, hlines fuel hfuel]
  rfl

end Aion.Awl
