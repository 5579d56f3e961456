import Aion.Awl.LexerLexemes

/-!
# Where tokens lie in the source

`lex_layout`: the lexer ends on every document, and when it succeeds, the document is the
tokens' texts in order, with nothing but spaces, blank lines and line ends between them; a
token carries the line and the column of its place, and indentations close as they open.

The text is laid with tokens from the left (`Tiles`). Within a line the cursor is behind what is
laid so far (`InLine`); each token moves it over its own text (`Took`), and a capture moves it to
where the capture ends, in this line or in a later one, which is split anew (`InLine.capture`).
Between lines the offset, the counter and the open levels are those of what is laid (`Between`).
-/

namespace Aion.Awl

open SourceText

/-! ### Tokens laid on a text -/

/-- The ends of lines that count as such. -/
def IsTerminator (text : List Char) : Prop := text = ['\n'] ∨ text = ['\r', '\n']

/-- A line, or the start of one, with nothing on it. -/
def IsBlank (text : List Char) : Prop := ∀ ch ∈ text, isWhite ch = true ∧ ch ≠ '\n'

/-- A token's text is a piece of the document, with the place of the piece. -/
structure Token.Covers (token : Token) (before piece : List Char) : Prop where
  start_eq : token.span.start = bytes before
  stop_eq : token.span.stop = bytes (before ++ piece)
  place : token.kind ≠ .indent → token.kind ≠ .dedent → token.span.line = lineOf before ∧
    token.span.column = columnOf before
  newline : token.kind = .newline → IsTerminator piece
  indent : token.kind = .indent → ∀ ch ∈ piece, ch = ' '
  dedent : token.kind = .dedent → piece = []

/-- A text that is the pieces of tokens in order; between two of them are spaces, line ends and
blank lines. Behind the last may be a line without an end: a blank one, or a carriage return. -/
inductive Tiles (source : List Char) : List Char → List Token → Prop
  | start : Tiles source [] []
  | space {before : List Char} {tokens : List Token} : Tiles source before tokens →
    Tiles source (before ++ [' ']) tokens
  | terminator {before ending : List Char} {tokens : List Token} :
    Tiles source before tokens → IsTerminator ending → Tiles source (before ++ ending) tokens
  | blankLine {before white : List Char} {tokens : List Token} :
    Tiles source before tokens → AtLineStart before → IsBlank white →
    Tiles source (before ++ white ++ ['\n']) tokens
  | last {before rest : List Char} {tokens : List Token} :
    Tiles source before tokens → before ++ rest = source → rest = ['\r'] ∨
      (AtLineStart before ∧ IsBlank rest) →
    Tiles source source tokens
  | token {before piece : List Char} {tokens : List Token} {token : Token} :
    Tiles source before tokens → token.Covers before piece →
    Tiles source (before ++ piece) (tokens ++ [token])

/-- How many levels are open behind a token; `none` when none was left to close. -/
def TokenKind.depth (open_ : ℕ) : TokenKind → Option ℕ
  | .indent => some (open_ + 1)
  | .dedent => if open_ = 0 then none else some (open_ - 1)
  | _ => some open_

/-- How many levels are open behind some tokens; `none` when more were closed than opened. -/
def depthAfter (tokens : List Token) : Option ℕ :=
  tokens.foldlM (fun open_ token => token.kind.depth open_) 0

theorem depthAfter_concat (tokens : List Token) (token : Token) :
    depthAfter (tokens ++ [token]) = (depthAfter tokens).bind token.kind.depth := by
  simp [depthAfter]

variable {result : Except LexError Lexer} {laid text left white done chars value : List Char}
  {tokens : List Token} {newlines stop fuel count : ℕ} {kind : TokenKind} {openSpan span : Span}
  {emitNewline : Bool} {last : Char}

theorem Tiles.spaces {source before : List Char} (h : Tiles source before tokens)
    (hwhite : ∀ ch ∈ white, ch = ' ') : Tiles source (before ++ white) tokens := by
  induction white generalizing before with
  | nil => rwa [List.append_nil]
  | cons ch white ih =>
    obtain rfl := hwhite ch List.mem_cons_self
    rw [List.append_cons]
    exact ih h.space fun ch hch => hwhite ch (List.mem_cons_of_mem _ hch)

/-! ### Lines -/

/-- What a line's text and its end are: at the end of the document, a line may end with a carriage
return or with nothing. -/
structure IsLine (text terminator rest : List Char) : Prop where
  inLine : '\n' ∉ text
  ends : IsTerminator terminator ∨ rest = [] ∧ (terminator = [] ∨ terminator = ['\r'])

/-- The line behind `head`. -/
def PhysicalLine.of (head text terminator : List Char) : PhysicalLine :=
  ⟨bytes head, text, bytes terminator, '\n' ∈ terminator⟩

theorem splitLine_eq (head left : List Char) :
    ∃ text terminator rest, left = text ++ terminator ++ rest ∧
    IsLine text terminator rest ∧ splitLine (head ++ left) (bytes head) =
      .of head text terminator := by
  obtain ⟨raw, tail, rfl, hraw, htake, htail⟩ := exists_lineEnd left
  have hfeed : '\n' ∈ raw ++ tail ↔ tail ≠ [] := by
    rcases htail with rfl | ⟨rest, rfl⟩ <;> simp [hraw]
  rw [splitLine, fromByte_append, htake]
  by_cases hcr : raw.getLast? = some '\r'
  · obtain ⟨text, rfl⟩ := List.getLast?_eq_some_iff.mp hcr
    have htext : '\n' ∉ text := fun h => hraw (List.mem_append_left _ h)
    rcases htail with rfl | ⟨rest, rfl⟩
    · exact ⟨text, ['\r'], [], by simp, ⟨htext, .inr ⟨rfl, .inr rfl⟩⟩, by simp [PhysicalLine.of, htext]; rfl⟩
    · exact ⟨text, ['\r', '\n'], rest, by simp, ⟨htext, .inl (.inr rfl)⟩, by simp [PhysicalLine.of]; rfl⟩
  · rcases htail with rfl | ⟨rest, rfl⟩
    · exact ⟨raw, [], [], by simp, ⟨hraw, .inr ⟨rfl, .inl rfl⟩⟩, by simp [PhysicalLine.of, hraw, hcr]⟩
    · exact ⟨raw, ['\n'], rest, by simp, ⟨hraw, .inl (.inl rfl)⟩, by simp [PhysicalLine.of, hcr]; rfl⟩

/-- What begins where a line does, crosses no line feed and does not end on a carriage return stays
in the line's text. -/
theorem IsLine.of_append {terminator rest piece : List Char} (h : IsLine text terminator rest)
    (heq : text ++ terminator ++ rest = piece ++ left) (hpiece : '\n' ∉ piece)
    (hlast : piece.getLast? ≠ some '\r') :
    ∃ after, text = piece ++ after ∧ left = after ++ terminator ++ rest := by
  rw [List.append_assoc] at heq
  rcases List.append_eq_append_iff.mp heq with ⟨extra, rfl, hextra⟩ | ⟨after, rfl, rfl⟩
  · rcases extra with _ | ⟨ch, extra⟩
    · exact ⟨[], by simp, by simpa using hextra.symm⟩
    -- the piece would go on into the terminator
    exfalso
    have hch : ch ≠ '\n' := fun h => hpiece (by simp [h])
    rcases h.ends with (rfl | rfl) | ⟨rfl, rfl | rfl⟩
    · exact hch (by simpa using (List.cons.inj hextra).1.symm)
    · obtain ⟨rfl, hfeed⟩ := List.cons.inj hextra
      rcases extra with _ | ⟨ch', extra⟩
      · exact hlast (by simp)
      · obtain ⟨rfl, -⟩ := List.cons.inj hfeed
        exact hpiece (by simp)
    · cases hextra
    · obtain ⟨rfl, hnil⟩ := List.cons.inj hextra
      obtain ⟨rfl, -⟩ := List.append_eq_nil_iff.mp hnil.symm
      exact hlast (by simp)
  · exact ⟨after, rfl, by simp⟩

/-! ### The lexer on what is laid -/

/-- The tokens are laid on a text, and the levels are those they left open, over the bottom
level. -/
structure Lexer.Laid (lexer : Lexer) (source laid : List Char) : Prop where
  tiles : Tiles source laid lexer.tokens
  depth : depthAfter lexer.tokens = some (lexer.indents.length - 1)
  bottom : lexer.indents.getLast? = some 0

/-- Between two lines, or behind the last. -/
structure Lexer.Between (lexer : Lexer) (source done left : List Char) : Prop where
  source_eq : source = done ++ left
  start : AtLineStart done ∨ left = []
  offset_eq : lexer.offset = bytes done
  line_eq : lexer.line = lineOf done
  laid : lexer.Laid source done

/-- In a line: `head` is the text before the line, `before` the part of the line that is read,
`after` the part that is not. -/
structure InLine (source : List Char) (lexer : Lexer) (line : PhysicalLine) (cursor : Cursor)
    (head before after terminator rest : List Char) : Prop where
  source_eq : source = head ++ (before ++ after ++ terminator ++ rest)
  isLine : IsLine (before ++ after) terminator rest
  start : AtLineStart head
  physical : line = .of head (before ++ after) terminator
  cursor_eq : cursor = ⟨before ++ after, bytes head, lexer.line, bytes before⟩
  line_eq : lexer.line = lineOf head
  laid : lexer.Laid source (head ++ before)

variable {source : List Char} {lexer pushed : Lexer} {line : PhysicalLine} {cursor : Cursor}
  {head before after terminator rest piece : List Char}

@[simp]
theorem Lexer.push_line (lexer : Lexer) (kind : TokenKind) (span : Span) :
    (lexer.push kind span).line = lexer.line := rfl

/-- A token is laid behind the others. -/
theorem Lexer.Laid.push (h : lexer.Laid source laid)
    (hcov : (⟨kind, span⟩ : Token).Covers laid piece) (hindent : kind ≠ .indent)
    (hdedent : kind ≠ .dedent) : (lexer.push kind span).Laid source (laid ++ piece) := by
  refine ⟨h.tiles.token hcov, ?_, h.bottom⟩
  rw [Lexer.push, depthAfter_concat, h.depth]
  cases kind <;> first | rfl | contradiction

/-- A token that is not one of layout is laid behind the others. -/
theorem Lexer.Laid.pushText (h : lexer.Laid source laid) (hkind : kind.isLayout = false)
    (hspan : span = ⟨bytes laid, bytes (laid ++ piece), lineOf laid, columnOf laid⟩) :
    (lexer.push kind span).Laid source (laid ++ piece) := by
  have hcov : (⟨kind, span⟩ : Token).Covers laid piece := by
    rw [hspan]
    refine ⟨rfl, rfl, fun _ _ => ⟨rfl, rfl⟩, ?_, ?_, ?_⟩ <;> rintro rfl <;> cases hkind
  refine h.push hcov ?_ ?_ <;> rintro rfl <;> cases hkind

namespace InLine

theorem at_ (h : InLine source lexer line cursor head before after terminator rest) :
    cursor.At before after := by
  rw [h.cursor_eq]
  exact ⟨rfl, rfl⟩

/-- The place of what follows the cursor. -/
theorem span_eq (h : InLine source lexer line cursor head before after terminator rest)
    (piece : List Char) :
    cursor.span cursor.index (cursor.moved piece).index =
      ⟨bytes (head ++ before), bytes (head ++ before ++ piece), lineOf (head ++ before),
          columnOf (head ++ before)⟩ := by
  have hin : '\n' ∉ before := fun hmem => h.isLine.inLine (List.mem_append_left _ hmem)
  rw [lineOf_append, List.count_eq_zero.mpr hin, columnOf_append h.start hin, h.cursor_eq]
  simp [Cursor.span, Cursor.moved, columnAt, h.line_eq, Nat.add_comm]

theorem fromByte_eq (h : InLine source lexer line cursor head before after terminator rest) :
    fromByte source (cursor.base + cursor.index) = after ++ terminator ++ rest := by
  have hsrc : source = (head ++ before) ++ (after ++ terminator ++ rest) := by simp [h.source_eq]
  rw [h.cursor_eq, ← bytes_append, hsrc, fromByte_append]

theorem isAtEnd_iff (h : InLine source lexer line cursor head before after terminator rest) :
    cursor.isAtEnd = true ↔ after = [] := by
  rw [Cursor.isAtEnd, decide_eq_true_iff, h.cursor_eq, bytes_append]
  cases after with
  | nil => simp
  | cons ch after => simpa [Nat.pos_iff_ne_zero] using bytes_ne_zero ch after

/-- Over a piece of the line that is laid. -/
theorem moved (h : InLine source lexer line cursor head before (piece ++ after) terminator rest)
    (hline : pushed.line = lexer.line) (hlaid : pushed.Laid source (head ++ before ++ piece)) :
    InLine source pushed line (cursor.moved piece) head (before ++ piece) after terminator rest where
  source_eq := by simpa using h.source_eq
  isLine := by simpa using h.isLine
  start := h.start
  physical := by simpa using h.physical
  cursor_eq := by simp [h.cursor_eq, Cursor.moved, hline]
  line_eq := hline.trans h.line_eq
  laid := by simpa using hlaid

/-- Over a token. -/
theorem push (h : InLine source lexer line cursor head before (piece ++ after) terminator rest)
    (hspan : span = cursor.span cursor.index (cursor.moved piece).index)
    (hkind : kind.isLayout = false) :
    InLine source (lexer.push kind span) line (cursor.moved piece) head
      (before ++ piece) after terminator rest := by
  rw [h.span_eq] at hspan
  exact h.moved rfl (h.laid.pushText hkind hspan)

/-- Over spaces. -/
theorem skipInlineWhitespace
    (h : InLine source lexer line cursor head before after terminator rest) :
    InLine source lexer line cursor.skipInlineWhitespace head (before ++ after.takeWhile (· = ' '))
      (after.dropWhile (· = ' '))
      terminator rest := by
  rw [Cursor.skipInlineWhitespace, Cursor.advanceWhile_eq h.at_]
  rw [← List.takeWhile_append_dropWhile (p := (· = ' ')) (l := after)] at h
  refine h.moved rfl ⟨h.laid.tiles.spaces fun ch hch => ?_, h.laid.depth, h.laid.bottom⟩
  simpa using List.mem_takeWhile_imp hch

end InLine

/-! ### Ends of lines -/

/-- The place behind a line that is laid to its end. -/
theorem Lexer.between_of_finishLine (hsrc : source = head ++ (text ++ terminator ++ rest))
    (hline : IsLine text terminator rest) (hlexer : lexer.line = lineOf head)
    (hlaid : (lexer.finishLine (.of head text terminator) emitNewline).Laid source
        (head ++ (text ++ terminator))) :
    (lexer.finishLine (.of head text terminator) emitNewline).Between source
      (head ++ (text ++ terminator)) rest := by
  have hcount : lineOf (head ++ (text ++ terminator)) = lineOf head + terminator.count '\n' := by
    rw [← List.append_assoc, lineOf_append, lineOf_append, List.count_eq_zero.mpr hline.inLine,
      Nat.add_zero]
  refine ⟨by simp [hsrc], ?_, by simp [finishLine, PhysicalLine.of, Nat.add_assoc], ?_, hlaid⟩
  · rcases hline.ends with (rfl | rfl) | ⟨rfl, -⟩
    · exact .inl (.inr (by simp))
    · exact .inl (.inr (by simp))
    · exact .inr rfl
  · rw [hcount]
    rcases hline.ends with (rfl | rfl) | ⟨rfl, rfl | rfl⟩ <;> simp [finishLine,
      PhysicalLine.of, hlexer]

/-- Closing a line pushes at most a token for the line's end. -/
theorem Lexer.Laid.finishLine
    (h : (if emitNewline && line.hasLineFeed then
        lexer.push .newline ⟨line.start + bytes line.text,
      line.start + bytes line.text + line.terminatorLen, lexer.line,
      columnAt line.text (bytes line.text)⟩ else lexer).Laid source laid) :
    (lexer.finishLine line emitNewline).Laid source laid :=
  ⟨h.tiles, h.depth, h.bottom⟩

/-- A line is closed behind its last token. -/
theorem InLine.finishLine (h : InLine source lexer line cursor head before [] terminator rest)
    (emitNewline : Bool) :
    ∃ done, (lexer.finishLine line emitNewline).Between source done rest := by
  have hsrc := h.source_eq
  have hline := h.isLine
  have hlaid := h.laid
  have hspan := h.span_eq terminator
  obtain rfl := h.cursor_eq
  obtain rfl := h.physical
  rw [List.append_nil] at hsrc hline hspan ⊢
  refine ⟨_, Lexer.between_of_finishLine hsrc hline h.line_eq (Lexer.Laid.finishLine ?_)⟩
  rw [← List.append_assoc]
  have hquiet : '\n' ∉ terminator → (PhysicalLine.of head before terminator).hasLineFeed = false := by simp [PhysicalLine.of]
  rcases hline.ends with hends | ⟨rfl, rfl | rfl⟩
  · have hfeed : (PhysicalLine.of head before terminator).hasLineFeed = true := by
      rcases hends with rfl | rfl <;> simp [PhysicalLine.of]
    rw [hfeed, Bool.and_true]
    cases emitNewline with
    | false => exact ⟨hlaid.tiles.terminator hends, hlaid.depth, hlaid.bottom⟩
    | true =>
      refine hlaid.push ⟨?_, ?_, fun _ _ => ?_, fun _ => hends, nofun, nofun⟩ nofun nofun
      · simp [PhysicalLine.of]
      · simp [PhysicalLine.of, Nat.add_assoc]
      · exact ⟨congrArg Span.line hspan, congrArg Span.column hspan⟩
  · rw [hquiet nofun, Bool.and_false, List.append_nil]
    exact hlaid
  · have hend : head ++ before ++ ['\r'] = source := by simpa using hsrc.symm
    rw [hquiet (by decide), Bool.and_false, hend]
    exact ⟨hlaid.tiles.last hend (.inl rfl), hlaid.depth, hlaid.bottom⟩

/-- A line with nothing on it. -/
theorem Lexer.between_of_blank (hsrc : source = head ++ (text ++ terminator ++ rest))
    (hline : IsLine text terminator rest) (hstart : AtLineStart head)
    (hlexer : lexer.line = lineOf head) (hlaid : lexer.Laid source head)
    (hblank : ∀ ch ∈ text, isWhite ch = true) :
    ∃ done, (lexer.finishLine (.of head text terminator) false).Between source done rest := by
  refine ⟨_, Lexer.between_of_finishLine hsrc hline hlexer
      (Lexer.Laid.finishLine ⟨?_, hlaid.depth, hlaid.bottom⟩)⟩
  have hwhite : IsBlank text := fun ch hch => ⟨hblank ch hch, fun h => hline.inLine (h ▸ hch)⟩
  have hreturn : IsBlank (text ++ ['\r']) := fun ch hch => by
    rcases List.mem_append.mp hch with hch | hch
    · exact hwhite ch hch
    · obtain rfl := List.mem_singleton.mp hch
      exact ⟨rfl, by decide⟩
  change Tiles source _ lexer.tokens
  rcases hline.ends with (rfl | rfl) | ⟨rfl, rfl | rfl⟩
  · simpa using hlaid.tiles.blankLine hstart hwhite
  · simpa using hlaid.tiles.blankLine hstart hreturn
  · have hend : head ++ text = source := by simpa using hsrc.symm
    simpa [hend] using hlaid.tiles.last hend (.inr ⟨hstart, hwhite⟩)
  · have hend : head ++ (text ++ ['\r']) = source := by simpa using hsrc.symm
    rw [hend]
    exact hlaid.tiles.last hend (.inr ⟨hstart, hreturn⟩)

/-! ### Captures -/

/-- A body is read up to a closing brace: from `consumed` bytes on to `stop`, and from `newlines`
line feeds on to `crossed`. -/
def Closes (chars : List Char) (consumed newlines stop crossed : ℕ) : Prop :=
  ∃ piece left, chars = piece ++ left ∧ stop = consumed + bytes piece ∧
    crossed = newlines + piece.count '\n' ∧ piece.getLast? = some '}'

theorem Closes.cons {chars : List Char} {ch : Char} {consumed newlines stop crossed : ℕ}
    (h : Closes chars (consumed + ch.utf8Size) (newlines + if ch = '\n' then 1 else
        0) stop crossed) : Closes (ch :: chars) consumed newlines stop crossed := by
  obtain ⟨piece, left, rfl, rfl, rfl, hlast⟩ := h
  refine ⟨ch :: piece, left, rfl, by simp [Nat.add_assoc], ?_, by simp [List.getLast?_cons, hlast]⟩
  rw [List.count_cons, Nat.add_assoc, Nat.add_comm (piece.count '\n')]
  simp

theorem bracedFrom_closes {consumed depth crossed : ℕ} {inString : Bool}
    (h : bracedFrom chars consumed depth newlines inString = some (stop, crossed)) :
    Closes chars consumed newlines stop crossed := by
  fun_induction bracedFrom chars consumed depth newlines inString with
  | case1 => cases h
  | case2 rest consumed depth newlines inString ih => exact (ih h).cons
  | case3 => cases h
  | case4 escaped rest consumed depth newlines ih =>
    refine Closes.cons (Closes.cons ?_)
    rw [if_neg (by decide), Nat.add_zero]
    have hrest := ih h
    split_ifs at hrest ⊢ <;> exact hrest
  | case5 rest consumed depth newlines inString ih => exact (ih h).cons
  | case6 rest consumed depth newlines ih => exact (ih h).cons
  | case7 rest consumed depth newlines =>
    cases h
    exact ⟨['}'], rest, rfl, rfl, rfl, rfl⟩
  | case8 rest consumed depth newlines _ ih => exact (ih h).cons
  | case9 ch rest consumed depth newlines inString hfeed _ _ _ _ _ ih =>
    refine Closes.cons ?_
    rw [if_neg hfeed]
    exact ih h

theorem scanBracedBody_eq_ok {opening : ℕ} {kind : BracedBody}
    (h : scanBracedBody source opening openSpan kind = .ok (stop, newlines)) :
    ∃ piece left, fromByte source opening = piece ++ left ∧ stop = opening + bytes piece ∧
      newlines = piece.count '\n' ∧
      piece.getLast? = some '}' := by
  unfold scanBracedBody at h
  split at h
  · next consumed crossed hbr =>
    cases h
    obtain ⟨piece, left, heq, rfl, rfl, hlast⟩ := bracedFrom_closes hbr
    exact ⟨piece, left, heq, by rw [Nat.zero_add], Nat.zero_add _, hlast⟩
  · cases h

theorem findQuotes_eq_some {offset length : ℕ} (h : findQuotes chars offset = some length) :
    ∃ value left, chars = value ++ ['"', '"', '"'] ++ left ∧ length = offset + bytes value := by
  induction chars generalizing offset with
  | nil => cases h
  | cons ch chars ih =>
    rw [findQuotes] at h
    split_ifs at h with hquo
    · obtain ⟨left, hleft⟩ := List.isPrefixOf_iff_prefix.mp hquo
      obtain rfl := Option.some.inj h
      exact ⟨[], left, hleft.symm, rfl⟩
    · obtain ⟨value, left, rfl, rfl⟩ := ih h
      exact ⟨ch :: value, left, rfl, by simp [Nat.add_assoc]⟩

theorem scanRawString_eq_ok
    (h : scanRawString (done ++ (['"', '"', '"'] ++ text)) (bytes done) openSpan =
        .ok (stop, newlines, value)) :
    ∃ left, text = value ++ ['"', '"', '"'] ++ left ∧
      stop = bytes done + bytes (['"', '"', '"'] ++ value ++ ['"', '"', '"']) ∧
      newlines = value.count '\n' := by
  have hquo : bytes ['"', '"', '"'] = 3 := by decide
  have hbody : fromByte (done ++ (['"', '"', '"'] ++ text)) (bytes done + 3) = text := by
    rw [← hquo, ← bytes_append, ← List.append_assoc, fromByte_append]
  rw [scanRawString, hbody] at h
  dsimp only at h
  split at h
  · cases h
  · next length hlen =>
    obtain ⟨inner, left, rfl, rfl⟩ := findQuotes_eq_some hlen
    rw [Nat.zero_add, List.append_assoc, uptoByte_append] at h
    cases h
    refine ⟨left, rfl, ?_, rfl⟩
    rw [bytes_append, bytes_append, hquo]
    omega

/-- Behind a capture, in the line where it ends. -/
theorem InLine.afterCapture (h : InLine source lexer line cursor head before after terminator rest)
    (hpiece : after ++ terminator ++ rest = piece ++ left) (hlast : piece.getLast? = some last)
    (hreturn : last ≠ '\r') (hline : pushed.line = lexer.line)
    (hlaid : pushed.Laid source (head ++ before ++ piece))
    (hstop : stop = bytes (head ++ before ++ piece)) (hcross : newlines = piece.count '\n') :
    ∃ head' before' after' terminator' rest', after' ++ terminator' ++ rest' = left ∧
      InLine source (pushed.afterCapture source line cursor stop newlines).1
        (pushed.afterCapture source line cursor stop newlines).2.1
          (pushed.afterCapture source line cursor stop newlines).2.2
        head' before' after' terminator' rest' := by
  have hbef : '\n' ∉ before := fun hmem => h.isLine.inLine (List.mem_append_left _ hmem)
  unfold Lexer.afterCapture
  split_ifs with hnewlines
  · -- the capture ends in its line
    have hin : '\n' ∉ before ++ piece := by
      rw [List.mem_append, not_or]
      exact ⟨hbef, List.count_eq_zero.mp (hcross.symm.trans hnewlines)⟩
    have hlastIn : (before ++ piece).getLast? ≠ some '\r' := by
      rw [List.getLast?_append, hlast]
      simpa using hreturn
    have hspl : before ++ after ++ terminator ++ rest = before ++ piece ++ left := by
      rw [List.append_assoc before, List.append_assoc before, hpiece, List.append_assoc]
    obtain ⟨after', hafter, hleft⟩ := h.isLine.of_append hspl hin hlastIn
    rw [List.append_assoc, List.append_cancel_left_eq] at hafter
    obtain rfl := hafter
    refine ⟨head, before ++ piece, after', terminator, rest, hleft.symm, ?_⟩
    have hcur : { cursor with index := stop - cursor.base } = cursor.moved piece := by
      rw [h.cursor_eq, hstop]
      simp [Cursor.moved]
    rw [hcur]
    exact h.moved hline hlaid
  · -- the capture ends in a later line, which begins behind the last line feed
    obtain ⟨head', hhead, hstart, hsince⟩ := exists_lineStart (head ++ before ++ piece)
    generalize hbef' : sinceLine (head ++ before ++ piece) = before' at hhead hsince
    have hsrc : source = head' ++ (before' ++ left) := by
      rw [h.source_eq, ← List.append_assoc head', ← hhead, List.append_assoc before, List.append_assoc before, hpiece]
      simp
    have hupto : uptoByte source stop = head ++ before ++ piece := by
      rw [hstop, hhead, hsrc, ← List.append_assoc, uptoByte_append]
    have hclose : bytes (uptoByte source stop) - bytes (sinceLine (uptoByte source stop)) = bytes head' := by
      rw [hupto, hbef', hhead, bytes_append, Nat.add_sub_cancel]
    obtain ⟨text, terminator', rest', hleft, hisLine, hspl⟩ := splitLine_eq head' (before' ++ left)
    have hlast' : before'.getLast? ≠ some '\r' := by
      intro hmem
      have heq := congrArg List.getLast? hhead
      simp only [List.getLast?_append, hlast, hmem] at heq
      exact hreturn (by simpa using heq)
    obtain ⟨after', rfl, rfl⟩ := hisLine.of_append hleft.symm hsince hlast'
    refine ⟨head', before', after', terminator', rest', rfl, ?_⟩
    dsimp only
    rw [hclose, hsrc, hspl]
    exact
      { source_eq := by simp
        isLine := hisLine
        start := hstart
        physical := rfl
        cursor_eq := by
          rw [hstop, hhead, bytes_append, Nat.add_sub_cancel_left]
          rfl
        line_eq := by
          have hcount := congrArg (List.count '\n') hhead
          rw [List.count_append, List.count_append, List.count_append, List.count_eq_zero.mpr hbef,
            List.count_eq_zero.mpr hsince] at hcount
          change pushed.line + newlines = lineOf head'
          rw [hline, h.line_eq, hcross, lineOf, lineOf]
          omega
        laid := by
          rw [← hsrc, ← hhead]
          exact ⟨hlaid.tiles, hlaid.depth, hlaid.bottom⟩ }

/-- A capture: its token is laid, and the cursor is behind it. -/
theorem InLine.capture (h : InLine source lexer line cursor head before after terminator rest)
    (kind : TokenKind) (behind : ℕ) (hpiece : after ++ terminator ++ rest = piece ++ left)
    (hlast : piece.getLast? = some last) (hreturn : last ≠ '\r') (hkind : kind.isLayout = false)
    (hstop : stop = cursor.base + cursor.index + bytes piece)
    (hcross : newlines = piece.count '\n') :
    ∃ head' before' after' terminator' rest' lexer' line' cursor',
      after' ++ terminator' ++ rest' = left ∧
      InLine source lexer' line' cursor' head' before' after' terminator' rest' ∧
      (lexer.push kind ⟨cursor.base + cursor.index, stop, (cursor.span cursor.index behind).line,
        (cursor.span cursor.index behind).column⟩).afterCapture source line cursor stop newlines =
          (lexer', line', cursor') := by
  have hplace := h.span_eq piece
  have hopen : cursor.base + cursor.index = bytes (head ++ before) := by
    rw [h.cursor_eq, bytes_append]
  have hbehind : stop = bytes (head ++ before ++ piece) := by rw [hstop, hopen, ← bytes_append]
  have hspan : (⟨cursor.base + cursor.index, stop, (cursor.span cursor.index behind).line,
      (cursor.span cursor.index behind).column⟩ : Span) =
        ⟨bytes (head ++ before), bytes (head ++ before ++ piece), lineOf (head ++ before), columnOf (head ++ before)⟩ := by
    rw [hopen, hbehind]
    exact congrArg (fun span => Span.mk (bytes (head ++ before))
        (bytes (head ++ before ++ piece)) span.line span.column) hplace
  have hlaid := h.laid.pushText hkind hspan
  obtain ⟨head', before', after', terminator', rest', hleft, hin⟩ :=
    h.afterCapture hpiece hlast hreturn (lexer.push_line kind _) hlaid hbehind hcross
  exact ⟨head', before', after', terminator', rest', _, _, _, hleft, hin, rfl⟩

/-- A raw string that begins at the cursor takes a piece of the document that ends on its quotes. -/
theorem InLine.rawString_eq_ok
    (h : InLine source lexer line cursor head before (['"', '"', '"'] ++ text) terminator rest)
    (hscan : scanRawString source (cursor.base + cursor.index) openSpan =
        .ok (stop, newlines, value)) :
    ∃ piece left, ['"', '"', '"'] ++ text ++ terminator ++ rest = piece ++ left ∧
      stop = cursor.base + cursor.index + bytes piece ∧ newlines = piece.count '\n' ∧
        piece.getLast? = some '"' := by
  have hopen : cursor.base + cursor.index = bytes (head ++ before) := by
    rw [h.cursor_eq, bytes_append]
  have hsrc : source = (head ++ before) ++ (['"', '"', '"'] ++ (text ++ terminator ++ rest)) := by
    simp [h.source_eq]
  rw [hsrc, hopen] at hscan
  obtain ⟨left, htext, hstop, hcross⟩ := scanRawString_eq_ok hscan
  rw [← hopen] at hstop
  refine ⟨['"', '"', '"'] ++ value ++ ['"', '"', '"'], left, ?_, hstop, ?_, ?_⟩
  · rw [List.append_assoc, List.append_assoc, ← List.append_assoc text, htext]
    simp
  · rw [hcross, List.count_append, List.count_append]
    simp
  · rw [List.getLast?_append]
    rfl

/-- What is left of the document before and after one round in a line: it fails, it closes the line,
or it goes on with less. -/
theorem lexRest_step (h : InLine source lexer line cursor head before after terminator rest) :
    (∃ error, ∀ fuel, lexer.lexRest source (fuel + 1) line cursor = some (.error error)) ∨
    (∃ final done, final.Between source done rest ∧ lexer.Grows final ∧
      ∀ fuel, lexer.lexRest source (fuel + 1) line cursor = some (.ok final)) ∨
    ∃ lexer' line' cursor' head' before' after' terminator' rest',
      InLine source lexer' line' cursor' head' before' after' terminator' rest' ∧
        lexer.Grows lexer' ∧
      (after' ++ terminator' ++ rest').length < (after ++ terminator ++ rest).length ∧
      ∀ fuel, lexer.lexRest source (fuel + 1) line cursor =
      lexer'.lexRest source fuel line' cursor' := by
  have hskip := h.skipInlineWhitespace
  have hshorter : (after.dropWhile (· = ' ')).length ≤ after.length := List.length_dropWhile_le _ _
  generalize hbefore1 : before ++ after.takeWhile (· = ' ') = before1 at hskip
  generalize hafter1 : after.dropWhile (· = ' ') = after1 at hskip hshorter
  generalize hcursor1 : cursor.skipInlineWhitespace = cursor1 at hskip
  have hrest : cursor1.rest = after1 := hskip.at_.rest
  obtain rfl | hafter := eq_or_ne after1 []
  · obtain ⟨done, hdone⟩ := hskip.finishLine true
    refine .inr (.inl ⟨_, done, hdone, lexer.grows_finishLine line true, fun fuel => ?_⟩)
    rw [Lexer.lexRest, hcursor1, if_pos (hskip.isAtEnd_iff.mpr rfl)]
  have hend : ¬cursor1.isAtEnd = true := fun h => hafter (hskip.isAtEnd_iff.mp h)
  by_cases hcom : cursor1.startsWith ['/', '/'] = true
  · have hpush : InLine source (lexer.pushTrailingComment cursor1) line (cursor1.moved after1) head
      (before1 ++ after1) []
        terminator rest := by
      rw [← List.append_nil after1] at hskip
      refine hskip.push ?_ rfl
      rw [hskip.cursor_eq]
      simp [Cursor.span, Cursor.moved]
    obtain ⟨done, hdone⟩ := hpush.finishLine true
    have hgrows :=
      (lexer.grows_pushTrailingComment cursor1).trans
        ((lexer.pushTrailingComment cursor1).grows_finishLine line true)
    refine .inr (.inl ⟨_, done, hdone, hgrows, fun fuel => ?_⟩)
    rw [Lexer.lexRest, hcursor1, if_neg hend, if_pos hcom]
  have hless {piece left : List Char} (hpiece : after1 ++ terminator ++ rest = piece ++ left)
      (hne : piece ≠ []) : left.length < (after ++ terminator ++ rest).length := by
    have hlen := congrArg List.length hpiece
    have hpos := List.length_pos_iff.mpr hne
    simp only [List.length_append] at hlen ⊢
    omega
  cases hbr : if cursor1.startsWith ['{'] then lexer.lastBracedBodyKind else none with
  | some braced =>
    cases hscan : scanBracedBody source (cursor1.base + cursor1.index) (cursor1.span cursor1.index (cursor1.index + 1)) braced with
    | error error =>
      refine .inl ⟨error, fun fuel => ?_⟩
      rw [Lexer.lexRest, hcursor1, if_neg hend, if_neg hcom, hbr]
      simp [hscan]
    | ok result =>
      obtain ⟨stop, newlines⟩ := result
      obtain ⟨piece, left, hpiece, hstop, hcross, hlast⟩ := scanBracedBody_eq_ok hscan
      rw [hskip.fromByte_eq] at hpiece
      have hkind (body : String) : (braced.tokenKind body).isLayout = false := by cases braced <;> rfl
      obtain ⟨head', before', after', terminator', rest', lexer', line', cursor', rfl, hin, hcapt⟩ :=
        hskip.capture (braced.tokenKind (String.ofList (uptoByte (fromByte source (cursor1.base + cursor1.index))
          (stop - (cursor1.base + cursor1.index))))) (cursor1.index + 1) hpiece hlast (by decide) (hkind _) hstop hcross
      have hopen : (fromByte source (cursor1.base + cursor1.index)).head? = some '{' := by
        have hopens : cursor1.startsWith ['{'] = true := by
          by_contra hopens
          rw [if_neg hopens] at hbr
          cases hbr
        obtain ⟨text, htext⟩ := List.isPrefixOf_iff_prefix.mp hopens
        rw [hskip.fromByte_eq, ← hrest, ← htext]
        rfl
      have hgrows := Lexer.grows_capture (lexical_of_scanBracedBody hopen hscan) hcapt
      refine .inr (.inr ⟨_, _, _, _, _, _, _, _, hin, hgrows, hless hpiece (by rintro rfl; cases hlast), fun fuel => ?_⟩)
      rw [Lexer.lexRest, hcursor1, if_neg hend, if_neg hcom, hbr]
      simp only [hscan]
      rw [hcapt]
  | none =>
    by_cases hquo : cursor1.startsWith ['"', '"', '"'] = true
    · obtain ⟨text, htext⟩ := List.isPrefixOf_iff_prefix.mp hquo
      rw [hrest] at htext
      obtain rfl := htext
      cases hscan : scanRawString source (cursor1.base + cursor1.index) (cursor1.span cursor1.index (cursor1.index + 3)) with
      | error error =>
        refine .inl ⟨error, fun fuel => ?_⟩
        rw [Lexer.lexRest, hcursor1, if_neg hend, if_neg hcom, hbr]
        simp [hquo, hscan]
      | ok result =>
        obtain ⟨stop, newlines, value⟩ := result
        obtain ⟨piece, left, hpiece, hstop, hcross, hlast⟩ := hskip.rawString_eq_ok hscan
        obtain ⟨head', before', after', terminator', rest', lexer', line', cursor', rfl, hin, hcapt⟩ :=
          hskip.capture (.rawString (String.ofList value)) (cursor1.index + 3) hpiece hlast (by decide) rfl hstop hcross
        have hgrows := Lexer.grows_capture (lexical_of_scanRawString hscan) hcapt
        refine .inr (.inr ⟨_, _, _, _, _, _, _, _, hin, hgrows, hless hpiece (by rintro rfl; cases hlast), fun fuel => ?_⟩)
        rw [Lexer.lexRest, hcursor1, if_neg hend, if_neg hcom, hbr]
        simp only [hquo, hscan, if_true]
        rw [hcapt]
    · cases hnext : cursor1.nextToken with
      | error error =>
        refine .inl ⟨error, fun fuel => ?_⟩
        rw [Lexer.lexRest, hcursor1, if_neg hend, if_neg hcom, hbr]
        simp [hquo, hnext]
      | ok result =>
        obtain ⟨token, next⟩ := result
        obtain ⟨piece, after', rfl, hpiece, rfl, hspan, hkind⟩ := Cursor.took_of_nextToken hskip.at_ hnext
        have hgrows := lexer.grows_push token.span (Cursor.lexical_of_nextToken hskip.at_ hnext)
        refine .inr (.inr ⟨_, _, _, _, _, _, _, _, hskip.push hspan hkind, hgrows, ?_, fun fuel => ?_⟩)
        · exact hless (by simp) hpiece
        · rw [Lexer.lexRest, hcursor1, if_neg hend, if_neg hcom, hbr]
          simp [hquo, hnext]

/-- The lexer ends on what is left of a line, and behind the last line it crossed. -/
theorem lexRest_spec (fuel : ℕ)
    (h : InLine source lexer line cursor head before after terminator rest) :
    ((after ++ terminator ++ rest).length < fuel →
        (lexer.lexRest source fuel line cursor).isSome = true) ∧
    ∀ final, lexer.lexRest source fuel line cursor = some (.ok final) → lexer.Grows final ∧
      ∃ done left, final.Between source done left ∧
      left.length ≤ (after ++ terminator ++ rest).length ∧
        (after ≠ [] → left.length < (after ++ terminator ++ rest).length) := by
  induction fuel generalizing lexer line cursor head before after terminator rest with
  | zero => exact ⟨nofun, nofun⟩
  | succ fuel ih =>
    rcases lexRest_step h with ⟨error, hstep⟩ | ⟨final, done, hdone, hgrows, hstep⟩ | ⟨_, _, _, _,
      _, _, _, _, hin, hgrows, hless, hstep⟩
    · rw [hstep]
      exact ⟨fun _ => rfl, nofun⟩
    · rw [hstep]
      refine ⟨fun _ => rfl, ?_⟩
      rintro _ ⟨⟩
      rw [List.length_append, List.length_append]
      refine ⟨hgrows, done, rest, hdone, by omega, fun hafter => ?_⟩
      have := List.length_pos_iff.mpr hafter
      omega
    · rw [hstep]
      refine ⟨fun hfuel => (ih hin).1 (by omega), fun final hfinal => ?_⟩
      obtain ⟨hmore, done, left, hdone, hleft, -⟩ := (ih hin).2 final hfinal
      exact ⟨hgrows.trans hmore, done, left, hdone, by omega, fun _ => by omega⟩

/-! ### Indentation -/

theorem bytes_spaces (hwhite : ∀ ch ∈ white, ch = ' ') : bytes white = white.length := by
  rw [List.eq_replicate_of_mem hwhite, bytes_replicate (by decide), List.length_replicate]

/-- The levels that end are the innermost; the bottom level never does. -/
theorem Lexer.deeperThan_eq (spaces : ℕ) (indents : List ℕ) :
    ∃ count, deeperThan spaces indents = (count, indents.drop count) ∧
    (indents.getLast? = some 0 → count ≤ indents.length - 1) := by
  induction indents with
  | nil => exact ⟨0, rfl, nofun⟩
  | cons level levels ih =>
    obtain ⟨count, hcount, hbound⟩ := ih
    rw [deeperThan]
    split_ifs with hdeeper
    · refine ⟨count + 1, by simp [hcount], fun hbottom => ?_⟩
      rcases levels with _ | ⟨next, levels⟩
      · obtain rfl : level = 0 := by simpa using hbottom
        exact absurd hdeeper (Nat.not_lt_zero spaces)
      · have := hbound (by simpa using hbottom)
        simp only [List.length_cons] at this ⊢
        omega
    · exact ⟨0, rfl, fun _ => Nat.zero_le _⟩

/-- Levels are closed at one place. -/
theorem Lexer.Laid.close (h : lexer.Laid source laid) (lineNo : ℕ)
    (hcount : count ≤ lexer.indents.length - 1) :
    Laid { lexer with
      tokens := lexer.tokens ++ List.replicate count ⟨.dedent, ⟨bytes laid, bytes laid, lineNo, 1⟩⟩
      indents := lexer.indents.drop count } source laid := by
  induction count with
  | zero => simpa using ⟨h.tiles, h.depth, h.bottom⟩
  | succ count ih =>
    have hcount' := ih (by omega)
    refine ⟨?_, ?_, ?_⟩
    · have hcov : (⟨.dedent, ⟨bytes laid, bytes laid, lineNo, 1⟩⟩ : Token).Covers laid [] :=
        ⟨rfl, by simp, nofun, nofun, nofun, fun _ => rfl⟩
      have htok := hcount'.tiles.token hcov
      rw [List.append_nil] at htok
      rwa [List.replicate_succ', ← List.append_assoc]
    · rw [List.replicate_succ', ← List.append_assoc, depthAfter_concat, hcount'.depth]
      simp only [List.length_drop, Option.bind_some, TokenKind.depth]
      rw [if_neg (by omega)]
      congr 1
    · have hbottom := hcount'.bottom
      simp only [List.getLast?_drop] at hbottom ⊢
      rw [if_neg (by omega), h.bottom]

theorem Lexer.adjustIndent_eq_ok {adjusted : Lexer} (h : lexer.Laid source laid)
    (hwhite : ∀ ch ∈ white, ch = ' ')
    (hadj : lexer.adjustIndent (bytes laid) white.length = .ok adjusted) :
    adjusted.line = lexer.line ∧ adjusted.Laid source (laid ++ white) := by
  unfold adjustIndent at hadj
  extract_lets current whole at hadj
  split_ifs at hadj with hdeeper hfar
  · cases hadj
    refine ⟨rfl, h.tiles.token ⟨rfl, ?_, ?_, nofun, fun _ => hwhite, nofun⟩, ?_, ?_⟩
    · simp [whole, bytes_spaces hwhite]
    · exact fun hindent => absurd rfl hindent
    · obtain ⟨levels, hlevels⟩ := List.getLast?_eq_some_iff.mp h.bottom
      change depthAfter (lexer.tokens ++ [_]) = _
      rw [depthAfter_concat, h.depth, hlevels]
      simp [TokenKind.depth]
    · simpa [List.getLast?_cons] using congrArg (fun last => last.getD white.length) h.bottom
  · obtain ⟨count, hcount, hbound⟩ := deeperThan_eq white.length lexer.indents
    rw [hcount] at hadj
    dsimp only at hadj
    split_ifs at hadj
    cases hadj
    have hcl := h.close lexer.line (hbound h.bottom)
    exact ⟨rfl, hcl.tiles.spaces hwhite, hcl.depth, hcl.bottom⟩

/-! ### The document -/

theorem classifyComment_isLayout (text : List Char) :
    (classifyComment text).1.isLayout = false := by
  unfold classifyComment
  split <;> rfl

theorem countLeadingSpaces_eq_ok {base lineNo : ℕ}
    (h : countLeadingSpaces text base lineNo = .ok count) :
    count = (text.takeWhile (· = ' ')).length := by
  unfold countLeadingSpaces at h
  extract_lets counted at h
  split at h
  · cases h
  · exact (Except.ok.inj h).symm

/-- A line that begins with spaces, before its first token. -/
theorem Lexer.Between.inLine {content : List Char} (h : lexer.Between source done left)
    (hleft : left = white ++ content ++ terminator ++ rest) (hstart : AtLineStart done)
    (hline : IsLine (white ++ content) terminator rest) (hpushed : pushed.line = lexer.line)
    (hlaid : pushed.Laid source (done ++ white)) :
    InLine source pushed (.of done (white ++ content) terminator) ⟨white ++ content, bytes done,
        pushed.line, bytes white⟩
      done white content terminator rest where
  source_eq := by rw [h.source_eq, hleft]
  isLine := hline
  start := hstart
  physical := rfl
  cursor_eq := rfl
  line_eq := hpushed.trans h.line_eq
  laid := hlaid

/-- The lexer ends on a line, behind the last line it crossed. -/
theorem lexLine_spec (fuel : ℕ) (h : lexer.Between source done left) (hleft : left ≠ []) :
    (left.length < fuel → (lexer.lexLine source fuel).isSome = true) ∧
    ∀ final, lexer.lexLine source fuel = some (.ok final) → lexer.Grows final ∧ ∃ done' left',
      final.Between source done' left' ∧
      left'.length < left.length := by
  have hstart : AtLineStart done := h.start.resolve_right hleft
  obtain ⟨text, terminator, rest, htext, hline, hspl⟩ := splitLine_eq done left
  have hrest : rest.length < left.length := by
    rcases hline.ends with (rfl | rfl) | ⟨rfl, -⟩
    · simp only [htext, List.length_append, List.length_singleton]
      omega
    · simp only [htext, List.length_append, List.length_cons]
      omega
    · exact List.length_pos_iff.mpr hleft
  have hwhite : ∀ ch ∈ text.takeWhile (· = ' '), ch = ' ' :=
    fun ch hch => by simpa using List.mem_takeWhile_imp hch
  have hparts := List.takeWhile_append_dropWhile (p := (· = ' ')) (l := text)
  generalize hwhiteEq : text.takeWhile (· = ' ') = white at hwhite hparts
  generalize text.dropWhile (· = ' ') = content at hparts
  obtain rfl := hparts
  have hcontent : fromByte (white ++ content) white.length = content := by
    rw [← bytes_spaces hwhite, fromByte_append]
  have hphysical : splitLine source lexer.offset = .of done (white ++ content) terminator := by
    rw [h.source_eq, h.offset_eq, hspl]
  rw [Lexer.lexLine, hphysical]
  dsimp only [PhysicalLine.of]
  cases hcount : countLeadingSpaces (white ++ content) (bytes done) lexer.line with
  | error error => exact ⟨fun _ => rfl, by simp⟩
  | ok count =>
    obtain rfl := (countLeadingSpaces_eq_ok hcount).trans (congrArg List.length hwhiteEq)
    dsimp only
    rw [hcontent]
    split_ifs with hblank hcom hodd
    · -- a blank line
      have htextBlank : ∀ ch ∈ white ++ content, isWhite ch = true := by
        intro ch hch
        rcases List.mem_append.mp hch with hch | hch
        · rw [hwhite ch hch]
          rfl
        · exact List.all_eq_true.mp hblank ch hch
      obtain ⟨done', hdone⟩ := Lexer.between_of_blank (h.source_eq.trans (congrArg (done ++ ·) (htext.trans (by simp)))) hline
        hstart h.line_eq h.laid htextBlank
      refine ⟨fun _ => rfl, ?_⟩
      rintro _ ⟨⟩
      exact ⟨lexer.grows_finishLine _ false, done', rest, hdone, hrest⟩
    · -- a comment of its own
      have hlaid : lexer.Laid source (done ++ white) := ⟨h.laid.tiles.spaces hwhite, h.laid.depth, h.laid.bottom⟩
      have hin : InLine source lexer (.of done (white ++ content) terminator)
        ⟨white ++ content, bytes done, lexer.line, bytes white⟩
          done white (content ++ []) terminator rest := by
        rw [List.append_nil]
        exact h.inLine htext hstart hline rfl hlaid
      have hpush := hin.push rfl (classifyComment_isLayout content)
      obtain ⟨done', hdone⟩ := hpush.finishLine (classifyComment content).2
      refine ⟨fun _ => rfl, ?_⟩
      rintro _ ⟨⟩
      refine ⟨(lexer.grows_pushLineComment _ _).trans (Lexer.grows_finishLine _ _ _), done', rest, ?_, hrest⟩
      have hspan : (⟨bytes done + bytes white, bytes done + bytes (white ++ content), lexer.line,
          columnAt (white ++ content) (bytes white)⟩ : Span) =
            Cursor.span ⟨white ++ content, bytes done, lexer.line, bytes white⟩ (bytes white)
              (Cursor.moved ⟨white ++ content, bytes done, lexer.line, bytes white⟩ content).index := by
        simp [Cursor.span, Cursor.moved]
      simp only [Lexer.pushLineComment, ← bytes_spaces hwhite, fromByte_append]
      rw [hspan]
      exact hdone
    · exact ⟨fun _ => rfl, by simp⟩
    · cases hadj : lexer.adjustIndent (bytes done) white.length with
      | error error => exact ⟨fun _ => rfl, by simp⟩
      | ok adjusted =>
        obtain ⟨hadjustedLine, hlaid⟩ := Lexer.adjustIndent_eq_ok h.laid hwhite hadj
        have hin := h.inLine htext hstart hline hadjustedLine hlaid
        have hne : content ≠ [] := by
          rintro rfl
          exact hblank rfl
        obtain ⟨hends, hruns⟩ := lexRest_spec fuel hin
        have hlen : (content ++ terminator ++ rest).length ≤ left.length := by
          simp only [htext, List.length_append]
          omega
        rw [bytes_spaces hwhite] at hends hruns
        refine ⟨fun hfuel => hends (by omega), fun final hfinal => ?_⟩
        obtain ⟨hgrows, done', left', hdone, -, hless⟩ := hruns final hfinal
        exact ⟨(Lexer.grows_adjustIndent hadj).trans hgrows, done', left', hdone, (hless hne).trans_le hlen⟩

/-- The lexer ends on what is left of a document; at the end every level is closed. -/
theorem lexLines_spec (fuel : ℕ) (h : lexer.Between source done left) :
    (left.length + 2 ≤ fuel → (lexer.lexLines source fuel).isSome = true) ∧
    ∀ final, lexer.lexLines source fuel = some (.ok final) →
      lexer.Grows final ∧ Tiles source source final.tokens ∧ depthAfter final.tokens = some 0 := by
  induction fuel generalizing lexer done left with
  | zero => exact ⟨nofun, nofun⟩
  | succ fuel ih =>
    have hmore : lexer.offset < bytes source ↔ left ≠ [] := by
      rw [h.offset_eq, h.source_eq, bytes_append, Nat.lt_add_right_iff_pos, Nat.pos_iff_ne_zero, ne_eq, bytes_eq_zero_iff]
    rw [Lexer.lexLines]
    split_ifs with hleft
    · have hne := hmore.mp hleft
      obtain ⟨hends, hlaid⟩ := lexLine_spec fuel h hne
      cases hline : lexer.lexLine source fuel with
      | none =>
        rw [hline] at hends
        exact ⟨fun hfuel => absurd (hends (by omega)) Bool.false_ne_true, nofun⟩
      | some result =>
        cases result with
        | error error => exact ⟨fun _ => rfl, nofun⟩
        | ok next =>
          obtain ⟨hgrows, done', left', hnext, hless⟩ := hlaid next hline
          obtain ⟨hrun, hfinal⟩ := ih hnext
          exact ⟨fun hfuel => hrun (by omega), fun final hends => (hfinal final hends).imp_left hgrows.trans⟩
    · obtain rfl : left = [] := not_not.mp fun hne => hleft (hmore.mpr hne)
      have hcl := h.laid.close lexer.line le_rfl
      have hsrc : source = done := h.source_eq.trans (List.append_nil done)
      refine ⟨fun _ => rfl, ?_⟩
      rintro _ ⟨⟩
      rw [h.offset_eq]
      have hgrows := lexer.grows_replicate (lexer.indents.length - 1) ⟨bytes done, bytes done, lexer.line, 1⟩
        (lexer.indents.drop (lexer.indents.length - 1))
      refine ⟨hgrows, by simpa only [← hsrc] using hcl.tiles, hcl.depth.trans ?_⟩
      simp only [List.length_drop]
      congr 1
      have := List.length_pos_iff.mpr (fun hnil => by simpa [hnil] using h.laid.bottom : lexer.indents ≠ [])
      omega

/-! ### Fuel -/

/-- More fuel changes nothing. -/
theorem lexRest_succ (h : lexer.lexRest source fuel line cursor = some result) :
    lexer.lexRest source (fuel + 1) line cursor = some result := by
  induction fuel generalizing lexer line cursor with
  | zero => cases h
  | succ fuel ih =>
    rw [Lexer.lexRest] at h ⊢
    extract_lets at h ⊢
    split_ifs at h ⊢
    · exact h
    · exact h
    -- a capture, or a token, after which `ih` goes on
    all_goals
      split at h
      · split at h <;> simp_all
      · simp_all
        try (split at h <;> simp_all)

theorem lexLine_succ (h : lexer.lexLine source fuel = some result) :
    lexer.lexLine source (fuel + 1) = some result := by
  unfold Lexer.lexLine at h ⊢
  extract_lets at h ⊢
  split at h
  · exact h
  · dsimp only at h ⊢
    split_ifs at h ⊢
    · exact h
    · exact h
    · exact h
    · split at h
      · exact h
      · exact lexRest_succ h

theorem lexLines_succ (h : lexer.lexLines source fuel = some result) :
    lexer.lexLines source (fuel + 1) = some result := by
  induction fuel generalizing lexer with
  | zero => cases h
  | succ fuel ih =>
    rw [Lexer.lexLines] at h ⊢
    split_ifs at h ⊢ with hleft
    · split at h
      · cases h
      · next hline =>
        rw [lexLine_succ hline]
        exact h
      · next hline =>
        rw [lexLine_succ hline]
        exact ih h
    · exact h

theorem lexLines_mono {fuel' : ℕ} (hfuel : fuel ≤ fuel')
    (h : lexer.lexLines source fuel = some result) : lexer.lexLines source fuel' = some result := by
  induction hfuel with
  | refl => exact h
  | step _ ih => exact lexLines_succ ih

/-! ### What the tiles say of each token -/

/-- Each token covers a piece of the text. -/
theorem Tiles.covered (h : Tiles source laid tokens) :
    ∀ token ∈ tokens, ∃ before piece after, laid = before ++ piece ++ after ∧
      token.Covers before piece := by
  have widen {laid more : List Char} {token : Token}
      (h : ∃ before piece after, laid = before ++ piece ++ after ∧ token.Covers before piece) :
      ∃ before piece after, laid ++ more = before ++ piece ++ after ∧ token.Covers before piece := by
    obtain ⟨before, piece, after, rfl, hcov⟩ := h
    exact ⟨before, piece, after ++ more, by simp, hcov⟩
  induction h with
  | start => nofun
  | space _ ih => exact fun token htok => widen (ih token htok)
  | terminator _ _ ih => exact fun token htok => widen (ih token htok)
  | blankLine _ _ _ ih => exact fun token htok => widen (widen (ih token htok))
  | last _ heq _ ih => exact fun token htok => heq ▸ widen (ih token htok)
  | @token laid piece _ _ _ hcov ih =>
    intro token htok
    rcases List.mem_append.mp htok with htok | htok
    · exact widen (ih token htok)
    · obtain rfl := List.mem_singleton.mp htok
      exact ⟨laid, piece, [], by simp, hcov⟩

/-- The tokens are in order, and none reaches into the next. -/
theorem Tiles.pairwise (h : Tiles source laid tokens) :
    tokens.Pairwise fun earlier later => earlier.span.start ≤ later.span.start ∧
      earlier.span.stop ≤ later.span.start := by
  induction h with
  | start => exact .nil
  | space _ ih => exact ih
  | terminator _ _ ih => exact ih
  | blankLine _ _ _ ih => exact ih
  | last _ _ _ ih => exact ih
  | token h hcov ih =>
    refine List.pairwise_append.mpr ⟨ih, List.pairwise_singleton _ _, fun earlier hearl later hlat => ?_⟩
    obtain rfl := List.mem_singleton.mp hlat
    obtain ⟨before, piece, after, rfl, hearl⟩ := h.covered earlier hearl
    rw [hearl.start_eq, hearl.stop_eq, hcov.start_eq, bytes_append, bytes_append]
    omega

theorem Lexer.between_begin (source : List Char) : Lexer.Between ⟨[], [0], 0, 1⟩ source [] source :=
  ⟨rfl, .inl (.inl rfl), rfl, rfl, .start, rfl, rfl⟩

/-- The values of all tokens are such as the lexer reads. -/
theorem lexical_of_lex {source : String} (h : lex fuel source = some (.ok tokens)) :
    ∀ token ∈ tokens, token.kind.Lexical := by
  obtain ⟨result, hres, htoks⟩ := Option.map_eq_some_iff.mp h
  cases result with
  | error error => cases htoks
  | ok final =>
    cases htoks
    obtain ⟨hgrows, -⟩ := (lexLines_spec fuel (Lexer.between_begin source.toList)).2 final hres
    exact fun token htok => (hgrows token htok).resolve_left List.not_mem_nil

/-- **Layout and spans**: the lexer ends on every text, and all that is enough of fuel gives one
result. When it succeeds, the text is the pieces of the tokens in order with only spaces, line ends
and blank lines between them; each token carries the place of its piece, no two overlap, and the
levels close as they open. -/
theorem lex_layout (source : String) :
    (∃ result, ∀ fuel, source.toList.length + 2 ≤ fuel → lex fuel source = some result) ∧
    ∀ fuel tokens, lex fuel source = some (.ok tokens) →
      Tiles source.toList source.toList tokens ∧
      (∀ token ∈ tokens, ∃ before piece after, source.toList = before ++ piece ++ after ∧
          token.Covers before piece) ∧
      (tokens.Pairwise fun earlier later => earlier.span.start ≤ later.span.start ∧
          earlier.span.stop ≤ later.span.start) ∧
      depthAfter tokens = some 0 := by
  have hbegin := Lexer.between_begin source.toList
  constructor
  · obtain ⟨result, hres⟩ :=
      Option.isSome_iff_exists.mp ((lexLines_spec (source.toList.length + 2) hbegin).1 le_rfl)
    refine ⟨result.map Lexer.tokens, fun fuel hfuel => ?_⟩
    rw [lex, lexLines_mono hfuel hres]
    rfl
  · intro fuel tokens htoks
    obtain ⟨result, hres, htoks⟩ := Option.map_eq_some_iff.mp htoks
    cases result with
    | error error => cases htoks
    | ok final =>
      cases htoks
      obtain ⟨-, htiles, hdepth⟩ := (lexLines_spec fuel hbegin).2 final hres
      exact ⟨htiles, htiles.covered, htiles.pairwise, hdepth⟩

/-- A line, and below it a block that the text leaves open: a capture over two lines, one of which
ends in a carriage return, and a name behind it. -/
def captureBlock : String := "a\r\n  schema \x7b\r\n \x7bx\x7d \x7d b"

theorem lex_layout_block :
    ∃ tokens, lex 30 captureBlock = some (.ok tokens) ∧
      (tokens.map fun token => (token.span.start, token.span.stop, token.span.line,
          token.span.column)) =
        [(0, 1, 1, 1), (1, 3, 1, 2), (3, 5, 2, 1), (5, 11, 2, 3), (12, 21, 2, 10), (22, 23, 3, 8),
            (23, 23, 3, 1)] ∧
      (tokens.Pairwise fun earlier later => earlier.span.start ≤ later.span.start ∧
          earlier.span.stop ≤ later.span.start) ∧
      depthAfter tokens = some 0 :=
  ⟨_, rfl, rfl, ((lex_layout captureBlock).2 30 _ rfl).2.2⟩

end Aion.Awl
