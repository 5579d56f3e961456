import Aion.Awl.Tokens
import Aion.Library.SourceText
import Mathlib.Algebra.Group.Nat.Defs

/-!
# The AWL lexer

From the text of a document to its tokens. A `Cursor` walks one physical line and reads the
ordinary tokens; the scanner around it handles indentation, comments, doc lines and line ends,
and the captures that may go over many lines: the bodies of `schema` and `json`, and raw
strings. After a capture that crossed a line feed, the line and the cursor are computed again
from the place where it ended.

All offsets are bytes into the document or into the line. The loops over lines and over the
tokens of a line take fuel; `none` says that it ran out.
-/

namespace Aion.Awl

open SourceText

/-! ### Characters -/

/-- The characters that Unicode counts as white space. -/
def isWhite (ch : Char) : Bool :=
  (9 ≤ ch.val && ch.val ≤ 13) || ch.val = 0x20 || ch.val = 0x85 || ch.val =
    0xA0 || ch.val = 0x1680 ||
    (0x2000 ≤ ch.val && ch.val ≤ 0x200A) || ch.val = 0x2028 || ch.val = 0x2029 || ch.val =
      0x202F || ch.val = 0x205F ||
    ch.val = 0x3000

/-- A character inside a word. -/
def isIdentifierContinue (ch : Char) : Bool := ch.isAlphanum || ch = '_'

/-- The unit a letter stands for. -/
def durationUnit : Char → Option DurationUnit
  | 's' => some .seconds
  | 'm' => some .minutes
  | 'h' => some .hours
  | 'd' => some .days
  | _ => none

/-- The number that digits write, if 64 bits hold it. -/
def parseU64 (digits : List Char) (span : Span) : Except LexError ℕ :=
  let value := digits.foldl (fun value ch => 10 * value + (ch.toNat - '0'.toNat)) 0
  if value < 2 ^ 64 then .ok value else .error ⟨span, "integer literal is too large"⟩

/-- Digits, a dot and digits are read as a floating-point number, however large. -/
def parsesAsFloat (lexeme : List Char) : Bool :=
  match lexeme.span Char.isDigit with
  | (whole, '.' :: fraction) => !whole.isEmpty && !fraction.isEmpty && fraction.all Char.isDigit
  | _ => false

/-! ### The cursor -/

/-- The column of a byte of a line, counted in characters from one. -/
def columnAt (line : List Char) (index : ℕ) : ℕ := (uptoByte line index).length + 1

/-- A place in a line: the line with its offset and its number, and a byte of it. -/
structure Cursor where
  line : List Char
  base : ℕ
  lineNo : ℕ
  index : ℕ

namespace Cursor

variable (cursor : Cursor)

/-- What is left of the line. -/
def rest : List Char := fromByte cursor.line cursor.index

/-- Nothing is left of the line. -/
def isAtEnd : Bool := bytes cursor.line ≤ cursor.index

/-- The rest starts with the needle. -/
def startsWith (needle : List Char) : Bool := needle.isPrefixOf cursor.rest

/-- The next character. -/
def current : Option Char := cursor.rest.head?

/-- The span between two bytes of the line. -/
def span (start stop : ℕ) : Span :=
  ⟨cursor.base + start, cursor.base + stop, cursor.lineNo, columnAt cursor.line start⟩

/-- A token between two bytes of the line. -/
def spanned (kind : TokenKind) (start stop : ℕ) : Token := ⟨kind, cursor.span start stop⟩

/-- The text of the line between two bytes. -/
def slice (start stop : ℕ) : List Char := uptoByte (fromByte cursor.line start) (stop - start)

/-- Takes one character. -/
def advanceChar : Option (Char × Cursor) :=
  cursor.current.map fun ch => (ch, { cursor with index := cursor.index + ch.utf8Size })

/-- Takes characters while the test holds. -/
def advanceWhile (p : Char → Bool) : Cursor :=
  { cursor with index := cursor.index + bytes (cursor.rest.takeWhile p) }

/-- Takes the blanks. -/
def skipInlineWhitespace : Cursor := cursor.advanceWhile (· = ' ')

/-- Takes the expected character. -/
def consumeIf (expected : Char) : Option Cursor :=
  match cursor.advanceChar with
  | some (ch, next) => if ch = expected then some next else none
  | none => none

/-- The token so far, with the cursor behind it. -/
def simple (kind : TokenKind) (start : ℕ) : Except LexError (Token × Cursor) :=
  .ok (cursor.spanned kind start cursor.index, cursor)

/-- One token when the character follows, else another. -/
def either (expected : Char) (long short : TokenKind) (start : ℕ) :
    Except LexError (Token × Cursor) :=
  match cursor.consumeIf expected with
  | some next => next.simple long start
  | none => cursor.simple short start

/-- `.field`; the dot is consumed already and stands at `start`. -/
def fieldAccessor (start : ℕ) : Except LexError (Token × Cursor) :=
  if cursor.current.any Char.isLower then
    let next := cursor.advanceWhile isIdentifierContinue
    next.simple (.fieldAccessor (String.ofList (next.slice (start + 1) next.index))) start
  else .error ⟨cursor.span start cursor.index, "expected a field name after `.`"⟩

/-- The characters of a string with the byte they start at, and the value read so far. -/
def stringFrom (start : ℕ) : List Char → ℕ → List Char → Except LexError (Token × Cursor)
  | [], index, _ => .error ⟨cursor.span start index, "unterminated string literal"⟩
  | '"' :: _, index, value =>
    { cursor with index := index + 1 }.simple (.string (String.ofList value)) start
  | '\\' :: [], index, _ => .error ⟨cursor.span start (index + 1), "unterminated string literal"⟩
  | '\\' :: escaped :: rest, index, value =>
    match escaped with
    | '"' => stringFrom start rest (index + 2) (value ++ ['"'])
    | '\\' => stringFrom start rest (index + 2) (value ++ ['\\'])
    | 'n' => stringFrom start rest (index + 2) (value ++ ['\n'])
    | 't' => stringFrom start rest (index + 2) (value ++ ['\t'])
    | _ =>
      .error ⟨cursor.span index (index + 1 + escaped.utf8Size), "unsupported string escape `\\" ++ escaped.toString ++ "`"⟩
  | ch :: rest, index, value => stringFrom start rest (index + ch.utf8Size) (value ++ [ch])

/-- A string literal, after its quote. -/
def string (start : ℕ) : Except LexError (Token × Cursor) :=
  cursor.stringFrom start cursor.rest cursor.index []

/-- A float or an integer, behind its first digits. -/
def plainNumber (start : ℕ) : Except LexError (Token × Cursor) :=
  match cursor.rest with
  | '.' :: digit :: _ =>
    if digit.isDigit then
      let next := { cursor with index := cursor.index + 1 }.advanceWhile Char.isDigit
      let lexeme := next.slice start next.index
      if parsesAsFloat lexeme then next.simple (.float (String.ofList lexeme)) start
      else .error ⟨next.span start next.index, "invalid float literal"⟩
    else integer
  | _ => integer
where
  integer := do
    let value ← parseU64 (cursor.slice start cursor.index) (cursor.span start cursor.index)
    cursor.simple (.integer value) start

/-- An integer, a float or a duration. -/
def number (start : ℕ) : Except LexError (Token × Cursor) :=
  let digits := cursor.advanceWhile Char.isDigit
  match digits.current.bind durationUnit with
  | some unit =>
    let next := { digits with index := digits.index + 1 }
    if next.current.any isIdentifierContinue then digits.plainNumber start
    else do
      let magnitude ← parseU64 (digits.slice start digits.index) (digits.span start digits.index)
      next.simple (.duration magnitude unit) start
  | none => digits.plainNumber start

/-- A keyword or an identifier. -/
def word (start : ℕ) (typeName : Bool) : Except LexError (Token × Cursor) :=
  let next := cursor.advanceWhile isIdentifierContinue
  let text := String.ofList (next.slice start next.index)
  if typeName then next.simple (.typeIdentifier text) start
  else
    match Keyword.fromWord text with
    | some keyword => next.simple (.keyword keyword) start
    | none => next.simple (.identifier text) start

/-- The token of a character that is consumed already and stands at `start`. -/
def tokenAfter (ch : Char) (start : ℕ) : Except LexError (Token × Cursor) :=
  match ch with
  | '(' => cursor.simple .leftParen start
  | ')' => cursor.simple .rightParen start
  | '{' => cursor.simple .leftBrace start
  | '}' => cursor.simple .rightBrace start
  | '[' => cursor.simple .leftBracket start
  | ']' => cursor.simple .rightBracket start
  | ':' => cursor.simple .colon start
  | ',' => cursor.simple .comma start
  | '+' => cursor.simple .plus start
  | '?' => cursor.simple .question start
  | '.' =>
    match cursor.consumeIf '.' with
    | some next => next.simple .dotDot start
    | none => cursor.fieldAccessor start
  | '-' => cursor.either '>' .arrow .minus start
  | '|' => cursor.either '>' .pipe .bar start
  | '=' => cursor.either '=' .equalEqual .equal start
  | '!' =>
    match cursor.consumeIf '=' with
    | some next => next.simple .bangEqual start
    | none => stray
  | '<' => cursor.either '=' .lessEqual .less start
  | '>' => cursor.either '=' .greaterEqual .greater start
  | '"' => cursor.string start
  | _ =>
    if ch.isDigit then cursor.number start
    else if ch.isLower then cursor.word start false
    else if ch.isUpper then cursor.word start true
    else stray
where
  stray := .error ⟨cursor.span start cursor.index, "stray character `" ++ ch.toString ++ "`"⟩

/-- The next token of the line. -/
def nextToken : Except LexError (Token × Cursor) :=
  match cursor.advanceChar with
  | none => .error ⟨cursor.span cursor.index cursor.index, "unexpected end of source line"⟩
  | some (ch, next) => next.tokenAfter ch cursor.index

end Cursor

/-! ### Physical lines and captures -/

/-- A line of the document: where it starts, its text without the terminator, how many bytes the
terminator takes, and whether a line feed is in it. -/
structure PhysicalLine where
  start : ℕ
  text : List Char
  terminatorLen : ℕ
  hasLineFeed : Bool

/-- The physical line at a byte, with its ending. -/
def splitLine (source : List Char) (start : ℕ) : PhysicalLine :=
  let rest := fromByte source start
  let raw := rest.takeWhile (· ≠ '\n')
  let crlf : Bool := raw.getLast? = some '\r'
  let content := if crlf then raw.dropLast else raw
  if '\n' ∈ rest then ⟨start, content, if crlf then 2 else 1, true⟩
  else ⟨start, content, if crlf then 1 else 0, false⟩

/-- The indentation of a line; no tabs. -/
def countLeadingSpaces (line : List Char) (base lineNo : ℕ) : Except LexError ℕ :=
  let count := (line.takeWhile (· = ' ')).length
  match line.dropWhile (· = ' ') with
  | '\t' :: _ => .error ⟨⟨base + count, base + count + 1, lineNo, count + 1⟩, "tabs are not allowed in indentation"⟩
  | _ => .ok count

/-- Which capture a brace opens. -/
inductive BracedBody
  | schema
  | json

/-- The token of a captured body. -/
def BracedBody.tokenKind (body : String) : BracedBody → TokenKind
  | .schema => .schemaBody body
  | .json => .jsonBody body

/-- Goes to the brace that closes the first one: the bytes up to behind it, and the line feeds
crossed. Braces in strings do not count. -/
def bracedFrom : List Char → (consumed depth newlines : ℕ) → (inString : Bool) → Option (ℕ × ℕ)
  | [], _, _, _, _ => none
  | '\n' :: rest, consumed, depth, newlines, inString =>
    bracedFrom rest (consumed + 1) depth (newlines + 1) inString
  | '\\' :: [], _, _, _, true => none
  | '\\' :: escaped :: rest, consumed, depth, newlines, true =>
    bracedFrom rest (consumed + 1 + escaped.utf8Size) depth (if escaped = '\n' then newlines + 1 else newlines) true
  | '"' :: rest, consumed, depth, newlines, inString =>
    bracedFrom rest (consumed + 1) depth newlines !inString
  | '{' :: rest, consumed, depth, newlines, false =>
    bracedFrom rest (consumed + 1) (depth + 1) newlines false
  | '}' :: rest, consumed, depth, newlines, false =>
    if depth - 1 = 0 then some (consumed + 1, newlines)
    else bracedFrom rest (consumed + 1) (depth - 1) newlines false
  | ch :: rest, consumed, depth, newlines, inString =>
    bracedFrom rest (consumed + ch.utf8Size) depth newlines inString

/-- The end of a braced body, and the lines it spans. -/
def scanBracedBody (source : List Char) (opening : ℕ) (openSpan : Span) (kind : BracedBody) :
    Except LexError (ℕ × ℕ) :=
  match bracedFrom (fromByte source opening) 0 0 0 false with
  | some (consumed, newlines) => .ok (opening + consumed, newlines)
  | none =>
    .error ⟨openSpan,
      match kind with
      | .schema => "unterminated inline `schema \x7b … \x7d` body"
      | .json => "unterminated `json \x7b … \x7d` literal body"⟩

/-- The byte of the first three quotes. -/
def findQuotes : List Char → ℕ → Option ℕ
  | [], _ => none
  | ch :: rest, offset =>
    if ['"', '"', '"'].isPrefixOf (ch :: rest) then some offset
    else findQuotes rest (offset + ch.utf8Size)

/-- The end of a raw string, the line feeds crossed, and its value. -/
def scanRawString (source : List Char) (opening : ℕ) (openSpan : Span) :
    Except LexError (ℕ × ℕ × List Char) :=
  let body := fromByte source (opening + 3)
  match findQuotes body 0 with
  | none => .error ⟨openSpan, "unterminated raw string literal"⟩
  | some length =>
    let value := uptoByte body length
    .ok (opening + 3 + length + 3, value.count '\n', value)

/-! ### Comments -/

/-- One space behind the marker is not part of a comment. -/
def normalizeCommentText : List Char → List Char
  | ' ' :: text => text
  | text => text

/-- The token of a comment that is a whole line, and whether it is data. -/
def classifyComment : List Char → TokenKind × Bool
  | '/' :: '/' :: '!' :: text => (.docHeader (String.ofList text), true)
  | '/' :: '/' :: '/' :: '/' :: text =>
    (.comment (String.ofList (normalizeCommentText ('/' :: '/' :: text))), false)
  | '/' :: '/' :: '/' :: text => (.docLine (String.ofList text), true)
  | text => (.comment (String.ofList (normalizeCommentText (text.drop 2))), false)

/-! ### The scanner -/

/-- What the lexer has read: the tokens, the open levels of indentation with the innermost first,
and where the next line starts. -/
structure Lexer where
  tokens : List Token
  indents : List ℕ
  offset : ℕ
  line : ℕ

namespace Lexer

variable (lexer : Lexer)

/-- Appends a token. -/
def push (kind : TokenKind) (span : Span) : Lexer :=
  { lexer with tokens := lexer.tokens ++ [⟨kind, span⟩] }

/-- Closes a physical line. -/
def finishLine (line : PhysicalLine) (emitNewline : Bool) : Lexer :=
  let stop := line.start + bytes line.text
  let pushed :=
    if emitNewline && line.hasLineFeed then
      lexer.push .newline ⟨stop, stop + line.terminatorLen, lexer.line, columnAt line.text (bytes line.text)⟩
    else lexer
  { pushed with
    line := if line.hasLineFeed then lexer.line + 1 else lexer.line
    offset := stop + line.terminatorLen }

/-- Whether the last token makes a brace open a capture. -/
def lastBracedBodyKind : Option BracedBody :=
  match lexer.tokens.getLast?.map Token.kind with
  | some (.keyword .schema) => some .schema
  | some (.keyword .json) => some .json
  | _ => none

/-- Appends the comment that fills a line. -/
def pushLineComment (line : PhysicalLine) (start : ℕ) : Lexer × Bool :=
  let (kind, isData) := classifyComment (fromByte line.text start)
  (lexer.push kind ⟨line.start + start, line.start + bytes line.text, lexer.line,
      columnAt line.text start⟩, isData)

/-- Appends the comment that ends a line. -/
def pushTrailingComment (cursor : Cursor) : Lexer :=
  lexer.push (.comment (String.ofList
      (normalizeCommentText (fromByte cursor.line (cursor.index + 2)))))
    ⟨cursor.base + cursor.index, cursor.base + bytes cursor.line, cursor.lineNo, columnAt cursor.line cursor.index⟩

/-- How many levels are deeper than `spaces`, and the levels that are not. -/
def deeperThan (spaces : ℕ) : List ℕ → ℕ × List ℕ
  | [] => (0, [])
  | level :: levels =>
    if spaces < level then
      let (count, rest) := deeperThan spaces levels
      (count + 1, rest)
    else (0, level :: levels)

/-- Opens or closes the layout blocks of a line. -/
def adjustIndent (lineStart spaces : ℕ) : Except LexError Lexer :=
  let current := lexer.indents.headD 0
  let whole : Span := ⟨lineStart, lineStart + spaces, lexer.line, 1⟩
  if current < spaces then
    if current + 2 < spaces then .error
      ⟨whole, "indentation increases by more than one two-space level"⟩
    else .ok { lexer.push .indent whole with indents := spaces :: lexer.indents }
  else
    let (count, levels) := deeperThan spaces lexer.indents
    let closed := { lexer with
      tokens := lexer.tokens ++ List.replicate count ⟨.dedent, ⟨lineStart, lineStart, lexer.line, 1⟩⟩
      indents := levels }
    if levels.headD 0 ≠ spaces then .error
      ⟨whole, "dedent does not match a previous indentation level"⟩
    else .ok closed

/-- Goes on behind a capture: in the same line, or in the line where it ends. -/
def afterCapture (source : List Char) (line : PhysicalLine) (cursor : Cursor) (stop newlines : ℕ) :
    Lexer × PhysicalLine × Cursor :=
  if newlines = 0 then (lexer, line, { cursor with index := stop - cursor.base })
  else
    let crossed := { lexer with line := lexer.line + newlines }
    let closeStart := bytes (uptoByte source stop) - bytes (sinceLine (uptoByte source stop))
    let closeLine := splitLine source closeStart
    (crossed, closeLine, ⟨closeLine.text, closeStart, crossed.line, stop - closeStart⟩)

/-- The tokens of a line, from the cursor on. -/
def lexRest (source : List Char) :
    ℕ → Lexer → PhysicalLine → Cursor → Option (Except LexError Lexer)
  | 0, _, _, _ => none
  | fuel + 1, lexer, line, cursor =>
    let cursor := cursor.skipInlineWhitespace
    if cursor.isAtEnd then some (.ok (lexer.finishLine line true))
    else if cursor.startsWith ['/', '/'] then
      some (.ok ((lexer.pushTrailingComment cursor).finishLine line true))
    else
      let opening := cursor.base + cursor.index
      match if cursor.startsWith ['{'] then lexer.lastBracedBodyKind else none with
      | some braced =>
        let openSpan := cursor.span cursor.index (cursor.index + 1)
        match scanBracedBody source opening openSpan braced with
        | .error error => some (.error error)
        | .ok (stop, newlines) =>
          let body := String.ofList (uptoByte (fromByte source opening) (stop - opening))
          let pushed := lexer.push (braced.tokenKind body) ⟨opening, stop, openSpan.line, openSpan.column⟩
          let (lexer, line, cursor) := pushed.afterCapture source line cursor stop newlines
          lexRest source fuel lexer line cursor
      | none =>
        if cursor.startsWith ['"', '"', '"'] then
          let openSpan := cursor.span cursor.index (cursor.index + 3)
          match scanRawString source opening openSpan with
          | .error error => some (.error error)
          | .ok (stop, newlines, value) =>
            let pushed := lexer.push (.rawString (String.ofList value)) ⟨opening, stop, openSpan.line, openSpan.column⟩
            let (lexer, line, cursor) := pushed.afterCapture source line cursor stop newlines
            lexRest source fuel lexer line cursor
        else
          match cursor.nextToken with
          | .error error => some (.error error)
          | .ok (token, next) => lexRest source fuel (lexer.push token.kind token.span) line next

/-- Lexes one line. -/
def lexLine (source : List Char) (fuel : ℕ) (lexer : Lexer) : Option (Except LexError Lexer) :=
  let line := splitLine source lexer.offset
  match countLeadingSpaces line.text line.start lexer.line with
  | .error error => some (.error error)
  | .ok contentStart =>
    let afterIndent := fromByte line.text contentStart
    if afterIndent.all isWhite then some (.ok (lexer.finishLine line false))
    else if ['/', '/'].isPrefixOf afterIndent then
      let (pushed, isData) := lexer.pushLineComment line contentStart
      some (.ok (pushed.finishLine line isData))
    else if contentStart % 2 ≠ 0 then
      some (.error ⟨⟨line.start, line.start + contentStart, lexer.line, 1⟩, "indentation must use two-space levels"⟩)
    else
      match lexer.adjustIndent line.start contentStart with
      | .error error => some (.error error)
      | .ok adjusted => lexRest source fuel adjusted line ⟨line.text, line.start, adjusted.line, contentStart⟩

/-- Line after line, and at the end the levels that are still open. -/
def lexLines (source : List Char) : ℕ → Lexer → Option (Except LexError Lexer)
  | 0, _ => none
  | fuel + 1, lexer =>
    if lexer.offset < bytes source then
      match lexLine source fuel lexer with
      | none => none
      | some (.error error) => some (.error error)
      | some (.ok next) => lexLines source fuel next
    else
      let opened := lexer.indents.length - 1
      some (.ok { lexer with
        tokens := lexer.tokens ++ List.replicate opened ⟨.dedent, ⟨lexer.offset, lexer.offset, lexer.line, 1⟩⟩
        indents := lexer.indents.drop opened })

end Lexer

/-- The tokens of a document. -/
def lex (fuel : ℕ) (source : String) : Option (Except LexError (List Token)) :=
  (Lexer.lexLines source.toList fuel ⟨[], [0], 0, 1⟩).map fun result => result.map Lexer.tokens

end Aion.Awl
