import Aion.Awl.ExprReading
import Aion.Awl.ExprText
import Aion.Awl.LexerText

/-!
# Lexing the printed form of an expression

The printed form of an expression lexes to the tokens that stand for it (`Grammatical.lexes`),
whatever stands behind it that does not go on with a name, a number or a string. The proof follows
the tree; between its parts stand marks and spaces, and each part ends where the next one begins.
-/

namespace Aion.Awl

open SourceText

variable {tail : List Char}

/-! ### String literals -/

variable {span nameSpan : Span} {name : String} {first : Char → Bool} {ch : Char}
  {text : List Char} {expr base : Expr}

/-- A character that stands for itself in a string literal. -/
theorem escapeChar_eq_self (hquote : ch ≠ '"') (hslash : ch ≠ '\\') (hfeed : ch ≠ '\n')
    (htab : ch ≠ '\t') : stringLiteral.escapeChar ch = [ch] := by
  unfold stringLiteral.escapeChar
  split <;> first | contradiction | rfl

/-- The escaped form of a value is read back up to the quote behind it. -/
theorem Cursor.stringFrom_escaped (cursor : Cursor) (start : ℕ) (value after : List Char)
    (index : ℕ) (read : List Char) :
    cursor.stringFrom start (value.flatMap stringLiteral.escapeChar ++ '"' :: after) index read =
      ({ cursor with index := index + bytes (value.flatMap stringLiteral.escapeChar) +
          1 } : Cursor).simple
        (.string (String.ofList (read ++ value))) start := by
  induction value generalizing index read with
  | nil =>
    rw [List.append_nil]
    rfl
  | cons ch value ih =>
    have hread : read ++ ch :: value = read ++ [ch] ++ value := by
      rw [List.append_assoc, List.singleton_append]
    rw [List.flatMap_cons, List.append_assoc, bytes_append, ← Nat.add_assoc, hread]
    by_cases hquote : ch = '"'
    · subst hquote
      exact ih (index + 2) _
    by_cases hslash : ch = '\\'
    · subst hslash
      exact ih (index + 2) _
    by_cases hfeed : ch = '\n'
    · subst hfeed
      exact ih (index + 2) _
    by_cases htab : ch = '\t'
    · subst htab
      exact ih (index + 2) _
    rw [escapeChar_eq_self hquote hslash hfeed htab, List.singleton_append, bytes_cons, bytes_nil,
      Nat.add_zero, ← ih]
    rw [Cursor.stringFrom]
    · rfl
    · exact hquote
    · exact fun hch _ => hslash hch
    · exact fun _ _ hch _ => hslash hch

theorem toList_stringLiteral (value : String) :
    (stringLiteral value).toList = '"' ::
      (value.toList.flatMap stringLiteral.escapeChar ++ ['"']) := by
  simp [stringLiteral]

/-- A string literal. -/
theorem lexes_stringLiteral (value : String) (htail : Ends tail) :
    Lexes (stringLiteral value).toList [.string value] tail := by
  have hescaped (ch : Char) : ∃ first rest, stringLiteral.escapeChar ch = first :: rest ∧ first ≠ '"' := by
    unfold stringLiteral.escapeChar
    split
    case h_5 => exact ⟨ch, [], rfl, by assumption⟩
    all_goals exact ⟨_, _, rfl, by decide⟩
  have hfeed (ch : Char) : '\n' ∉ stringLiteral.escapeChar ch := by
    unfold stringLiteral.escapeChar
    split
    case h_5 hfeed _ => simpa using fun h => hfeed h.symm
    all_goals decide
  rw [toList_stringLiteral]
  have hpiece : IsPiece ('"' :: (value.toList.flatMap stringLiteral.escapeChar ++ ['"'])) := by
    refine ⟨⟨_, _, rfl, ⟨by decide, by decide⟩, by decide⟩, ?_, ?_⟩
    · simp [hfeed]
    · rw [← List.cons_append, List.getLast?_append]
      simp
  have hquo : ¬['"', '"', '"'] <+: '"' :: (value.toList.flatMap stringLiteral.escapeChar ++ ['"']) ++ tail := by
    intro hstarts
    cases hval : value.toList with
    | nil =>
      rw [hval] at hstarts
      obtain ⟨rest, hrest⟩ := hstarts
      have hhead := congrArg (fun text : List Char => text.tail.tail.head?) hrest
      have htail' : tail.head? = some '"' := hhead.symm
      exact absurd (htail.head _ htail') (by decide)
    | cons ch chars =>
      obtain ⟨first, rest, hfst, hne⟩ := hescaped ch
      rw [hval, List.flatMap_cons, hfst] at hstarts
      obtain ⟨-, hstarts⟩ := List.cons_prefix_cons.mp hstarts
      exact hne (List.cons_prefix_cons.mp hstarts).1.symm
  refine lexes_of_takes hpiece hquo rfl fun after hafter cursor before hat => ?_
  have hat' : cursor.At before ('"' :: (value.toList.flatMap stringLiteral.escapeChar ++ '"' :: after)) := by simpa using hat
  have hmoved : (cursor.moved ['"']).At (before ++ ['"'])
    (value.toList.flatMap stringLiteral.escapeChar ++ '"' :: after) :=
    Cursor.At.moved hat'
  rw [Cursor.nextToken_eq hat']
  change (cursor.moved ['"']).string cursor.index = _
  rw [Cursor.string, hmoved.rest, Cursor.stringFrom_escaped, List.nil_append, String.ofList_toList]
  have hbehind : ({ cursor.moved ['"'] with
      index := (cursor.moved ['"']).index + bytes (value.toList.flatMap stringLiteral.escapeChar) + 1 } : Cursor) =
      cursor.moved ('"' :: (value.toList.flatMap stringLiteral.escapeChar ++ ['"'])) := by
    have hsize : Char.utf8Size '"' = 1 := rfl
    simp [Cursor.moved, hsize]
    omega
  rw [hbehind]
  rfl

/-! ### Words and marks -/

theorem isWord_of_all {rest : List Char} (hfst : first ch = true)
    (hrest : rest.all isIdentifierContinue = true) : IsWord first (ch :: rest) :=
  ⟨hfst, List.all_eq_true.mp hrest⟩

theorem isWord_asWord (keyword : Keyword) : IsWord Char.isLower keyword.asWord.toList := by
  cases keyword <;> exact isWord_of_all rfl rfl

theorem lexes_keyword (keyword : Keyword) (htail : Ends tail) :
    Lexes keyword.asWord.toList [.keyword keyword] tail := by
  have hword := lexes_word (isWord_asWord keyword) htail
  rwa [wordKind_asWord] at hword

theorem BinaryOp.lexes (op : BinaryOp) (rest : List Char) :
    Lexes op.text.toList [op.kind] (' ' :: rest) := by
  have hspace : Ends (' ' :: rest) := ends_cons (by decide) rest
  cases op with
  | or => exact lexes_keyword .or hspace
  | and => exact lexes_keyword .and hspace
  | eq => exact lexes_longMark (by decide)
  | ne => exact lexes_longMark (by decide)
  | lt => exact lexes_shortMark (by decide) (by simp)
  | le => exact lexes_longMark (by decide)
  | gt => exact lexes_shortMark (by decide) (by simp)
  | ge => exact lexes_longMark (by decide)
  | concat => exact lexes_mark (by decide)

/-- A space between two texts. -/
theorem Lexes.space {text' : List Char} {kinds kinds' : List TokenKind}
    (h : Lexes text kinds (' ' :: (text' ++ tail))) (h' : Lexes text' kinds' tail) :
    Lexes (text ++ ' ' :: text') (kinds ++ kinds') tail := by
  have hspaced : Lexes (' ' :: text') kinds' tail := lexes_space.append h'
  exact h.append hspaced

/-! ### Printed forms -/

attribute [local simp] exprText argText

theorem exprTexts_eq_map (items : List Expr) : exprTexts items = items.map exprText := by
  induction items with
  | nil => rw [exprTexts, List.map_nil]
  | cons item items ih => rw [exprTexts, ih, List.map_cons]

theorem argTexts_eq_map (args : List Arg) : argTexts args = args.map argText := by
  induction args with
  | nil => rw [argTexts, List.map_nil]
  | cons arg args ih => rw [argTexts, ih, List.map_cons]

/-- Texts with commas between them, before what closes their brackets. -/
theorem lexes_intercalate {α : Type} {text : α → String} {kinds : α → List TokenKind}
    {items : List α}
    (hitems : ∀ item ∈ items, ∀ tail, Ends tail → Lexes (text item).toList (kinds item) tail)
    (htail : Ends tail) :
    Lexes (", ".intercalate (items.map text)).toList
      ([.comma].intercalate (items.map kinds)) tail := by
  induction items with
  | nil => exact lexes_nil
  | cons item items ih =>
    have hitem := hitems item List.mem_cons_self
    have hrest := ih fun other hother => hitems other (List.mem_cons_of_mem _ hother)
    rw [String.toList_intercalate, List.map_map] at hrest ⊢
    cases items with
    | nil => simpa using hitem tail htail
    | cons other items =>
      simp only [List.map_cons, List.intercalate_cons_cons] at hrest ⊢
      have hcomma := (lexes_mark (by decide : (',', TokenKind.comma) ∈ marks)).space hrest
      rw [List.append_assoc, List.append_assoc]
      exact (hitem _ (ends_cons (by decide) _)).append hcomma

/-- The printed form lexes to the tokens of the expression, before what ends it. -/
def LexesExpr (expr : Expr) : Prop :=
  ∀ tail, Ends tail → Lexes (exprText expr).toList (exprKinds expr) tail

theorem lexesExpr_rawString {value : String} (hval : (TokenKind.rawString value).Lexical) :
    LexesExpr (.rawString span value) := by
  intro tail _
  have htext : (exprText (.rawString span value)).toList = ['"', '"', '"'] ++ value.toList ++ ['"', '"', '"'] := by simp
  rw [htext, exprKinds]
  exact lexes_rawString hval

theorem lexesExpr_int {value : ℕ} (hval : value < 2 ^ 64) : LexesExpr (.int span value) := by
  intro tail htail
  have htext : (exprText (.int span value)).toList = Nat.toDigits 10 value := by simp
  rw [htext, exprKinds]
  exact lexes_integer hval htail

theorem lexesExpr_duration {literal : DurationLiteral} (hliteral : literal.magnitude < 2 ^ 64) :
    LexesExpr (.duration literal) := by
  intro tail htail
  obtain ⟨ch, hch, hunit⟩ : ∃ ch, literal.unit.text.toList = [ch] ∧ durationUnit ch = some literal.unit := by
    cases literal.unit <;> exact ⟨_, rfl, rfl⟩
  have htext : (exprText (.duration literal)).toList = Nat.toDigits 10 literal.magnitude ++ [ch] := by simp [durationText, hch]
  rw [htext, exprKinds]
  exact lexes_duration hliteral hunit htail

theorem lexesExpr_json {bodySpan : Span} {body : String} (hbody : IsBraced body.toList) :
    LexesExpr (.json span body bodySpan) := by
  intro tail htail
  have htext : (exprText (.json span body bodySpan)).toList = "json".toList ++ [' '] ++ body.toList := by simp
  rw [htext, exprKinds]
  have hkeyword : Lexes ("json".toList ++ [' ']) [.keyword .json] (body.toList ++ tail) :=
    (lexes_keyword .json (ends_cons (by decide) _)).append lexes_space
  exact hkeyword.jsonBody rfl hbody

theorem lexesExpr_schemaOf (hname : IsWord Char.isUpper name.toList) :
    LexesExpr (.schemaOf span name nameSpan) := by
  intro tail htail
  have htext : (exprText (.schemaOf span name nameSpan)).toList = "schema".toList ++ ' ' ::
      ("of".toList ++ ' ' :: name.toList) := by
    simp
  rw [htext, exprKinds]
  have hspace (rest : List Char) : Ends (' ' :: rest) := ends_cons (by decide) rest
  exact (lexes_keyword .schema (hspace _)).space
    ((lexes_keyword .of (hspace _)).space (lexes_typeName hname htail))

theorem lexesExpr_list {items : List Expr} (hitems : ∀ item ∈ items, LexesExpr item) :
    LexesExpr (.list span items) := by
  intro tail htail
  have htext : (exprText (.list span items)).toList = ['['] ++ ((", ".intercalate (items.map exprText)).toList ++ [']']) := by
    simp [exprTexts_eq_map]
  rw [htext, exprKinds, exprsKinds_eq_map]
  exact (lexes_mark (by decide)).append
    ((lexes_intercalate hitems (ends_cons (by decide) tail)).append (lexes_mark (by decide)))

theorem lexesExpr_record {args : List Arg} (hname : IsWord Char.isUpper name.toList)
    (hargs : ∀ arg ∈ args, ∀ tail, Ends tail → Lexes (argText arg).toList (argKinds arg) tail) :
    LexesExpr (.record span name nameSpan args) := by
  intro tail htail
  have htext : (exprText (.record span name nameSpan args)).toList =
      name.toList ++ (['('] ++ ((", ".intercalate (args.map argText)).toList ++ [')'])) := by
    simp [argTexts_eq_map]
  rw [htext, exprKinds, argsKinds_eq_map]
  have hinner :=
    (lexes_intercalate hargs (ends_cons (by decide) tail)).append
      (lexes_mark (by decide : (')', TokenKind.rightParen) ∈ marks))
  have hbrackets := (lexes_mark (by decide : ('(', TokenKind.leftParen) ∈ marks)).append hinner
  exact (lexes_typeName hname (ends_cons (by decide) _)).append hbrackets

theorem lexes_argName (h : ArgName TokenKind.Lexical name) (htail : Ends tail) :
    Lexes name.toList [wordKind name] tail := by
  cases h with
  | identifier hname => exact lexes_word hname.1 htail
  | @soft keyword _ =>
    rw [wordKind_asWord]
    exact lexes_keyword keyword htail

theorem lexes_arg {arg : Arg} (hname : ArgName TokenKind.Lexical arg.name)
    (hval : LexesExpr arg.value) (htail : Ends tail) :
    Lexes (argText arg).toList (argKinds arg) tail := by
  obtain ⟨span, name, nameSpan, value⟩ := arg
  have htext : (argText ⟨span, name, nameSpan, value⟩).toList =
      name.toList ++ ([':'] ++ ' ' :: (exprText value).toList) := by
    simp
  rw [htext, argKinds]
  have hinner := (lexes_mark (by decide : (':', TokenKind.colon) ∈ marks)).space (hval tail htail)
  exact (lexes_argName hname (ends_cons (by decide) _)).append hinner

theorem lexesExpr_accessor (hname : IsWord Char.isLower name.toList) :
    LexesExpr (.accessor span name) := by
  intro tail htail
  have htext : (exprText (.accessor span name)).toList = '.' :: name.toList := by simp
  rw [htext, exprKinds]
  exact lexes_fieldAccessor hname htail

theorem lexesExpr_field (hbase : LexesExpr base) (hname : IsWord Char.isLower name.toList) :
    LexesExpr (.field span base name nameSpan) := by
  intro tail htail
  have htext : (exprText (.field span base name nameSpan)).toList = (exprText base).toList ++ '.' :: name.toList := by simp
  rw [htext, exprKinds]
  refine (hbase _ ?_).append (lexes_fieldAccessor hname htail)
  cases hchars : name.toList with
  | nil => exact (hchars ▸ hname : IsWord Char.isLower []).elim
  | cons ch rest =>
    rw [hchars] at hname
    have hlower := hname.1
    unfold Char.isLower at hlower
    exact ends_dot (by grind [Char.isDigit]) _

theorem lexesExpr_index {indexSpan : Span} {index : ℕ} (hbase : LexesExpr base)
    (hindex : index < 2 ^ 64) : LexesExpr (.index span base index indexSpan) := by
  intro tail htail
  have htext : (exprText (.index span base index indexSpan)).toList = (exprText base).toList ++
      (['['] ++ (Nat.toDigits 10 index ++ [']'])) := by
    simp
  rw [htext, exprKinds]
  have hinteger := lexes_integer hindex (ends_cons (by decide : ']' ∈ delimiters) tail)
  exact (hbase _ (ends_cons (by decide) _)).append
    ((lexes_mark (by decide)).append (hinteger.append (lexes_mark (by decide))))

theorem lexesExpr_not (hexpr : LexesExpr expr) : LexesExpr (.not span expr) := by
  intro tail htail
  have htext : (exprText (.not span expr)).toList = "not".toList ++ ' ' :: (exprText expr).toList := by simp
  rw [htext, exprKinds]
  exact (lexes_keyword .not (ends_cons (by decide) _)).space (hexpr tail htail)

theorem lexesExpr_binary {left right : Expr} {op : BinaryOp} (hleft : LexesExpr left)
    (hright : LexesExpr right) : LexesExpr (.binary span left op right) := by
  intro tail htail
  have htext : (exprText (.binary span left op right)).toList =
      (exprText left).toList ++ ' ' :: (op.text.toList ++ ' ' :: (exprText right).toList) := by
    simp
  rw [htext, exprKinds]
  exact (hleft _ (ends_cons (by decide) _)).space ((op.lexes _).space (hright tail htail))

theorem lexesExpr_predicate {subject : Expr} {kind : PredicateKind} (hsubject : LexesExpr subject) :
    LexesExpr (.predicate span subject kind) := by
  intro tail htail
  have hword : kind.text = kind.keyword.asWord := by cases kind <;> rfl
  have htext : (exprText (.predicate span subject kind)).toList =
      (exprText subject).toList ++ ' ' :: ("is".toList ++ ' ' :: kind.keyword.asWord.toList) := by
    simp [hword]
  rw [htext, exprKinds]
  exact (hsubject _ (ends_cons (by decide) _)).space
    ((lexes_keyword .is (ends_cons (by decide) _)).space (lexes_keyword _ htail))

theorem lexesExpr_collectionPredicate {collection predicate : Expr} {quantifier : Quantifier}
    (hcoll : LexesExpr collection) (hpred : LexesExpr predicate) :
    LexesExpr (.collectionPredicate span collection quantifier predicate) := by
  intro tail htail
  have hword : quantifier.text = quantifier.keyword.asWord := by cases quantifier <;> rfl
  have htext : (exprText (.collectionPredicate span collection quantifier predicate)).toList =
      (exprText collection).toList ++
        ' ' :: (['|', '>'] ++ ' ' :: (quantifier.keyword.asWord.toList ++
            (['('] ++ ((exprText predicate).toList ++ [')'])))) := by
    simp [hword]
  rw [htext, exprKinds]
  have hclose : Lexes [')'] [.rightParen] tail := lexes_mark (by decide)
  have hinner := (hpred _ (ends_cons (by decide) tail)).append hclose
  have hbrackets := (lexes_mark (by decide : ('(', TokenKind.leftParen) ∈ marks)).append hinner
  have hquantifier := (lexes_keyword quantifier.keyword (ends_cons (by decide) _)).append hbrackets
  exact (hcoll _ (ends_cons (by decide) _)).space ((lexes_longMark (by decide)).space hquantifier)

/-- **The printed form lexes to the tokens of the expression.** -/
theorem Grammatical.lexes (h : Grammatical TokenKind.Lexical expr) : LexesExpr expr := by
  induction h with
  | string _ => exact fun tail htail => lexes_stringLiteral _ htail
  | rawString hval => exact lexesExpr_rawString hval
  | json hbody => exact lexesExpr_json hbody
  | schemaOf hname => exact lexesExpr_schemaOf hname
  | int hval => exact lexesExpr_int hval
  | float hval => exact fun tail htail => lexes_float hval htail
  | @bool _ value =>
    intro tail htail
    cases value with
    | true => exact lexes_keyword .trueWord htail
    | false => exact lexes_keyword .falseWord htail
  | duration hliteral => exact lexesExpr_duration hliteral
  | list _ ih => exact lexesExpr_list ih
  | ref hname => exact fun tail htail => lexes_word hname.1 htail
  | visits => exact fun tail htail => lexes_keyword .visits htail
  | workflow => exact fun tail htail => lexes_keyword .workflow htail
  | variant hname => exact fun tail htail => lexes_typeName hname htail
  | record hname hnames _ ih =>
    exact lexesExpr_record hname fun arg harg tail htail =>
      lexes_arg (hnames arg harg) (ih arg harg) htail
  | field _ _ hname ih => exact lexesExpr_field ih hname
  | index _ _ hindex ih => exact lexesExpr_index ih hindex
  | accessor hname => exact lexesExpr_accessor hname
  | not _ _ ih => exact lexesExpr_not ih
  | binary _ _ _ _ ihLeft ihRight => exact lexesExpr_binary ihLeft ihRight
  | predicate _ _ ih => exact lexesExpr_predicate ih
  | collectionPredicate _ _ _ ihCollection ihPredicate =>
    exact lexesExpr_collectionPredicate ihCollection ihPredicate

/-! ### How printed forms begin -/

/-- A text that begins with a token. -/
def BeginsText (text : List Char) : Prop :=
  ∃ ch rest, text = ch :: rest ∧ Opens ch ∧ isWhite ch = false

theorem BeginsText.append (h : BeginsText text) (more : List Char) : BeginsText (text ++ more) := by
  obtain ⟨ch, rest, rfl, hch, hwhite⟩ := h
  exact ⟨ch, rest ++ more, rfl, hch, hwhite⟩

theorem beginsText_cons (hch : ch ≠ ' ' ∧ ch ≠ '/' ∧ isWhite ch = false) (rest : List Char) :
    BeginsText (ch :: rest) :=
  ⟨ch, rest, rfl, ⟨hch.1, hch.2.1⟩, hch.2.2⟩

theorem toNat_of_isIdentifierContinue (h : isIdentifierContinue ch = true) :
    48 ≤ ch.toNat ∧ ch.toNat ≤ 122 := by
  unfold isIdentifierContinue Char.isAlphanum Char.isAlpha Char.isUpper Char.isLower at h
  simp [Char.isDigit, UInt32.le_iff_toNat_le] at h
  rcases h with h | rfl
  · omega
  · decide

theorem beginsText_of_isIdentifierContinue (h : isIdentifierContinue ch = true) (rest : List Char) :
    BeginsText (ch :: rest) := by
  obtain ⟨hleast, hmost⟩ := toNat_of_isIdentifierContinue h
  refine beginsText_cons ⟨?_, ?_, ?_⟩ rest
  · rintro rfl
    exact absurd h (by decide)
  · rintro rfl
    exact absurd h (by decide)
  · simp [isWhite, UInt32.le_iff_toNat_le, ← UInt32.toNat_inj]
    omega

theorem beginsText_word (hfst : ∀ ch, first ch = true → isIdentifierContinue ch = true)
    {word : List Char} (h : IsWord first word) : BeginsText word := by
  cases word with
  | nil => exact h.elim
  | cons ch rest => exact beginsText_of_isIdentifierContinue (hfst ch h.1) rest

theorem beginsText_keyword (keyword : Keyword) : BeginsText keyword.asWord.toList :=
  beginsText_word (fun _ => isIdentifierContinue_of_isLower) (isWord_asWord keyword)

theorem AreDigits.beginsText {digits : List Char} (h : AreDigits digits) : BeginsText digits := by
  obtain ⟨hne, hall⟩ := h
  cases digits with
  | nil => exact absurd rfl hne
  | cons ch rest =>
    have hdigit := hall ch List.mem_cons_self
    exact beginsText_of_isIdentifierContinue
      (by simp [isIdentifierContinue, Char.isAlphanum, hdigit]) rest

/-- The printed form begins with a token, so that it can stand at the start of a document. -/
theorem Grammatical.beginsText (h : Grammatical TokenKind.Lexical expr) :
    BeginsText (exprText expr).toList := by
  induction h with
  | string _ =>
    rw [exprText, toList_stringLiteral]
    exact beginsText_cons (by decide) _
  | rawString _ =>
    rw [exprText, String.toList_append, String.toList_append, List.append_assoc]
    exact beginsText_cons (by decide) _
  | json _ =>
    rw [exprText, String.toList_append]
    exact beginsText_cons (by decide) _
  | schemaOf _ =>
    rw [exprText, String.toList_append]
    exact beginsText_cons (by decide) _
  | @int _ value _ =>
    have htext : (exprText (.int noSpan value)).toList = Nat.toDigits 10 value := by simp
    exact htext ▸ (areDigits_toDigits value).beginsText
  | float hval =>
    obtain ⟨whole, fraction, hlexeme, hwhole, -⟩ := parsesAsFloat_eq_true hval
    rw [exprText, hlexeme]
    exact hwhole.beginsText.append _
  | @bool _ value =>
    cases value with
    | true => exact beginsText_keyword .trueWord
    | false => exact beginsText_keyword .falseWord
  | @duration literal _ =>
    have htext : (exprText (.duration literal)).toList = Nat.toDigits 10 literal.magnitude ++ literal.unit.text.toList := by
      simp [durationText]
    exact htext ▸ (areDigits_toDigits literal.magnitude).beginsText.append _
  | list _ _ =>
    rw [exprText, String.toList_append, String.toList_append, List.append_assoc]
    exact beginsText_cons (by decide) _
  | ref hname => exact beginsText_word (fun _ => isIdentifierContinue_of_isLower) hname.1
  | visits => exact beginsText_keyword .visits
  | workflow => exact beginsText_keyword .workflow
  | variant hname => exact beginsText_word (fun _ => isIdentifierContinue_of_isUpper) hname
  | record hname _ _ _ =>
    simp only [exprText, String.toList_append, List.append_assoc]
    exact (beginsText_word (fun _ => isIdentifierContinue_of_isUpper) hname).append _
  | field _ _ _ ih =>
    simp only [exprText, String.toList_append, List.append_assoc]
    exact ih.append _
  | index _ _ _ ih =>
    simp only [exprText, String.toList_append, List.append_assoc]
    exact ih.append _
  | accessor _ =>
    rw [exprText, String.toList_append]
    exact beginsText_cons (by decide) _
  | not _ _ _ =>
    rw [exprText, String.toList_append]
    exact beginsText_cons (by decide) _
  | binary _ _ _ _ ih _ =>
    simp only [exprText, String.toList_append, List.append_assoc]
    exact ih.append _
  | predicate _ _ ih =>
    simp only [exprText, String.toList_append, List.append_assoc]
    exact ih.append _
  | collectionPredicate _ _ _ ih _ =>
    simp only [exprText, String.toList_append, List.append_assoc]
    exact ih.append _

end Aion.Awl
