import IpDocket.Lib.Text

/-!
# Placeholders of SQL texts

`_convert_qmark_to_percent` and `_escape_percent_for_pyformat`, which make a statement with question
marks one for a driver that expands percent signs. What the statement means is given by the lexical
rules of PostgreSQL, with its nested comments, escape literals and dollar quotes.
-/

namespace IpDocket.Billing
open IpDocket.Lib

/-- Where the scanner is: its four flags, of which one at most is set. -/
inductive Scan
  | plain
  | single
  | double
  | lineComment
  | blockComment
  deriving DecidableEq

/-- The loop of `_convert_qmark_to_percent`. -/
def convertFrom : Scan → Text → Text
  | _, [] => []
  | .lineComment, c :: t => c :: convertFrom (if c = '\n' then .plain else .lineComment) t
  | .blockComment, '*' :: '/' :: t => '*' :: '/' :: convertFrom .plain t
  | .blockComment, c :: t => c :: convertFrom .blockComment t
  | .plain, '-' :: '-' :: t => '-' :: '-' :: convertFrom .lineComment t
  | .plain, '/' :: '*' :: t => '/' :: '*' :: convertFrom .blockComment t
  | .plain, '\'' :: t => '\'' :: convertFrom .single t
  | .plain, '"' :: t => '"' :: convertFrom .double t
  | .plain, '?' :: t => '%' :: 's' :: convertFrom .plain t
  | .plain, c :: t => c :: convertFrom .plain t
  | .single, '\'' :: '\'' :: t => '\'' :: '\'' :: convertFrom .single t
  | .single, '\'' :: t => '\'' :: convertFrom .plain t
  | .single, c :: t => c :: convertFrom .single t
  | .double, '"' :: t => '"' :: convertFrom .plain t
  | .double, c :: t => c :: convertFrom .double t

def convertQmarkToPercent (sql : Text) : Text :=
  if '?' ∈ sql then convertFrom .plain sql else sql

/-- `re.sub(r"%(?![s%])", "%%", sql)`. -/
def doublePercents : Text → Text
  | [] => []
  | c :: t =>
    if c = '%' ∧ t.head? ≠ some 's' ∧ t.head? ≠ some '%' then '%' :: '%' :: doublePercents t
    else c :: doublePercents t

def escapePercentForPyformat (sql : Text) : Text :=
  if '%' ∈ sql then doublePercents sql else sql

/-- A piece of a statement: a character that stands for itself, or the place of a parameter. -/
inductive Piece
  | char (c : Char)
  | place
  deriving DecidableEq

/-- The pieces of a text with `pyformat` placeholders; `none` where the driver fails. -/
def pyformatPieces : Text → Option (List Piece)
  | [] => some []
  | '%' :: 's' :: t => (pyformatPieces t).map (.place :: ·)
  | '%' :: '%' :: t => (pyformatPieces t).map (.char '%' :: ·)
  | '%' :: _ => none
  | c :: t => (pyformatPieces t).map (.char c :: ·)

/-- The statement with its parameters in their places, in order; `none` unless there are as many as
places. -/
def fill {α : Type} : List Piece → List α → Option (List (Char ⊕ α))
  | [], [] => some []
  | .char c :: pieces, params => (fill pieces params).map (.inl c :: ·)
  | .place :: pieces, p :: params => (fill pieces params).map (.inr p :: ·)
  | _, _ => none

/-- The statement that the driver sends. -/
def pyformat {α : Type} (sql : Text) (params : List α) : Option (List (Char ⊕ α)) :=
  (pyformatPieces sql).bind (fun pieces => fill pieces params)

/-- Whether a word has begun, and whether it is the letter that marks an escape literal. -/
inductive Word
  | none
  | escapeLetter
  | longer
  deriving DecidableEq

/-- Where the lexer of PostgreSQL is. `skipping` passes over the rest of a delimiter. -/
inductive Lexeme
  | plain (word : Word)
  | literal
  | escapeLiteral
  | identifier
  | lineComment
  | blockComment (outer : Nat)
  | dollarQuote (tag : Text)
  | skipping (more : Nat) (after : Lexeme)

def isWordStart (c : Char) : Bool := c.isAlpha || c = '_' || 128 ≤ c.toNat

def isTagChar (c : Char) : Bool := isWordStart c || c.isDigit

/-- The tag of a dollar quote that begins after the first dollar sign. -/
def dollarTag (t : Text) : Option Text :=
  let tag := t.takeWhile isTagChar
  if (t.drop tag.length).head? = some '$' ∧ (tag.head?.all isWordStart) = true then some tag else none

/-- The next position, and whether the character is a question mark that stands for a parameter. -/
def lexPlain (word : Word) (c : Char) (t : Text) : Lexeme × Bool :=
  if isWordStart c ∨ (word ≠ .none ∧ (c.isDigit ∨ c = '$')) then
    (.plain (if word = .none ∧ (c = 'E' ∨ c = 'e') then .escapeLetter else .longer), false)
  else if c = '\'' then (if word = .escapeLetter then .escapeLiteral else .literal, false)
  else if c = '"' then (.identifier, false)
  else if c = '-' ∧ t.head? = some '-' then (.lineComment, false)
  else if c = '/' ∧ t.head? = some '*' then (.skipping 0 (.blockComment 0), false)
  else if c = '$' then
    match dollarTag t with
    | some tag => (.skipping tag.length (.dollarQuote tag), false)
    | none => (.plain .none, false)
  else (.plain .none, c = '?')

def lexStep : Lexeme → Char → Text → Lexeme × Bool
  | .plain word, c, t => lexPlain word c t
  | .literal, c, t =>
    if c = '\'' then
      if t.head? = some '\'' then (.skipping 0 .literal, false) else (.plain .none, false)
    else (.literal, false)
  | .escapeLiteral, c, t =>
    if c = '\\' then (.skipping 0 .escapeLiteral, false)
    else if c = '\'' then
      if t.head? = some '\'' then (.skipping 0 .escapeLiteral, false) else (.plain .none, false)
    else (.escapeLiteral, false)
  | .identifier, c, t =>
    if c = '"' then
      if t.head? = some '"' then (.skipping 0 .identifier, false) else (.plain .none, false)
    else (.identifier, false)
  | .lineComment, c, _ => (if c = '\n' ∨ c = '\r' then .plain .none else .lineComment, false)
  | .blockComment outer, c, t =>
    if c = '/' ∧ t.head? = some '*' then (.skipping 0 (.blockComment (outer + 1)), false)
    else if c = '*' ∧ t.head? = some '/' then
      match outer with
      | 0 => (.skipping 0 (.plain .none), false)
      | outer + 1 => (.skipping 0 (.blockComment outer), false)
    else (.blockComment outer, false)
  | .dollarQuote tag, c, t =>
    if c = '$' ∧ (tag ++ ['$']).isPrefixOf t then (.skipping tag.length (.plain .none), false)
    else (.dollarQuote tag, false)
  | .skipping 0 after, _, _ => (after, false)
  | .skipping (more + 1) after, _, _ => (.skipping more after, false)

/-- The pieces of a statement with question marks. -/
def statementFrom (lexeme : Lexeme) : Text → List Piece
  | [] => []
  | c :: t =>
    (if (lexStep lexeme c t).2 then .place else .char c) :: statementFrom (lexStep lexeme c t).1 t

def statementPieces (sql : Text) : List Piece := statementFrom (.plain .none) sql

attribute [grind =] doublePercents pyformatPieces

/-- The pieces of a statement as the scanner finds them. -/
def scanFrom : Scan → Text → List Piece
  | _, [] => []
  | .lineComment, c :: t => .char c :: scanFrom (if c = '\n' then .plain else .lineComment) t
  | .blockComment, '*' :: '/' :: t => .char '*' :: .char '/' :: scanFrom .plain t
  | .blockComment, c :: t => .char c :: scanFrom .blockComment t
  | .plain, '-' :: '-' :: t => .char '-' :: .char '-' :: scanFrom .lineComment t
  | .plain, '/' :: '*' :: t => .char '/' :: .char '*' :: scanFrom .blockComment t
  | .plain, '\'' :: t => .char '\'' :: scanFrom .single t
  | .plain, '"' :: t => .char '"' :: scanFrom .double t
  | .plain, '?' :: t => .place :: scanFrom .plain t
  | .plain, c :: t => .char c :: scanFrom .plain t
  | .single, '\'' :: '\'' :: t => .char '\'' :: .char '\'' :: scanFrom .single t
  | .single, '\'' :: t => .char '\'' :: scanFrom .plain t
  | .single, c :: t => .char c :: scanFrom .single t
  | .double, '"' :: t => .char '"' :: scanFrom .plain t
  | .double, c :: t => .char c :: scanFrom .double t

def scannedPieces (sql : Text) : List Piece := scanFrom .plain sql

/-- The character of a piece in the text with question marks. -/
def Piece.spelled : Piece → Char
  | .char c => c
  | .place => '?'

/-- The characters that the scanner writes for a piece. -/
def Piece.written : Piece → Text
  | .char c => [c]
  | .place => ['%', 's']

lemma convertFrom_eq (scan : Scan) (t : Text) :
    convertFrom scan t = (scanFrom scan t).flatMap Piece.written := by
  fun_induction scanFrom scan t <;> simp_all [convertFrom, Piece.written]

lemma spelled_scanFrom (scan : Scan) (t : Text) : (scanFrom scan t).map Piece.spelled = t := by
  fun_induction scanFrom scan t <;> simp_all [Piece.spelled]

lemma convertFrom_of_not_mem {t : Text} (h : '?' ∉ t) (scan : Scan) : convertFrom scan t = t := by
  fun_induction convertFrom scan t <;> simp_all

lemma convertQmarkToPercent_eq (sql : Text) :
    convertQmarkToPercent sql = (scannedPieces sql).flatMap Piece.written := by
  unfold convertQmarkToPercent scannedPieces
  rw [← convertFrom_eq]
  split
  · rfl
  · next hno => exact (convertFrom_of_not_mem hno .plain).symm

lemma escapePercentForPyformat_eq (sql : Text) : escapePercentForPyformat sql = doublePercents sql := by
  unfold escapePercentForPyformat
  split
  · rfl
  · next hno =>
    induction sql with
    | nil => rfl
    | cons c t ih =>
      rw [List.mem_cons, not_or] at hno
      rw [doublePercents, if_neg (fun h => hno.1 h.1.symm), ← ih hno.2]

/-! ### Reading the pieces back -/

/-- What the driver reads in the text that is written for the pieces. -/
def readBack (pieces : List Piece) : Option (List Piece) :=
  pyformatPieces (doublePercents (pieces.flatMap Piece.written))

section ReadBack

variable (pieces : List Piece)

lemma readBack_char {c : Char} (h : c ≠ '%') :
    readBack (.char c :: pieces) = (readBack pieces).map (.char c :: ·) := by
  unfold readBack
  simp [Piece.written, doublePercents, pyformatPieces, h]

lemma readBack_place : readBack (.place :: pieces) = (readBack pieces).map (.place :: ·) := by
  unfold readBack
  simp [Piece.written, doublePercents, pyformatPieces]

lemma readBack_percent_last : readBack [.char '%'] = some [.char '%'] := rfl

lemma readBack_percent_char {c : Char} (hletter : c ≠ 's') (h : c ≠ '%') :
    readBack (.char '%' :: .char c :: pieces) =
      (readBack (.char c :: pieces)).map (.char '%' :: ·) := by
  unfold readBack
  simp [Piece.written, doublePercents, pyformatPieces, hletter, h]

/-- The driver takes the two characters for a place. -/
lemma readBack_percent_letter :
    readBack (.char '%' :: .char 's' :: pieces) = (readBack pieces).map (.place :: ·) := by
  unfold readBack
  simp [Piece.written, doublePercents, pyformatPieces]

/-- The driver takes the percent signs for one, and the letter of the place for itself. -/
lemma readBack_percent_place :
    readBack (.char '%' :: .place :: pieces) =
      (readBack pieces).map (fun read => .char '%' :: .char 's' :: read) := by
  unfold readBack
  simp [Piece.written, doublePercents, pyformatPieces]
  rfl

/-- Of two percent signs the driver sees one, or it fails. -/
lemma readBack_percent_percent :
    readBack (.char '%' :: .char '%' :: pieces) = none ∨
      readBack (.char '%' :: .char '%' :: pieces) = (readBack pieces).map (.char '%' :: ·) := by
  unfold readBack
  rw [List.flatMap_cons, List.flatMap_cons]
  generalize pieces.flatMap Piece.written = t
  by_cases hkept : t.head? = some 's' ∨ t.head? = some '%'
  · right
    have hstay : ¬(t.head? ≠ some 's' ∧ t.head? ≠ some '%') := by grind
    simp [Piece.written, doublePercents, pyformatPieces, hstay]
  · left
    rw [not_or] at hkept
    cases t with
    | nil => rfl
    | cons c t =>
      have hletter : c ≠ 's' := by simpa using hkept.1
      have hpercent : c ≠ '%' := by simpa using hkept.2
      simp [Piece.written, doublePercents, pyformatPieces, hletter, hpercent]

end ReadBack

/-- No percent sign stands directly before a letter `s`, a percent sign or a place. -/
def percentsAlone : List Piece → Bool
  | [] => true
  | .char '%' :: .char 's' :: _ => false
  | .char '%' :: .char '%' :: _ => false
  | .char '%' :: .place :: _ => false
  | _ :: pieces => percentsAlone pieces

/-- A percent sign that does not stand alone, and what the driver makes of it and the next piece. -/
inductive Misread : Piece → List Piece → Prop
  | letter : Misread (.char 's') [.place]
  | place : Misread .place [.char '%', .char 's']
  | percent : Misread (.char '%') [.char '%']

/-- The first piece is read as it is, or it is a percent sign that does not stand alone. -/
lemma readBack_cons (p : Piece) (pieces : List Piece) :
    (readBack (p :: pieces) = (readBack pieces).map (p :: ·) ∧
        percentsAlone (p :: pieces) = percentsAlone pieces) ∨
      ∃ next rest, p = .char '%' ∧ pieces = next :: rest ∧ percentsAlone (p :: pieces) = false ∧
        (readBack (p :: pieces) = none ∨
          ∃ read, Misread next read ∧ readBack (p :: pieces) = (readBack rest).map (read ++ ·)) := by
  cases p with
  | place => exact .inl ⟨readBack_place pieces, by simp [percentsAlone]⟩
  | char c =>
    by_cases hc : c = '%'
    · subst hc
      cases pieces with
      | nil => exact .inl ⟨readBack_percent_last, rfl⟩
      | cons next rest =>
        cases next with
        | place =>
          exact .inr ⟨_, rest, rfl, rfl, rfl, .inr ⟨_, .place, readBack_percent_place rest⟩⟩
        | char d =>
          by_cases hletter : d = 's'
          · subst hletter
            exact .inr ⟨_, rest, rfl, rfl, rfl, .inr ⟨_, .letter, readBack_percent_letter rest⟩⟩
          · by_cases hpercent : d = '%'
            · subst hpercent
              refine .inr ⟨_, rest, rfl, rfl, rfl, ?_⟩
              obtain hfails | hread := readBack_percent_percent rest
              · exact .inl hfails
              · exact .inr ⟨_, .percent, hread⟩
            · exact .inl ⟨readBack_percent_char rest hletter hpercent,
                by simp [percentsAlone, hletter, hpercent]⟩
    · exact .inl ⟨readBack_char pieces hc, by simp [percentsAlone, hc]⟩

/-- Percent signs that stand alone are read as they are. -/
lemma readBack_of_alone {pieces : List Piece} (h : percentsAlone pieces = true) :
    readBack pieces = some pieces := by
  induction pieces with
  | nil => rfl
  | cons p pieces ih =>
    obtain ⟨hread, halone⟩ | ⟨next, rest, -, -, hnot, -⟩ := readBack_cons p pieces
    · rw [halone] at h
      rw [hread, ih h]
      rfl
    · rw [h] at hnot
      cases hnot

/-- The driver reads no more pieces than were written. -/
lemma length_le_of_readBack (pieces : List Piece) {read : List Piece} (h : readBack pieces = some read) :
    read.length ≤ pieces.length := by
  match pieces with
  | [] =>
    cases h
    exact Nat.le_refl 0
  | p :: pieces =>
    obtain ⟨hread, -⟩ | ⟨next, rest, -, rfl, -, hread⟩ := readBack_cons p pieces
    · rw [hread] at h
      obtain ⟨read', h', rfl⟩ := Option.map_eq_some_iff.mp h
      have hle := length_le_of_readBack pieces h'
      simpa using hle
    · obtain hfails | ⟨first, hfirst, hread⟩ := hread
      · rw [hfails] at h
        cases h
      · rw [hread] at h
        obtain ⟨read', h', rfl⟩ := Option.map_eq_some_iff.mp h
        have hle := length_le_of_readBack rest h'
        have hshort : first.length ≤ 2 := by cases hfirst <;> decide
        simp only [List.length_append, List.length_cons]
        omega
termination_by pieces.length

/-- Where the driver reads a text with the same characters, every percent sign stands alone. -/
lemma alone_of_readBack {pieces read : List Piece} (h : readBack pieces = some read)
    (hspelled : read.map Piece.spelled = pieces.map Piece.spelled) : percentsAlone pieces = true := by
  induction pieces generalizing read with
  | nil => rfl
  | cons p pieces ih =>
    obtain ⟨hread, halone⟩ | ⟨next, rest, rfl, rfl, -, hread⟩ := readBack_cons p pieces
    · rw [hread] at h
      obtain ⟨read', h', rfl⟩ := Option.map_eq_some_iff.mp h
      rw [halone]
      rw [List.map_cons, List.map_cons] at hspelled
      exact ih h' (List.tail_eq_of_cons_eq hspelled)
    · exfalso
      obtain hfails | ⟨first, hfirst, hread⟩ := hread
      · rw [hfails] at h
        cases h
      · rw [hread] at h
        obtain ⟨read', h', rfl⟩ := Option.map_eq_some_iff.mp h
        cases hfirst with
        | letter => simp [Piece.spelled] at hspelled
        | place => simp [Piece.spelled] at hspelled
        | percent =>
          -- one piece is missing, and the rest cannot make up for it
          have hle := length_le_of_readBack rest h'
          have hlength := congrArg List.length hspelled
          simp only [List.length_map, List.length_append, List.length_cons, List.length_nil] at hlength
          omega

/-- The text has nothing that PostgreSQL and the scanner read differently: no dollar sign, backslash,
carriage return or block comment. -/
def PlainText (t : Text) : Prop :=
  '$' ∉ t ∧ '\\' ∉ t ∧ '\r' ∉ t ∧ ¬['/', '*'] <:+: t

lemma PlainText.tail {c : Char} {t : Text} (h : PlainText (c :: t)) : PlainText t := by
  obtain ⟨hdollar, hback, hreturn, hcomment⟩ := h
  refine ⟨fun hmem => hdollar (List.mem_cons_of_mem c hmem), fun hmem => hback (List.mem_cons_of_mem c hmem),
    fun hmem => hreturn (List.mem_cons_of_mem c hmem), fun hwithin => hcomment (hwithin.trans ?_)⟩
  exact (List.suffix_cons c t).isInfix

/-- The scanner and the lexer are in regions that correspond. -/
inductive Agrees : Scan → Lexeme → Prop
  | plain (word : Word) : Agrees .plain (.plain word)
  | literal : Agrees .single .literal
  | escapeLiteral : Agrees .single .escapeLiteral
  | identifier : Agrees .double .identifier
  | lineComment : Agrees .lineComment .lineComment

lemma PlainText.head {c : Char} {t : Text} (h : PlainText (c :: t)) :
    c ≠ '$' ∧ c ≠ '\\' ∧ c ≠ '\r' ∧ ¬(c = '/' ∧ t.head? = some '*') := by
  obtain ⟨hdollar, hback, hreturn, hcomment⟩ := h
  refine ⟨fun heq => hdollar (heq ▸ List.mem_cons_self), fun heq => hback (heq ▸ List.mem_cons_self),
    fun heq => hreturn (heq ▸ List.mem_cons_self), ?_⟩
  rintro ⟨rfl, hhead⟩
  obtain ⟨rest, rfl⟩ : ∃ rest, t = '*' :: rest := by
    cases t with
    | nil => cases hhead
    | cons d rest => exact ⟨rest, by rw [Option.some_inj.mp hhead]⟩
  exact hcomment ⟨[], rest, rfl⟩

lemma scanFrom_plain {c : Char} {t : Text} (hquote : c ≠ '\'') (hdouble : c ≠ '"') (hmark : c ≠ '?')
    (hline : ¬(c = '-' ∧ t.head? = some '-')) (hblock : ¬(c = '/' ∧ t.head? = some '*')) :
    scanFrom .plain (c :: t) = .char c :: scanFrom .plain t := by
  rw [scanFrom]
  · rintro t' rfl rfl
    exact hline ⟨rfl, rfl⟩
  · rintro t' rfl rfl
    exact hblock ⟨rfl, rfl⟩
  · exact hquote
  · exact hdouble
  · exact hmark

lemma lexPlain_plain {word : Word} {c : Char} {t : Text} (hquote : c ≠ '\'') (hdouble : c ≠ '"')
    (hmark : c ≠ '?') (hdollar : c ≠ '$') (hline : ¬(c = '-' ∧ t.head? = some '-'))
    (hblock : ¬(c = '/' ∧ t.head? = some '*')) : ∃ after, lexPlain word c t = (.plain after, false) := by
  unfold lexPlain
  rw [if_neg hquote, if_neg hdouble, if_neg hline, if_neg hblock, if_neg hdollar]
  split
  · exact ⟨_, rfl⟩
  · exact ⟨.none, by rw [decide_eq_false hmark]⟩

lemma cons_of_head {t : Text} {c : Char} (h : t.head? = some c) : ∃ rest, t = c :: rest := by
  cases t with
  | nil => cases h
  | cons d rest => exact ⟨rest, by rw [Option.some_inj.mp h]⟩

/-- A text without what the two read differently has the same question marks for both. -/
lemma scanFrom_eq_statementFrom {scan : Scan} {lexeme : Lexeme} (hagree : Agrees scan lexeme) (t : Text)
    (h : PlainText t) : scanFrom scan t = statementFrom lexeme t := by
  match t with
  | [] => simp [scanFrom, statementFrom]
  | c :: t =>
    obtain ⟨hdollar, hback, hreturn, hblock⟩ := h.head
    have ihPlain := fun word => scanFrom_eq_statementFrom (.plain word) t h.tail
    cases hagree with
    | plain word =>
      by_cases hline : c = '-' ∧ t.head? = some '-'
      · obtain ⟨rfl, hhead⟩ := hline
        obtain ⟨t, rfl⟩ := cons_of_head hhead
        have ih := scanFrom_eq_statementFrom .lineComment t h.tail.tail
        simp [scanFrom, statementFrom, lexStep, lexPlain, isWordStart, ih]
      · by_cases hquote : c = '\''
        · subst hquote
          have ih := scanFrom_eq_statementFrom .literal t h.tail
          have ihEscape := scanFrom_eq_statementFrom .escapeLiteral t h.tail
          rw [scanFrom, statementFrom]
          have hlex : lexStep (.plain word) '\'' t =
              (if word = .escapeLetter then .escapeLiteral else .literal, false) := by
            simp [lexStep, lexPlain, isWordStart]
          rw [hlex]
          by_cases hletter : word = .escapeLetter
          · rw [if_pos hletter, ihEscape]
            rfl
          · rw [if_neg hletter, ih]
            rfl
        · by_cases hdouble : c = '"'
          · subst hdouble
            have ih := scanFrom_eq_statementFrom .identifier t h.tail
            simp [scanFrom, statementFrom, lexStep, lexPlain, isWordStart, ih]
          · by_cases hmark : c = '?'
            · subst hmark
              simp only [scanFrom, statementFrom, lexStep, lexPlain, isWordStart]
              simp [ihPlain .none]
            · obtain ⟨after, hlex⟩ := @lexPlain_plain word c t hquote hdouble hmark hdollar hline hblock
              rw [scanFrom_plain hquote hdouble hmark hline hblock, statementFrom, lexStep, hlex,
                ihPlain after]
              rfl
    | literal =>
      by_cases hquote : c = '\''
      · subst hquote
        by_cases hhead : t.head? = some '\''
        · obtain ⟨t, rfl⟩ := cons_of_head hhead
          have ih := scanFrom_eq_statementFrom .literal t h.tail.tail
          simp [scanFrom, statementFrom, lexStep, ih]
        · rw [scanFrom, statementFrom, lexStep, if_pos rfl, if_neg hhead, ihPlain .none]
          · rfl
          · rintro t' rfl
            exact hhead rfl
      · have ih := scanFrom_eq_statementFrom .literal t h.tail
        rw [scanFrom, statementFrom, lexStep, if_neg hquote, ih]
        · rfl
        · rintro t' rfl
          exact absurd rfl hquote
        · exact hquote
    | escapeLiteral =>
      by_cases hquote : c = '\''
      · subst hquote
        by_cases hhead : t.head? = some '\''
        · obtain ⟨t, rfl⟩ := cons_of_head hhead
          have ih := scanFrom_eq_statementFrom .escapeLiteral t h.tail.tail
          simp [scanFrom, statementFrom, lexStep, ih]
        · rw [scanFrom, statementFrom, lexStep, if_neg hback, if_pos rfl, if_neg hhead, ihPlain .none]
          · rfl
          · rintro t' rfl
            exact hhead rfl
      · have ih := scanFrom_eq_statementFrom .escapeLiteral t h.tail
        rw [scanFrom, statementFrom, lexStep, if_neg hback, if_neg hquote, ih]
        · rfl
        · rintro t' rfl
          exact absurd rfl hquote
        · exact hquote
    | identifier =>
      by_cases hdouble : c = '"'
      · subst hdouble
        by_cases hhead : t.head? = some '"'
        · obtain ⟨t, rfl⟩ := cons_of_head hhead
          have ih := scanFrom_eq_statementFrom .identifier t h.tail.tail
          simp [scanFrom, statementFrom, lexStep, ih]
        · rw [scanFrom, statementFrom, lexStep, if_pos rfl, if_neg hhead, ihPlain .none]
          rfl
      · have ih := scanFrom_eq_statementFrom .identifier t h.tail
        rw [scanFrom, statementFrom, lexStep, if_neg hdouble, ih]
        · rfl
        · exact hdouble
    | lineComment =>
      have ih := scanFrom_eq_statementFrom .lineComment t h.tail
      by_cases hend : c = '\n'
      · simp [scanFrom, statementFrom, lexStep, hend, ihPlain .none]
      · simp [scanFrom, statementFrom, lexStep, hend, hreturn, ih]
termination_by t.length

lemma scannedPieces_of_plainText {sql : Text} (h : PlainText sql) :
    scannedPieces sql = statementPieces sql := scanFrom_eq_statementFrom (.plain .none) sql h

section Statement

variable {α : Type}

lemma statement_of_fill {pieces : List Piece} {params : List α} {sent : List (Char ⊕ α)}
    (h : fill pieces params = some sent) :
    sent.map (Sum.elim Piece.char (fun _ => Piece.place)) = pieces := by
  fun_induction fill pieces params generalizing sent with
  | case1 =>
    cases h
    rfl
  | case2 c pieces params ih =>
    obtain ⟨rest, hrest, rfl⟩ := Option.map_eq_some_iff.mp h
    rw [List.map_cons, ih hrest]
    rfl
  | case3 pieces p params ih =>
    obtain ⟨rest, hrest, rfl⟩ := Option.map_eq_some_iff.mp h
    rw [List.map_cons, ih hrest]
    rfl
  | case4 => cases h

lemma fill_of_count {pieces : List Piece} {params : List α}
    (h : params.length = pieces.count .place) : ∃ sent, fill pieces params = some sent := by
  induction pieces generalizing params with
  | nil =>
    have hnil : params = [] := List.length_eq_zero_iff.mp h
    subst hnil
    exact ⟨[], rfl⟩
  | cons p pieces ih =>
    cases p with
    | char c =>
      rw [List.count_cons_of_ne (by simp)] at h
      obtain ⟨sent, hsent⟩ := ih h
      exact ⟨.inl c :: sent, by rw [fill, hsent]; rfl⟩
    | place =>
      rw [List.count_cons_self] at h
      cases params with
      | nil => cases h
      | cons p params =>
        obtain ⟨sent, hsent⟩ := ih (Nat.succ.inj h)
        exact ⟨.inr p :: sent, by rw [fill, hsent]; rfl⟩

lemma spelled_statementFrom (lexeme : Lexeme) (t : Text)  :
    (statementFrom lexeme t).map Piece.spelled = t := by
  induction t generalizing lexeme with
  | nil => rfl
  | cons c t ih =>
    rw [statementFrom, List.map_cons, ih]
    have hplace : (lexStep lexeme c t).2 = true → c = '?' := by
      intro h
      unfold lexStep lexPlain at h
      split at h <;> (repeat' split at h) <;> simp_all
    split
    · next h => rw [hplace h]; rfl
    · rfl

/-- The driver sends the statement that was meant. -/
def SentAsMeant (sql : Text) (params : List α) : Prop :=
  ∃ sent, fill (statementPieces sql) params = some sent ∧
    pyformat (escapePercentForPyformat (convertQmarkToPercent sql)) params = some sent

lemma sentAsMeant_iff {sql : Text} {params : List α}
    (hcount : params.length = (statementPieces sql).count .place) :
    SentAsMeant sql params ↔
      scannedPieces sql = statementPieces sql ∧ percentsAlone (statementPieces sql) = true := by
  have hread : pyformatPieces (escapePercentForPyformat (convertQmarkToPercent sql)) =
      readBack (scannedPieces sql) := by
    rw [escapePercentForPyformat_eq, convertQmarkToPercent_eq]
    rfl
  unfold SentAsMeant pyformat
  rw [hread]
  constructor
  · rintro ⟨sent, hmeant, hsent⟩
    obtain ⟨read, hpieces, hfill⟩ := Option.bind_eq_some_iff.mp hsent
    have hsame : read = statementPieces sql :=
      (statement_of_fill hfill).symm.trans (statement_of_fill hmeant)
    have hspelled : read.map Piece.spelled = (scannedPieces sql).map Piece.spelled := by
      rw [hsame]
      exact (spelled_statementFrom _ sql).trans (spelled_scanFrom .plain sql).symm
    have halone := alone_of_readBack hpieces hspelled
    rw [readBack_of_alone halone, Option.some_inj] at hpieces
    rw [hsame] at hpieces
    rw [hpieces] at halone
    exact ⟨hpieces, halone⟩
  · rintro ⟨hscan, halone⟩
    obtain ⟨sent, hsent⟩ := fill_of_count hcount
    refine ⟨sent, hsent, ?_⟩
    rw [hscan, readBack_of_alone halone]
    exact hsent

end Statement

end IpDocket.Billing
