import IpDocket.Billing.SqlPlaceholders
import IpDocket.Lib.Numerals

/-!
# Scripts of several statements

`_split_sql_script`, whose scanner passes through the states of the one that converts question marks. A
script is read by the lexical rules that both follow: literals and quoted identifiers, in which the quote
is doubled, and comments that do not nest; what has no end reaches to the end of the script.
-/

namespace IpDocket.Billing
open IpDocket.Lib

/-- What is appended to the statements for the characters that were collected. -/
def statement (current : Text) : List Text := if pyStrip current = [] then [] else [pyStrip current]

/-- The loop of `_split_sql_script`. -/
def splitFrom : Scan → Text → Text → List Text
  | _, current, [] => statement current
  | .lineComment, current, c :: t =>
    splitFrom (if c = '\n' then .plain else .lineComment) (current ++ [c]) t
  | .blockComment, current, '*' :: '/' :: t => splitFrom .plain (current ++ ['*', '/']) t
  | .blockComment, current, c :: t => splitFrom .blockComment (current ++ [c]) t
  | .plain, current, '-' :: '-' :: t => splitFrom .lineComment (current ++ ['-', '-']) t
  | .plain, current, '/' :: '*' :: t => splitFrom .blockComment (current ++ ['/', '*']) t
  | .plain, current, '\'' :: t => splitFrom .single (current ++ ['\'']) t
  | .plain, current, '"' :: t => splitFrom .double (current ++ ['"']) t
  | .plain, current, ';' :: t => statement current ++ splitFrom .plain [] t
  | .plain, current, c :: t => splitFrom .plain (current ++ [c]) t
  | .single, current, '\'' :: '\'' :: t => splitFrom .single (current ++ ['\'', '\'']) t
  | .single, current, '\'' :: t => splitFrom .plain (current ++ ['\'']) t
  | .single, current, c :: t => splitFrom .single (current ++ [c]) t
  | .double, current, '"' :: t => splitFrom .plain (current ++ ['"']) t
  | .double, current, c :: t => splitFrom .double (current ++ [c]) t

attribute [grind =] splitFrom

def splitSqlScript (script : Text) : List Text := splitFrom .plain [] script

/-- A character of the code, or a literal, quoted identifier or comment as a whole. -/
inductive SqlLexeme
  | code (c : Char)
  | literal (t : Text)
  | identifier (t : Text)
  | lineComment (t : Text)
  | blockComment (t : Text)
  deriving DecidableEq

def SqlLexeme.text : SqlLexeme → Text
  | .code c => [c]
  | .literal t | .identifier t | .lineComment t | .blockComment t => t

/-- What follows an opening quote, up to the quote that closes it and is not doubled; and the rest. -/
def endQuoted (quote : Char) : Text → Text × Text
  | [] => ([], [])
  | [c] => ([c], [])
  | c :: d :: t =>
    if c = quote then
      if d = quote then (c :: d :: (endQuoted quote t).1, (endQuoted quote t).2) else ([c], d :: t)
    else (c :: (endQuoted quote (d :: t)).1, (endQuoted quote (d :: t)).2)

/-- The rest of a comment up to the end of the line. -/
def endLine : Text → Text × Text
  | [] => ([], [])
  | c :: t => if c = '\n' then ([c], t) else (c :: (endLine t).1, (endLine t).2)

/-- The rest of a comment up to its closing mark. -/
def endBlock : Text → Text × Text
  | [] => ([], [])
  | '*' :: '/' :: t => (['*', '/'], t)
  | c :: t => (c :: (endBlock t).1, (endBlock t).2)

lemma endQuoted_append (quote : Char) (t : Text) : (endQuoted quote t).1 ++ (endQuoted quote t).2 = t := by
  fun_induction endQuoted quote t <;> simp_all

lemma endLine_append (t : Text) : (endLine t).1 ++ (endLine t).2 = t := by
  fun_induction endLine t <;> simp_all

lemma endBlock_append (t : Text) : (endBlock t).1 ++ (endBlock t).2 = t := by
  fun_induction endBlock t <;> simp_all

/-- What is left after the end is no longer than before. -/
lemma length_le_of_append {t : Text} {parts : Text × Text} (h : parts.1 ++ parts.2 = t) :
    parts.2.length ≤ t.length := by
  rw [← h, List.length_append]
  omega

/-- The lexemes of a script. -/
def lexemes : Text → List SqlLexeme
  | [] => []
  | '\'' :: t => .literal ('\'' :: (endQuoted '\'' t).1) :: lexemes (endQuoted '\'' t).2
  | '"' :: t => .identifier ('"' :: (endQuoted '"' t).1) :: lexemes (endQuoted '"' t).2
  | '-' :: '-' :: t => .lineComment ('-' :: '-' :: (endLine t).1) :: lexemes (endLine t).2
  | '/' :: '*' :: t => .blockComment ('/' :: '*' :: (endBlock t).1) :: lexemes (endBlock t).2
  | c :: t => .code c :: lexemes t
termination_by t => t.length
decreasing_by
  · have := length_le_of_append (endQuoted_append '\'' t)
    simp only [List.length_cons]
    omega
  · have := length_le_of_append (endQuoted_append '"' t)
    simp only [List.length_cons]
    omega
  · have := length_le_of_append (endLine_append t)
    simp only [List.length_cons]
    omega
  · have := length_le_of_append (endBlock_append t)
    simp only [List.length_cons]
    omega
  · simp only [List.length_cons]
    omega

lemma flatMap_lexemes (t : Text) : (lexemes t).flatMap SqlLexeme.text = t := by
  fun_induction lexemes t with
  | case1 => rfl
  | case2 t ih => rw [List.flatMap_cons, ih, SqlLexeme.text, List.cons_append, endQuoted_append]
  | case3 t ih => rw [List.flatMap_cons, ih, SqlLexeme.text, List.cons_append, endQuoted_append]
  | case4 t ih => rw [List.flatMap_cons, ih, SqlLexeme.text, List.cons_append, List.cons_append, endLine_append]
  | case5 t ih => rw [List.flatMap_cons, ih, SqlLexeme.text, List.cons_append, List.cons_append, endBlock_append]
  | case6 c t _ _ _ _ ih => rw [List.flatMap_cons, ih, SqlLexeme.text, List.singleton_append]

lemma splitFrom_nil (scan : Scan) (current : Text) : splitFrom scan current [] = statement current := by
  cases scan <;> rfl

lemma splitFrom_plain {c : Char} {t : Text} (hquote : c ≠ '\'') (hdouble : c ≠ '"') (hend : c ≠ ';')
    (hline : ∀ t', c = '-' → t ≠ '-' :: t') (hblock : ∀ t', c = '/' → t ≠ '*' :: t') (current : Text) :
    splitFrom .plain current (c :: t) = splitFrom .plain (current ++ [c]) t := by
  rw [splitFrom]
  · rintro t' rfl rfl
    exact hline t' rfl rfl
  · rintro t' rfl rfl
    exact hblock t' rfl rfl
  · exact hquote
  · exact hdouble
  · exact hend

lemma splitFrom_single_close {t : Text} (h : ∀ t', t ≠ '\'' :: t') (current : Text) :
    splitFrom .single current ('\'' :: t) = splitFrom .plain (current ++ ['\'']) t := by
  rw [splitFrom]
  rintro t' rfl
  exact h t' rfl

lemma splitFrom_single_other {c : Char} (h : c ≠ '\'') (current t : Text) :
    splitFrom .single current (c :: t) = splitFrom .single (current ++ [c]) t := by
  rw [splitFrom]
  · rintro t' rfl
    exact absurd rfl h
  · exact h

lemma splitFrom_double_close (current t : Text) :
    splitFrom .double current ('"' :: t) = splitFrom .plain (current ++ ['"']) t := by
  rw [splitFrom]

lemma splitFrom_double_other {c : Char} (h : c ≠ '"') (current t : Text) :
    splitFrom .double current (c :: t) = splitFrom .double (current ++ [c]) t := by
  rw [splitFrom]
  exact h

lemma splitFrom_block_other {c : Char} {t : Text} (h : ∀ t', c = '*' → t ≠ '/' :: t') (current : Text) :
    splitFrom .blockComment current (c :: t) = splitFrom .blockComment (current ++ [c]) t := by
  rw [splitFrom]
  rintro t' rfl rfl
  exact h t' rfl rfl

/-- A literal as a whole. -/
lemma splitFrom_single (current t : Text) :
    splitFrom .single current t =
      splitFrom .plain (current ++ (endQuoted '\'' t).1) (endQuoted '\'' t).2 := by
  fun_induction endQuoted '\'' t generalizing current with
  | case1 => rw [splitFrom_nil, splitFrom_nil, List.append_nil]
  | case2 c =>
    by_cases h : c = '\''
    · rw [h, splitFrom_single_close (by simp)]
    · rw [splitFrom_single_other h, splitFrom_nil, splitFrom_nil]
  | case3 t ih =>
    rw [splitFrom, ih]
    simp
  | case4 d t hd => rw [splitFrom_single_close (fun t' heq => hd (List.cons.inj heq).1)]
  | case5 c d t hc ih =>
    rw [splitFrom_single_other hc, ih]
    simp

/-- A quoted identifier as a whole: at a quote that is doubled the scanner leaves it for a moment. -/
lemma splitFrom_double (current t : Text) :
    splitFrom .double current t =
      splitFrom .plain (current ++ (endQuoted '"' t).1) (endQuoted '"' t).2 := by
  fun_induction endQuoted '"' t generalizing current with
  | case1 => rw [splitFrom_nil, splitFrom_nil, List.append_nil]
  | case2 c =>
    by_cases h : c = '"'
    · rw [h, splitFrom_double_close]
    · rw [splitFrom_double_other h, splitFrom_nil, splitFrom_nil]
  | case3 t ih =>
    rw [splitFrom_double_close, splitFrom, ih]
    simp
  | case4 d t hd => rw [splitFrom_double_close]
  | case5 c d t hc ih =>
    rw [splitFrom_double_other hc, ih]
    simp

lemma splitFrom_line (current t : Text) :
    splitFrom .lineComment current t = splitFrom .plain (current ++ (endLine t).1) (endLine t).2 := by
  induction t generalizing current with
  | nil => rw [splitFrom_nil, endLine, List.append_nil, splitFrom_nil]
  | cons c t ih =>
    rw [splitFrom, endLine]
    split
    · rfl
    · rw [ih]
      simp

lemma splitFrom_block (current t : Text) :
    splitFrom .blockComment current t = splitFrom .plain (current ++ (endBlock t).1) (endBlock t).2 := by
  fun_induction endBlock t generalizing current with
  | case1 => rw [splitFrom_nil, splitFrom_nil, List.append_nil]
  | case2 t => rw [splitFrom]
  | case3 c t h ih =>
    rw [splitFrom_block_other (fun t' hc ht => h t' hc ht), ih]
    simp

/-- The statements of lexemes, with what was collected before. -/
def statementsFrom (current : Text) : List SqlLexeme → List Text
  | [] => statement current
  | l :: ls =>
    if l = .code ';' then statement current ++ statementsFrom [] ls else statementsFrom (current ++ l.text) ls

lemma splitFrom_eq_statementsFrom (current t : Text) :
    splitFrom .plain current t = statementsFrom current (lexemes t) := by
  fun_induction lexemes t generalizing current with
  | case1 => rfl
  | case2 t ih => rw [splitFrom, splitFrom_single, ih, statementsFrom, if_neg (by simp)]; simp [SqlLexeme.text]
  | case3 t ih => rw [splitFrom, splitFrom_double, ih, statementsFrom, if_neg (by simp)]; simp [SqlLexeme.text]
  | case4 t ih => rw [splitFrom, splitFrom_line, ih, statementsFrom, if_neg (by simp)]; simp [SqlLexeme.text]
  | case5 t ih => rw [splitFrom, splitFrom_block, ih, statementsFrom, if_neg (by simp)]; simp [SqlLexeme.text]
  | case6 c t hquote hdouble hline hblock ih =>
    by_cases hend : c = ';'
    · subst hend
      rw [splitFrom, ih, statementsFrom, if_pos rfl]
    · rw [splitFrom_plain hquote hdouble hend hline hblock, ih, statementsFrom, if_neg (by simpa using hend)]
      rfl

/-- The statements are those of the parts between the separators of the code. -/
lemma statementsFrom_eq (current : Text) (ls : List SqlLexeme) :
    statementsFrom current ls =
      (((ls.splitOn (.code ';')).map (fun part => part.flatMap SqlLexeme.text)).modifyHead
        (current ++ ·)).flatMap statement := by
  induction ls generalizing current with
  | nil => simp [statementsFrom, List.splitOn_eq_splitOnP]
  | cons l ls ih =>
    rw [statementsFrom, List.splitOn_cons_eq_if_modifyHead]
    by_cases h : l = .code ';'
    · have hempty : (ls.splitOn (.code ';')).map (fun part => part.flatMap SqlLexeme.text) =
          ((ls.splitOn (.code ';')).map (fun part => part.flatMap SqlLexeme.text)).modifyHead ([] ++ ·) := by
        cases ls.splitOn (.code ';') <;> simp
      rw [if_pos h, if_pos (by simpa using h), ih, ← hempty]
      simp
    · rw [if_neg h, if_neg (by simpa using h), ih]
      cases ls.splitOn (.code ';') <;> simp

/-! ### The conversion reads the lexemes -/

/-- The conversion leaves every lexeme as it is but a question mark of the code. -/
def convertLexeme (l : SqlLexeme) : List SqlLexeme :=
  if l = .code '?' then [.code '%', .code 's'] else [l]

lemma convertFrom_nil (scan : Scan) : convertFrom scan [] = [] := by
  cases scan <;> rfl

lemma convertFrom_plain {c : Char} {t : Text} (hquote : c ≠ '\'') (hdouble : c ≠ '"') (hmark : c ≠ '?')
    (hline : ∀ t', c = '-' → t ≠ '-' :: t') (hblock : ∀ t', c = '/' → t ≠ '*' :: t') :
    convertFrom .plain (c :: t) = c :: convertFrom .plain t := by
  rw [convertFrom]
  · rintro t' rfl rfl
    exact hline t' rfl rfl
  · rintro t' rfl rfl
    exact hblock t' rfl rfl
  · exact hquote
  · exact hdouble
  · exact hmark

lemma convertFrom_single_close {t : Text} (h : ∀ t', t ≠ '\'' :: t') :
    convertFrom .single ('\'' :: t) = '\'' :: convertFrom .plain t := by
  rw [convertFrom]
  rintro t' rfl
  exact h t' rfl

lemma convertFrom_single_other {c : Char} (h : c ≠ '\'') (t : Text) :
    convertFrom .single (c :: t) = c :: convertFrom .single t := by
  rw [convertFrom]
  · rintro t' rfl
    exact absurd rfl h
  · exact h

lemma convertFrom_double_close (t : Text) : convertFrom .double ('"' :: t) = '"' :: convertFrom .plain t := by
  rw [convertFrom]

lemma convertFrom_double_other {c : Char} (h : c ≠ '"') (t : Text) :
    convertFrom .double (c :: t) = c :: convertFrom .double t := by
  rw [convertFrom]
  exact h

lemma convertFrom_block_other {c : Char} {t : Text} (h : ∀ t', c = '*' → t ≠ '/' :: t') :
    convertFrom .blockComment (c :: t) = c :: convertFrom .blockComment t := by
  rw [convertFrom]
  rintro t' rfl rfl
  exact h t' rfl rfl

/-- The first character is that of the script, or a percent sign. -/
lemma convertFrom_ne_cons {c : Char} (hc : c ≠ '%') {scan : Scan} {t : Text} (h : ∀ t', t ≠ c :: t') :
    ∀ t', convertFrom scan t ≠ c :: t' := by
  intro t'
  fun_induction convertFrom scan t <;> simp_all [Ne.symm hc]

lemma endQuoted_close {quote : Char} {t : Text} (h : ∀ t', t ≠ quote :: t') :
    endQuoted quote (quote :: t) = ([quote], t) := by
  cases t with
  | nil => rfl
  | cons d t =>
    rw [endQuoted, if_pos rfl, if_neg]
    rintro rfl
    exact h t rfl

lemma endQuoted_doubled (quote : Char) (t : Text) :
    endQuoted quote (quote :: quote :: t) = (quote :: quote :: (endQuoted quote t).1, (endQuoted quote t).2) := by
  rw [endQuoted, if_pos rfl, if_pos rfl]

lemma endQuoted_other {quote c : Char} (h : c ≠ quote) (t : Text) :
    endQuoted quote (c :: t) = (c :: (endQuoted quote t).1, (endQuoted quote t).2) := by
  cases t with
  | nil => rfl
  | cons d t => rw [endQuoted, if_neg h]

lemma endBlock_other {c : Char} {t : Text} (h : ∀ t', c = '*' → t ≠ '/' :: t') :
    endBlock (c :: t) = (c :: (endBlock t).1, (endBlock t).2) := by
  rw [endBlock]
  rintro t' rfl rfl
  exact h t' rfl rfl

/-- A literal ends where it did before the conversion. -/
lemma endQuoted_convert_single (t : Text) :
    endQuoted '\'' (convertFrom .single t) =
      ((endQuoted '\'' t).1, convertFrom .plain (endQuoted '\'' t).2) := by
  fun_induction endQuoted '\'' t with
  | case1 => rfl
  | case2 c =>
    by_cases h : c = '\''
    · rw [h, convertFrom_single_close (by simp), convertFrom_nil]
      rfl
    · rw [convertFrom_single_other h, convertFrom_nil, endQuoted_other h]
      rfl
  | case3 t ih => rw [convertFrom, endQuoted_doubled, ih]
  | case4 d t hd =>
    have hne : ∀ t', d :: t ≠ '\'' :: t' := fun t' heq => hd (List.cons.inj heq).1
    rw [convertFrom_single_close hne, endQuoted_close (convertFrom_ne_cons (by decide) hne)]
  | case5 c d t hc ih => rw [convertFrom_single_other hc, endQuoted_other hc, ih]

lemma endQuoted_convert_double (t : Text) :
    endQuoted '"' (convertFrom .double t) = ((endQuoted '"' t).1, convertFrom .plain (endQuoted '"' t).2) := by
  fun_induction endQuoted '"' t with
  | case1 => rfl
  | case2 c =>
    by_cases h : c = '"'
    · rw [h, convertFrom_double_close, convertFrom_nil]
      rfl
    · rw [convertFrom_double_other h, convertFrom_nil, endQuoted_other h]
      rfl
  | case3 t ih => rw [convertFrom_double_close, convertFrom, endQuoted_doubled, ih]
  | case4 d t hd =>
    have hne : ∀ t', d :: t ≠ '"' :: t' := fun t' heq => hd (List.cons.inj heq).1
    rw [convertFrom_double_close, endQuoted_close (convertFrom_ne_cons (by decide) hne)]
  | case5 c d t hc ih => rw [convertFrom_double_other hc, endQuoted_other hc, ih]

lemma endLine_convert (t : Text) :
    endLine (convertFrom .lineComment t) = ((endLine t).1, convertFrom .plain (endLine t).2) := by
  induction t with
  | nil => rfl
  | cons c t ih =>
    rw [convertFrom, endLine, endLine]
    split
    · rfl
    · rw [ih]

lemma endBlock_convert (t : Text) :
    endBlock (convertFrom .blockComment t) = ((endBlock t).1, convertFrom .plain (endBlock t).2) := by
  fun_induction endBlock t with
  | case1 => rfl
  | case2 t => rw [convertFrom, endBlock]
  | case3 c t h ih =>
    have hne : ∀ t', c = '*' → t ≠ '/' :: t' := fun t' hc ht => h t' hc ht
    rw [convertFrom_block_other hne, endBlock_other (fun t' hc => convertFrom_ne_cons (by decide)
      (fun t'' ht => hne t'' hc ht) t'), ih]

lemma lexemes_code {c : Char} {t : Text} (hquote : c ≠ '\'') (hdouble : c ≠ '"')
    (hline : ∀ t', c = '-' → t ≠ '-' :: t') (hblock : ∀ t', c = '/' → t ≠ '*' :: t') :
    lexemes (c :: t) = .code c :: lexemes t := by
  rw [lexemes]
  · exact hquote
  · exact hdouble
  · rintro t' rfl rfl
    exact hline t' rfl rfl
  · rintro t' rfl rfl
    exact hblock t' rfl rfl

/-- The lexemes of the script that is converted are the lexemes, converted. -/
lemma lexemes_convertFrom (t : Text) :
    lexemes (convertFrom .plain t) = (lexemes t).flatMap convertLexeme := by
  fun_induction lexemes t with
  | case1 => simp [convertFrom_nil, lexemes]
  | case2 t ih =>
    rw [convertFrom, lexemes, endQuoted_convert_single, ih]
    rfl
  | case3 t ih =>
    rw [convertFrom, lexemes, endQuoted_convert_double, ih]
    rfl
  | case4 t ih =>
    rw [convertFrom, lexemes, endLine_convert, ih]
    rfl
  | case5 t ih =>
    rw [convertFrom, lexemes, endBlock_convert, ih]
    rfl
  | case6 c t hquote hdouble hline hblock ih =>
    by_cases hmark : c = '?'
    · subst hmark
      rw [convertFrom, lexemes_code (by decide) (by decide) (by simp) (by simp),
        lexemes_code (by decide) (by decide) (by simp) (by simp), ih]
      rfl
    · rw [convertFrom_plain hquote hdouble hmark hline hblock,
        lexemes_code hquote hdouble
          (fun t' hc => convertFrom_ne_cons (by decide) (fun t'' ht => hline t'' hc ht) t')
          (fun t' hc => convertFrom_ne_cons (by decide) (fun t'' ht => hblock t'' hc ht) t'), ih,
        List.flatMap_cons, convertLexeme, if_neg (by simpa using hmark), List.singleton_append]

lemma ne_cons_of_initial {c : Char} {y t : Text} (hy : y <+: t) (h : ∀ t', t ≠ c :: t') :
    ∀ t', y ≠ c :: t' := by
  rintro t' rfl
  obtain ⟨rest, rfl⟩ := hy
  exact h (t' ++ rest) rfl

lemma convertFrom_single_initial {t y : Text} (hy : y <+: (endQuoted '\'' t).2) :
    convertFrom .single ((endQuoted '\'' t).1 ++ y) = (endQuoted '\'' t).1 ++ convertFrom .plain y := by
  fun_induction endQuoted '\'' t generalizing y with
  | case1 => rw [List.prefix_nil.mp hy, List.append_nil, convertFrom_nil, convertFrom_nil, List.append_nil]
  | case2 c =>
    rw [List.prefix_nil.mp hy, List.append_nil, convertFrom_nil]
    by_cases h : c = '\''
    · rw [h, convertFrom_single_close (by simp), convertFrom_nil]
      rfl
    · rw [convertFrom_single_other h, convertFrom_nil]
      rfl
  | case3 t ih => rw [List.cons_append, List.cons_append, convertFrom, ih hy]; rfl
  | case4 d t hd =>
    have hne : ∀ t', d :: t ≠ '\'' :: t' := fun t' heq => hd (List.cons.inj heq).1
    exact convertFrom_single_close (ne_cons_of_initial hy hne)
  | case5 c d t hc ih => rw [List.cons_append, convertFrom_single_other hc, ih hy]; rfl

lemma convertFrom_double_initial {t y : Text} (hy : y <+: (endQuoted '"' t).2) :
    convertFrom .double ((endQuoted '"' t).1 ++ y) = (endQuoted '"' t).1 ++ convertFrom .plain y := by
  fun_induction endQuoted '"' t generalizing y with
  | case1 => rw [List.prefix_nil.mp hy, List.append_nil, convertFrom_nil, convertFrom_nil, List.append_nil]
  | case2 c =>
    rw [List.prefix_nil.mp hy, List.append_nil, convertFrom_nil]
    by_cases h : c = '"'
    · rw [h, convertFrom_double_close, convertFrom_nil]
      rfl
    · rw [convertFrom_double_other h, convertFrom_nil]
      rfl
  | case3 t ih => rw [List.cons_append, List.cons_append, convertFrom_double_close, convertFrom, ih hy]; rfl
  | case4 d t hd => exact convertFrom_double_close y
  | case5 c d t hc ih => rw [List.cons_append, convertFrom_double_other hc, ih hy]; rfl

lemma convertFrom_line_initial {t y : Text} (hy : y <+: (endLine t).2) :
    convertFrom .lineComment ((endLine t).1 ++ y) = (endLine t).1 ++ convertFrom .plain y := by
  induction t with
  | nil =>
    rw [endLine] at hy
    rw [List.prefix_nil.mp hy, endLine, List.append_nil, convertFrom_nil, convertFrom_nil, List.append_nil]
  | cons c t ih =>
    rw [endLine] at hy ⊢
    by_cases h : c = '\n'
    · rw [if_pos h, List.singleton_append, convertFrom, if_pos h]
      rfl
    · rw [if_neg h] at hy ⊢
      rw [List.cons_append, convertFrom, if_neg h, ih hy]
      rfl

lemma convertFrom_block_initial {t y : Text} (hy : y <+: (endBlock t).2) :
    convertFrom .blockComment ((endBlock t).1 ++ y) = (endBlock t).1 ++ convertFrom .plain y := by
  fun_induction endBlock t generalizing y with
  | case1 => rw [List.prefix_nil.mp hy, List.append_nil, convertFrom_nil, convertFrom_nil, List.append_nil]
  | case2 t => rw [List.cons_append, List.cons_append, convertFrom]; rfl
  | case3 c t h ih =>
    have hne : ∀ t', c = '*' → (endBlock t).1 ++ y ≠ '/' :: t' := by
      rintro t' hc
      obtain ⟨rest, hrest⟩ := hy
      apply ne_cons_of_initial _ (fun t'' ht => h t'' hc ht)
      exact ⟨rest, by rw [List.append_assoc, hrest, endBlock_append]⟩
    rw [List.cons_append, convertFrom_block_other hne, ih hy]
    rfl

lemma text_initial {t : Text} {part rest : List SqlLexeme} (h : lexemes t = part ++ rest) :
    part.flatMap SqlLexeme.text <+: t :=
  ⟨rest.flatMap SqlLexeme.text, by rw [← List.flatMap_append, ← h, flatMap_lexemes]⟩

/-- The first lexemes of a script are converted as they are by themselves. -/
lemma convertFrom_first_lexemes {t : Text} {part rest : List SqlLexeme} (h : lexemes t = part ++ rest) :
    convertFrom .plain (part.flatMap SqlLexeme.text) =
      (part.flatMap convertLexeme).flatMap SqlLexeme.text := by
  fun_induction lexemes t generalizing part with
  | case1 =>
    rw [(List.append_eq_nil_iff.mp h.symm).1]
    exact convertFrom_nil _
  | case2 t ih =>
    cases part with
    | nil => exact convertFrom_nil _
    | cons l part =>
      rw [List.cons_append, List.cons.injEq] at h
      have hinitial := text_initial h.2
      rw [← h.1, List.flatMap_cons, SqlLexeme.text, List.cons_append, convertFrom,
        convertFrom_single_initial hinitial, ih h.2]
      rfl
  | case3 t ih =>
    cases part with
    | nil => exact convertFrom_nil _
    | cons l part =>
      rw [List.cons_append, List.cons.injEq] at h
      have hinitial := text_initial h.2
      rw [← h.1, List.flatMap_cons, SqlLexeme.text, List.cons_append, convertFrom,
        convertFrom_double_initial hinitial, ih h.2]
      rfl
  | case4 t ih =>
    cases part with
    | nil => exact convertFrom_nil _
    | cons l part =>
      rw [List.cons_append, List.cons.injEq] at h
      have hinitial := text_initial h.2
      rw [← h.1, List.flatMap_cons, SqlLexeme.text, List.cons_append, List.cons_append, convertFrom,
        convertFrom_line_initial hinitial, ih h.2]
      rfl
  | case5 t ih =>
    cases part with
    | nil => exact convertFrom_nil _
    | cons l part =>
      rw [List.cons_append, List.cons.injEq] at h
      have hinitial := text_initial h.2
      rw [← h.1, List.flatMap_cons, SqlLexeme.text, List.cons_append, List.cons_append, convertFrom,
        convertFrom_block_initial hinitial, ih h.2]
      rfl
  | case6 c t hquote hdouble hline hblock ih =>
    cases part with
    | nil => exact convertFrom_nil _
    | cons l part =>
      rw [List.cons_append, List.cons.injEq] at h
      have hinitial := text_initial h.2
      rw [← h.1, List.flatMap_cons, SqlLexeme.text, List.singleton_append]
      by_cases hmark : c = '?'
      · rw [hmark, convertFrom, ih h.2]
        rfl
      · rw [convertFrom_plain hquote hdouble hmark
          (fun t' hc => ne_cons_of_initial hinitial (fun t'' ht => hline t'' hc ht) t')
          (fun t' hc => ne_cons_of_initial hinitial (fun t'' ht => hblock t'' hc ht) t'), ih h.2,
          List.flatMap_cons, convertLexeme, if_neg (by simpa using hmark)]
        rfl

lemma convertFrom_spaces {b : Text} (hb : ∀ c ∈ b, pyIsSpace c = true) (scan : Scan) :
    convertFrom scan b = b := by
  apply convertFrom_of_not_mem
  intro hmark
  have hspace := hb '?' hmark
  revert hspace
  decide

lemma ne_cons_append_spaces {b t : Text} (hb : ∀ c ∈ b, pyIsSpace c = true) {c : Char}
    (hc : pyIsSpace c = false) (h : ∀ t', t ≠ c :: t') : ∀ t', t ++ b ≠ c :: t' := by
  intro t' heq
  cases t with
  | nil =>
    have hspace := hb c (by rw [← List.nil_append b, heq]; exact List.mem_cons_self)
    rw [hc] at hspace
    cases hspace
  | cons d t => exact h t (by rw [(List.cons.inj heq).1])

lemma convertFrom_append_spaces {b : Text} (hb : ∀ c ∈ b, pyIsSpace c = true) (scan : Scan) (t : Text) :
    convertFrom scan (t ++ b) = convertFrom scan t ++ b := by
  fun_induction convertFrom scan t with
  | case1 => rw [List.nil_append, convertFrom_spaces hb]
  | case2 c t ih => rw [List.cons_append, convertFrom, ih]; rfl
  | case3 t ih => rw [List.cons_append, List.cons_append, convertFrom, ih]; rfl
  | case4 c t h ih =>
    rw [List.cons_append, convertFrom_block_other (fun t' hc =>
      ne_cons_append_spaces hb (by decide) (fun t'' ht => h t'' hc ht) t'), ih]
    rfl
  | case5 t ih => rw [List.cons_append, List.cons_append, convertFrom, ih]; rfl
  | case6 t ih => rw [List.cons_append, List.cons_append, convertFrom, ih]; rfl
  | case7 t ih => rw [List.cons_append, convertFrom, ih]; rfl
  | case8 t ih => rw [List.cons_append, convertFrom, ih]; rfl
  | case9 t ih => rw [List.cons_append, convertFrom, ih]; rfl
  | case10 c t hline hblock hquote hdouble hmark ih =>
    rw [List.cons_append, convertFrom_plain hquote hdouble hmark
      (fun t' hc => ne_cons_append_spaces hb (by decide) (fun t'' ht => hline t'' hc ht) t')
      (fun t' hc => ne_cons_append_spaces hb (by decide) (fun t'' ht => hblock t'' hc ht) t'), ih]
    rfl
  | case11 t ih => rw [List.cons_append, List.cons_append, convertFrom, ih]; rfl
  | case12 t h ih =>
    rw [List.cons_append, convertFrom_single_close (ne_cons_append_spaces hb (by decide) h), ih]
    rfl
  | case13 c t hpair hquote ih => rw [List.cons_append, convertFrom_single_other hquote, ih]; rfl
  | case14 t ih => rw [List.cons_append, convertFrom_double_close, ih]; rfl
  | case15 c t h ih => rw [List.cons_append, convertFrom_double_other h, ih]; rfl

lemma convertFrom_spaces_append {a : Text} (ha : ∀ c ∈ a, pyIsSpace c = true) (t : Text) :
    convertFrom .plain (a ++ t) = a ++ convertFrom .plain t := by
  induction a with
  | nil => rfl
  | cons c a ih =>
    have hc := ha c List.mem_cons_self
    have hne : ∀ d, pyIsSpace d = false → c ≠ d := by
      rintro d hd rfl
      rw [hd] at hc
      cases hc
    rw [List.cons_append, convertFrom_plain (hne _ (by decide)) (hne _ (by decide)) (hne _ (by decide))
      (fun t' heq => absurd heq (hne _ (by decide))) (fun t' heq => absurd heq (hne _ (by decide))),
      ih (fun d hd => ha d (List.mem_cons_of_mem c hd))]
    rfl

lemma stripped_written {pieces : List Piece} (h : Stripped (pieces.map Piece.spelled)) :
    Stripped (pieces.flatMap Piece.written) := by
  constructor
  · intro c hc
    cases pieces with
    | nil => cases hc
    | cons p pieces =>
      cases p with
      | char d => exact h.1 c hc
      | place =>
        cases hc
        rfl
  · intro c hc
    rcases List.eq_nil_or_concat pieces with rfl | ⟨init, p, rfl⟩
    · cases hc
    · rw [List.concat_eq_append] at h hc
      cases p with
      | char d =>
        apply h.2 c
        simpa [Piece.written, Piece.spelled] using hc
      | place =>
        obtain rfl : c = 's' := by simpa [Piece.written, eq_comm] using hc
        rfl

lemma pyStrip_convertFrom (t : Text) : pyStrip (convertFrom .plain t) = convertFrom .plain (pyStrip t) := by
  obtain ⟨a, b, ht, ha, hb⟩ := exists_spaces t
  have hstripped : Stripped (convertFrom .plain (pyStrip t)) := by
    rw [convertFrom_eq]
    apply stripped_written
    rw [spelled_scanFrom]
    exact stripped_pyStrip t
  conv_lhs => rw [ht]
  rw [convertFrom_append_spaces hb, convertFrom_spaces_append ha, pyStrip_append_spaces ha hb,
    pyStrip_of_stripped hstripped]

lemma convertFrom_eq_nil {t : Text} : convertFrom .plain t = [] ↔ t = [] := by
  constructor
  · intro h
    cases t with
    | nil => rfl
    | cons c t =>
      rw [convertFrom_eq, List.flatMap_eq_nil_iff] at h
      have hspelled := spelled_scanFrom .plain (c :: t)
      cases hpieces : scanFrom .plain (c :: t) with
      | nil =>
        rw [hpieces] at hspelled
        cases hspelled
      | cons p pieces =>
        have hp := h p (by rw [hpieces]; exact List.mem_cons_self)
        cases p <;> cases hp
  · rintro rfl
    exact convertFrom_nil _

lemma statement_convertFrom (t : Text) :
    statement (convertFrom .plain t) = (statement t).map (convertFrom .plain) := by
  unfold statement
  rw [pyStrip_convertFrom]
  by_cases h : pyStrip t = []
  · rw [if_pos h, if_pos (convertFrom_eq_nil.mpr h)]
    rfl
  · rw [if_neg h, if_neg (fun heq => h (convertFrom_eq_nil.mp heq))]
    rfl

lemma splitSqlScript_eq (script : Text) :
    splitSqlScript script =
      (((lexemes script).splitOn (.code ';')).map (fun part => part.flatMap SqlLexeme.text)).flatMap
        statement := by
  unfold splitSqlScript
  rw [splitFrom_eq_statementsFrom, statementsFrom_eq]
  cases (lexemes script).splitOn (.code ';') <;> simp

lemma convertQmarkToPercent_eq_convertFrom (sql : Text) :
    convertQmarkToPercent sql = convertFrom .plain sql := by
  unfold convertQmarkToPercent
  split
  · rfl
  · next hno => exact (convertFrom_of_not_mem hno .plain).symm

/-- The conversion makes no separator and takes none away. -/
lemma splitOn_convertLexeme (ls : List SqlLexeme) :
    (ls.flatMap convertLexeme).splitOn (.code ';') =
      (ls.splitOn (.code ';')).map (fun part => part.flatMap convertLexeme) := by
  induction ls with
  | nil => simp [List.splitOn_eq_splitOnP]
  | cons l ls ih =>
    rw [List.flatMap_cons, List.splitOn_cons_eq_if_modifyHead]
    by_cases hend : l = .code ';'
    · subst hend
      rw [if_pos (by simp)]
      have hsame : convertLexeme (.code ';') = [.code ';'] := rfl
      rw [hsame, List.singleton_append, List.splitOn_cons_eq_if_modifyHead, if_pos (by simp), ih]
      rfl
    · rw [if_neg (by simpa using hend)]
      have hother : ((convertLexeme l ++ ls.flatMap convertLexeme).splitOn (.code ';')) =
          ((ls.flatMap convertLexeme).splitOn (.code ';')).modifyHead (convertLexeme l ++ ·) := by
        generalize ls.flatMap convertLexeme = rest
        unfold convertLexeme
        split
        · simp [List.splitOn_cons_eq_if_modifyHead, Function.comp_def]
        · simp [List.splitOn_cons_eq_if_modifyHead, hend]
      rw [hother, ih]
      cases ls.splitOn (.code ';') <;> simp

/-- The first part is what stands before the first separator. -/
lemma splitOn_head_initial {ls first : List SqlLexeme} {parts : List (List SqlLexeme)}
    (h : ls.splitOn (.code ';') = first :: parts) : ∃ after, ls = first ++ after := by
  have hjoin : [SqlLexeme.code ';'].intercalate (ls.splitOn (.code ';')) = ls := List.intercalate_splitOn _
  rw [h] at hjoin
  cases parts with
  | nil => exact ⟨[], by rw [← hjoin]; simp⟩
  | cons second parts =>
    exact ⟨.code ';' :: [.code ';'].intercalate (second :: parts),
      by rw [← hjoin, List.intercalate_cons_cons]; simp⟩

lemma infix_of_mem_splitOn {ls part : List SqlLexeme} (h : part ∈ ls.splitOn (.code ';')) :
    ∃ before after, ls = before ++ (part ++ after) := by
  induction ls generalizing part with
  | nil => exact ⟨[], [], by simpa [List.splitOn_eq_splitOnP, eq_comm] using h⟩
  | cons l ls ih =>
    rw [List.splitOn_cons_eq_if_modifyHead] at h
    split at h
    · obtain rfl | hrest := List.mem_cons.mp h
      · exact ⟨[], l :: ls, rfl⟩
      · obtain ⟨before, after, hls⟩ := ih hrest
        exact ⟨l :: before, after, by rw [hls, List.cons_append]⟩
    · cases hparts : ls.splitOn (.code ';') with
      | nil => exact absurd hparts (List.splitOn_ne_nil _ _)
      | cons first parts =>
        rw [hparts, List.modifyHead_cons] at h
        rw [hparts] at ih
        obtain rfl | hrest := List.mem_cons.mp h
        · obtain ⟨after, hls⟩ := splitOn_head_initial hparts
          exact ⟨[], after, by rw [hls]; rfl⟩
        · obtain ⟨before, after, hls⟩ := ih (List.mem_cons_of_mem _ hrest)
          exact ⟨l :: before, after, by rw [hls, List.cons_append]⟩

/-- The rest of the lexemes are those of the rest of the script. -/
lemma exists_lexemes_suffix {t : Text} {before rest : List SqlLexeme} (h : lexemes t = before ++ rest) :
    ∃ t', lexemes t' = rest := by
  induction before generalizing t with
  | nil => exact ⟨t, h⟩
  | cons l before ih =>
    have htail : ∃ t', lexemes t' = before ++ rest := by
      fun_induction lexemes t with
      | case1 => cases h
      | case2 t => exact ⟨_, (List.cons.inj h).2⟩
      | case3 t => exact ⟨_, (List.cons.inj h).2⟩
      | case4 t => exact ⟨_, (List.cons.inj h).2⟩
      | case5 t => exact ⟨_, (List.cons.inj h).2⟩
      | case6 c t => exact ⟨_, (List.cons.inj h).2⟩
    obtain ⟨t', ht'⟩ := htail
    exact ih ht'

/-- Every part of a script is converted as it is by itself. -/
lemma convertFrom_of_mem_splitOn {t : Text} {part : List SqlLexeme}
    (h : part ∈ (lexemes t).splitOn (.code ';')) :
    convertFrom .plain (part.flatMap SqlLexeme.text) =
      (part.flatMap convertLexeme).flatMap SqlLexeme.text := by
  obtain ⟨before, after, hls⟩ := infix_of_mem_splitOn h
  obtain ⟨t', ht'⟩ := exists_lexemes_suffix hls
  exact convertFrom_first_lexemes ht'

/-- The parts of a script: between them stand separators of the code and nothing else, and the statements
are the parts without the white space around them, but for those that are empty then. -/
structure CutAtSeparators (script : Text) (statements : List Text) (parts : List (List SqlLexeme)) : Prop where
  lexemes_eq : [.code ';'].intercalate parts = lexemes script
  text_eq : (lexemes script).flatMap SqlLexeme.text = script
  separators : ∀ part ∈ parts, .code ';' ∉ part
  statements_eq : statements =
    (parts.map (fun part => pyStrip (part.flatMap SqlLexeme.text))).filter (· ≠ [])

lemma flatMap_statement (texts : List Text) :
    texts.flatMap statement = (texts.map pyStrip).filter (· ≠ []) := by
  induction texts with
  | nil => rfl
  | cons t texts ih =>
    rw [List.flatMap_cons, ih, List.map_cons, statement]
    by_cases h : pyStrip t = []
    · rw [if_pos h, List.filter_cons_of_neg (by simpa using h)]
      rfl
    · rw [if_neg h, List.filter_cons_of_pos (by simpa using h)]
      rfl

lemma not_mem_of_mem_splitOn {ls part : List SqlLexeme} (h : part ∈ ls.splitOn (.code ';')) :
    .code ';' ∉ part := by
  induction ls generalizing part with
  | nil =>
    obtain rfl : part = [] := by simpa [List.splitOn_eq_splitOnP] using h
    exact List.not_mem_nil
  | cons l ls ih =>
    rw [List.splitOn_cons_eq_if_modifyHead] at h
    split at h
    · obtain rfl | hrest := List.mem_cons.mp h
      · exact List.not_mem_nil
      · exact ih hrest
    · next hne =>
      cases hparts : ls.splitOn (.code ';') with
      | nil => exact absurd hparts (List.splitOn_ne_nil _ _)
      | cons first parts =>
        rw [hparts, List.modifyHead_cons] at h
        rw [hparts] at ih
        obtain rfl | hrest := List.mem_cons.mp h
        · rw [List.mem_cons, not_or]
          exact ⟨fun heq => hne (by simp [heq]), ih List.mem_cons_self⟩
        · exact ih (List.mem_cons_of_mem _ hrest)

/-- Splitting and converting commute; the script is cut at the separators of its code and nowhere else, and
nothing but them and white space around the statements is lost. -/
theorem split_converted_script (script : Text) :
    splitSqlScript (convertQmarkToPercent script) = (splitSqlScript script).map convertQmarkToPercent ∧
      ∃ parts, CutAtSeparators script (splitSqlScript script) parts := by
  constructor
  · have hconvert : convertQmarkToPercent = convertFrom .plain := by
      funext sql
      exact convertQmarkToPercent_eq_convertFrom sql
    rw [hconvert, splitSqlScript_eq, splitSqlScript_eq, lexemes_convertFrom, splitOn_convertLexeme,
      List.map_flatMap, List.map_map, List.flatMap_map, List.flatMap_map]
    apply List.flatMap_congr
    intro part hpart
    rw [← statement_convertFrom, convertFrom_of_mem_splitOn hpart]
    rfl
  · refine ⟨(lexemes script).splitOn (.code ';'), List.intercalate_splitOn _, flatMap_lexemes script,
      fun part hpart => not_mem_of_mem_splitOn hpart, ?_⟩
    rw [splitSqlScript_eq, flatMap_statement, List.map_map]
    rfl

end IpDocket.Billing
