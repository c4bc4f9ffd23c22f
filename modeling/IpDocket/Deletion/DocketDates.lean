import Mathlib.Data.List.TakeWhile
import IpDocket.Deletion.Schema

/-!
# Date texts of dockets and annuities

The date columns of `docket_item` and `annuity_item` are texts, which the models normalise when
they are assigned: `normalize_date_str` looks for a date in the text and writes it in the ISO
form, or gives `None`. The column `done_date` may also say that the deadline was cancelled or
has expired by itself, with a date. The record of a text without a date is left out here.

An ISO date is not changed, and nothing else is a fixed point.
-/

namespace IpDocket.Deletion
open IpDocket.Lib

/-- `t.strip(chars)`. -/
def stripChars (chars : List Char) (t : Text) : Text :=
  ((t.dropWhile (· ∈ chars)).reverse.dropWhile (· ∈ chars)).reverse

def brackets : List Char := ['[', ']', '(', ')', '\x7b', '\x7d', '<', '>']

def nullishDateTokens : List Text := ["null".toList, "none".toList, "nil".toList, "nan".toList]

section Search

variable (T : UnicodeTables)

/-- A separator and a group of one or two digits. -/
def dateGroup : Text → Option (Text × Text)
  | c :: t =>
    let (ds, rest) := t.span (isDecimalDigit T)
    if (c = '-' ∨ c = '.' ∨ c = '/') ∧ 1 ≤ ds.length ∧ ds.length ≤ 2 then some (ds, rest) else none
  | [] => none

/-- The date pattern at the start of a text that does not follow a digit. -/
def matchDate (t : Text) : Option (Text × Text × Text) :=
  let (year, rest) := t.span (isDecimalDigit T)
  if year.length = 4 then
    (dateGroup T rest).bind (fun (month, rest) =>
      (dateGroup T rest).map (fun (day, _) => (year, month, day)))
  else none

/-- `_DATE_RE.search`. -/
def searchDate (afterDigit : Bool) : Text → Option (Text × Text × Text)
  | [] => none
  | c :: t =>
    (if afterDigit then none else matchDate T (c :: t)).or (searchDate (isDecimalDigit T c) t)

/-- `normalize_date_str` of a text. -/
def normalizeDateText (t : Text) : Option Text :=
  let s := stripChars brackets (pyStrip t)
  if s = [] ∨ s.map asciiLower ∈ nullishDateTokens then none
  else
    let s := s.map (fun c => if c = '.' ∨ c = '/' then '-' else c)
    let token := pyStrip ((s.takeWhile (· ≠ 'T')).takeWhile (· ≠ ' '))
    ((searchDate T false token).or (searchDate T false s)).bind (fun (year, month, day) =>
      (PyDate.make (decimalValue T year) (decimalValue T month) (decimalValue T day)).map
        PyDate.isoformat)

end Search

variable {P : PyTypes}

def ofText : Option Text → Val P
  | none => .null
  | some t => .str t

/-- `normalize_date_str`; the datetimes of the columns are not assigned to a date text. -/
def normalizeDateStr (T : UnicodeTables) : Val P → Val P
  | .null => .null
  | .date d => .str d.isoformat
  | v => ofText (normalizeDateText T (pyStrVal v))

def autoCancelledPrefix : Text := "AUTO_CANCELLED".toList

def autoExpiredPrefix : Text := "AUTO_EXPIRED".toList

/-- The date after `AUTO_CANCELLED` or `AUTO_EXPIRED`, or that of today. -/
def autoDone (T : UnicodeTables) (today : PyDate) (pre s : Text) : Text :=
  let rest := pyStrip ((s.drop pre.length).dropWhile (· = ':'))
  pre ++ ':' :: (normalizeDateText T rest).getD today.isoformat

def normalizeDoneText (T : UnicodeTables) (today : PyDate) (t : Text) : Option Text :=
  let s := pyStrip t
  if s = [] then none
  else
    let upper := pyUpper T.toUpperTable s
    if autoCancelledPrefix.isPrefixOf upper then some (autoDone T today autoCancelledPrefix s)
    else if autoExpiredPrefix.isPrefixOf upper then some (autoDone T today autoExpiredPrefix s)
    else normalizeDateText T s

def normalizeDoneDate (T : UnicodeTables) (today : PyDate) : Val P → Val P
  | .null => .null
  | .date d => .str d.isoformat
  | v => ofText (normalizeDoneText T today (pyStrVal v))

/-- The tables have no digits in ASCII but the ten. -/
structure DateTables extends DigitTables where
  decimal_eq_none : ∀ c, c.toNat < 128 → c.isDigit = false → decimal c = none

section Iso

variable (T : DateTables)

lemma isDecimalDigit_of_isDigit {c : Char} (h : c.isDigit = true) :
    isDecimalDigit T.toUnicodeTables c = true := by
  unfold isDecimalDigit
  rw [T.decimal_of_isDigit c h]
  rfl

lemma isDecimalDigit_dash : isDecimalDigit T.toUnicodeTables '-' = false := by
  unfold isDecimalDigit
  rw [T.decimal_eq_none '-' (by decide) (by decide)]
  rfl

lemma span_of_all {p : Char → Bool} {ds : Text} (h : ∀ c ∈ ds, p c = true) {rest : Text}
    (hrest : ∀ c ∈ rest.head?, p c = false) : (ds ++ rest).span p = (ds, rest) := by
  have htake : rest.takeWhile p = [] ∧ rest.dropWhile p = rest := by
    cases rest with
    | nil => exact ⟨rfl, rfl⟩
    | cons c rest =>
      have hc := hrest c rfl
      rw [List.takeWhile_cons, List.dropWhile_cons, hc]
      exact ⟨rfl, rfl⟩
  rw [List.span_eq_takeWhile_dropWhile, List.takeWhile_append_of_pos h,
    List.dropWhile_append_of_pos h, htake.1, htake.2, List.append_nil]

lemma dateGroup_padLeft {n : Nat} (hn : n < 10 ^ 2) {rest : Text}
    (hrest : ∀ c ∈ rest.head?, isDecimalDigit T.toUnicodeTables c = false) :
    dateGroup T.toUnicodeTables ('-' :: (padLeft '0' 2 (pyDigits n) ++ rest)) =
      some (padLeft '0' 2 (pyDigits n), rest) := by
  have hlength := PyDate.length_padLeft_of_lt (by decide : 0 < 2) hn
  have hspan := span_of_all (p := isDecimalDigit T.toUnicodeTables)
    (fun c hc => isDecimalDigit_of_isDigit T (isDigit_padLeft_zero 2 n c hc)) hrest
  unfold dateGroup
  dsimp only
  rw [hspan]
  dsimp only
  rw [if_pos ⟨.inl rfl, by omega, by omega⟩]

lemma year_lt (d : PyDate) : d.year < 10 ^ 4 := by
  have h := d.year_range
  omega

lemma month_lt (d : PyDate) : d.month < 10 ^ 2 := by
  have h := d.month_range
  omega

lemma isoformat_eq (d : PyDate) :
    d.isoformat = padLeft '0' 4 (pyDigits d.year) ++
      ('-' :: (padLeft '0' 2 (pyDigits d.month) ++ ('-' :: padLeft '0' 2 (pyDigits d.day)))) := by
  unfold PyDate.isoformat
  rw [List.append_assoc, List.cons_append]

lemma matchDate_isoformat (d : PyDate) :
    matchDate T.toUnicodeTables d.isoformat = some (padLeft '0' 4 (pyDigits d.year),
      padLeft '0' 2 (pyDigits d.month), padLeft '0' 2 (pyDigits d.day)) := by
  have hdash : ∀ rest : Text, ∀ c ∈ ('-' :: rest).head?,
      isDecimalDigit T.toUnicodeTables c = false := by
    intro rest c hc
    rw [List.head?_cons, Option.mem_some_iff] at hc
    rw [← hc]
    exact isDecimalDigit_dash T
  have hspan := span_of_all (p := isDecimalDigit T.toUnicodeTables)
    (fun c hc => isDecimalDigit_of_isDigit T (isDigit_padLeft_zero 4 d.year c hc))
    (hdash (padLeft '0' 2 (pyDigits d.month) ++ ('-' :: padLeft '0' 2 (pyDigits d.day))))
  have hday : dateGroup T.toUnicodeTables ('-' :: padLeft '0' 2 (pyDigits d.day)) =
      some (padLeft '0' 2 (pyDigits d.day), []) := by
    have h : dateGroup T.toUnicodeTables ('-' :: (padLeft '0' 2 (pyDigits d.day) ++ [])) = _ :=
      dateGroup_padLeft T d.day_lt (by simp)
    rwa [List.append_nil] at h
  unfold matchDate
  rw [isoformat_eq, hspan]
  dsimp only
  rw [if_pos (PyDate.length_padLeft_of_lt (by decide) (year_lt d)),
    dateGroup_padLeft T (month_lt d) (hdash _), Option.bind_some]
  dsimp only
  rw [hday]
  rfl

lemma isoformat_chars (d : PyDate) : ∀ c ∈ d.isoformat, c.isDigit = true ∨ c = '-' := by
  intro c hc
  rw [isoformat_eq] at hc
  simp only [List.mem_append, List.mem_cons] at hc
  obtain h | h | h | h | h := hc
  · exact .inl (isDigit_padLeft_zero 4 d.year c h)
  · exact .inr h
  · exact .inl (isDigit_padLeft_zero 2 d.month c h)
  · exact .inr h
  · exact .inl (isDigit_padLeft_zero 2 d.day c h)

/-- The text of a date starts with a digit. -/
lemma isoformat_cons (d : PyDate) : ∃ c rest, d.isoformat = c :: rest ∧ c.isDigit = true := by
  have hlength := PyDate.length_padLeft_of_lt (by decide : 0 < 4) (year_lt d)
  cases hyear : padLeft '0' 4 (pyDigits d.year) with
  | nil =>
    rw [hyear] at hlength
    cases hlength
  | cons c ds =>
    refine ⟨c, _, by rw [isoformat_eq, hyear, List.cons_append], ?_⟩
    apply isDigit_padLeft_zero 4 d.year
    rw [hyear]
    exact List.mem_cons_self

/-- Nothing is stripped, lowered or replaced in the text of a date. -/
lemma isoformat_char_facts {c : Char} (h : c.isDigit = true ∨ c = '-') :
    pyIsSpace c = false ∧ c ∉ brackets ∧ asciiLower c = c ∧ c ≠ '.' ∧ c ≠ '/' ∧ c ≠ 'T' ∧
      c ≠ ' ' ∧ c ≠ ':' ∧ c.toNat < 97 := by
  obtain h | rfl := h
  · have hrange : 48 ≤ c.toNat ∧ c.toNat ≤ 57 := Char.isDigit_iff_toNat.mp h
    have hne : ∀ e : Char, e.isDigit = false → c ≠ e := by
      intro e he heq
      rw [heq, he] at h
      cases h
    refine ⟨isSpace_of_isDigit h, ?_, ?_, hne _ (by decide), hne _ (by decide), hne _ (by decide),
      hne _ (by decide), hne _ (by decide), by omega⟩
    · unfold brackets
      simp only [List.mem_cons, List.not_mem_nil, or_false, not_or]
      refine ⟨?_, ?_, ?_, ?_, ?_, ?_, ?_, ?_⟩ <;> exact hne _ (by decide)
    · unfold asciiLower
      rw [if_neg (by omega)]
  · decide

lemma stripChars_of_not_mem {chars : List Char} {t : Text} (h : ∀ c ∈ t, c ∉ chars) :
    stripChars chars t = t := by
  have hdrop : ∀ l : Text, (∀ c ∈ l, c ∉ chars) → l.dropWhile (· ∈ chars) = l := by
    intro l hl
    cases l with
    | nil => rfl
    | cons c l =>
      rw [List.dropWhile_cons_of_neg]
      simpa using hl c List.mem_cons_self
  unfold stripChars
  rw [hdrop t h, hdrop t.reverse (fun c hc => h c (List.mem_reverse.mp hc)), List.reverse_reverse]

lemma pyStrip_isoformat (d : PyDate) : pyStrip d.isoformat = d.isoformat :=
  pyStrip_of_stripped
    ⟨fun c hc => (isoformat_char_facts (isoformat_chars d c (List.mem_of_mem_head? hc))).1,
      fun c hc => (isoformat_char_facts (isoformat_chars d c (List.mem_of_mem_getLast? hc))).1⟩

lemma map_eq_self_of_fixed {f : Char → Char} {t : Text} (h : ∀ c ∈ t, f c = c) : t.map f = t := by
  rw [List.map_congr_left h, List.map_id'']
  exact fun _ => rfl

lemma decimalValue_padLeft {width n : Nat} :
    decimalValue T.toUnicodeTables (padLeft '0' width (pyDigits n)) = n := by
  rw [decimalValue_of_isDigit T.toDigitTables (isDigit_padLeft_zero width n),
    ofDigitChars_padLeft (.inl rfl)]

/-- An ISO date is normal. -/
theorem normalizeDateText_isoformat (d : PyDate) :
    normalizeDateText T.toUnicodeTables d.isoformat = some d.isoformat := by
  have hfacts := fun c hc => isoformat_char_facts (isoformat_chars d c hc)
  obtain ⟨c, rest, hcons, hdigit⟩ := isoformat_cons d
  have hstrip : stripChars brackets (pyStrip d.isoformat) = d.isoformat := by
    rw [pyStrip_isoformat, stripChars_of_not_mem (fun c hc => (hfacts c hc).2.1)]
  have hlower : d.isoformat.map asciiLower = d.isoformat :=
    map_eq_self_of_fixed (fun c hc => (hfacts c hc).2.2.1)
  have hreplace : d.isoformat.map (fun c => if c = '.' ∨ c = '/' then '-' else c) = d.isoformat := by
    apply map_eq_self_of_fixed
    intro c hc
    obtain ⟨_, _, _, hdot, hslash, _⟩ := hfacts c hc
    rw [if_neg (by simp [hdot, hslash])]
  have htoken : (d.isoformat.takeWhile (· ≠ 'T')).takeWhile (· ≠ ' ') = d.isoformat := by
    have htime : d.isoformat.takeWhile (· ≠ 'T') = d.isoformat :=
      List.takeWhile_eq_self_iff.mpr (fun c hc => by simpa using (hfacts c hc).2.2.2.2.2.1)
    rw [htime]
    exact List.takeWhile_eq_self_iff.mpr (fun c hc => by simpa using (hfacts c hc).2.2.2.2.2.2.1)
  have hword : ¬(d.isoformat = [] ∨ d.isoformat ∈ nullishDateTokens) := by
    rw [hcons]
    rintro (h | h)
    · cases h
    · unfold nullishDateTokens at h
      simp only [List.mem_cons, List.not_mem_nil, or_false] at h
      obtain h | h | h | h := h <;> · cases h; cases hdigit
  have hsearch : searchDate T.toUnicodeTables false d.isoformat =
      some (padLeft '0' 4 (pyDigits d.year), padLeft '0' 2 (pyDigits d.month),
        padLeft '0' 2 (pyDigits d.day)) := by
    have hmatch := matchDate_isoformat T d
    rw [hcons] at hmatch ⊢
    unfold searchDate
    rw [if_neg Bool.false_ne_true, hmatch, Option.some_or]
  unfold normalizeDateText
  simp only [hstrip, hlower]
  rw [if_neg hword, hreplace, htoken, pyStrip_isoformat, hsearch, Option.some_or, Option.bind_some]
  dsimp only
  rw [decimalValue_padLeft, decimalValue_padLeft, decimalValue_padLeft, PyDate.make_eq]
  rfl

/-- A normal date text: none at all, or an ISO date. -/
def IsoText (v : Val P) : Prop := v = .null ∨ ∃ d : PyDate, v = .str d.isoformat

omit T in
lemma isoformat_of_normalizeDateText {T : UnicodeTables} {t u : Text}
    (h : normalizeDateText T t = some u) : ∃ d : PyDate, u = d.isoformat := by
  unfold normalizeDateText at h
  dsimp only at h
  split at h
  · cases h
  · rw [Option.bind_eq_some_iff] at h
    obtain ⟨_, _, hmake⟩ := h
    obtain ⟨d, _, rfl⟩ := Option.map_eq_some_iff.mp hmake
    exact ⟨d, rfl⟩

lemma normalizeDateStr_eq_self_iff {v : Val P} (hv : ColumnType.text.Holds v) :
    normalizeDateStr T.toUnicodeTables v = v ↔ IsoText v := by
  cases v with
  | null => exact ⟨fun _ => .inl rfl, fun _ => rfl⟩
  | str t =>
    change ofText (normalizeDateText T.toUnicodeTables t) = .str t ↔ _
    constructor
    · intro h
      cases hnorm : normalizeDateText T.toUnicodeTables t with
      | none =>
        rw [hnorm] at h
        cases h
      | some u =>
        rw [hnorm] at h
        obtain ⟨d, rfl⟩ := isoformat_of_normalizeDateText hnorm
        exact .inr ⟨d, h.symm⟩
    · rintro (h | ⟨d, h⟩)
      · cases h
      · rw [PyVal.str.inj h, normalizeDateText_isoformat]
        rfl
  | _ => cases hv

/-- A normal text of `done_date`. -/
def DoneText (v : Val P) : Prop :=
  v = .null ∨ ∃ d : PyDate, v = .str d.isoformat ∨
    v = .str (autoCancelledPrefix ++ ':' :: d.isoformat) ∨
    v = .str (autoExpiredPrefix ++ ':' :: d.isoformat)

lemma autoDone_isoformat (today d : PyDate) (pre : Text) :
    autoDone T.toUnicodeTables today pre (pre ++ ':' :: d.isoformat) = pre ++ ':' :: d.isoformat := by
  obtain ⟨c, rest, hcons, hdigit⟩ := isoformat_cons d
  have hcolon : (':' :: d.isoformat).dropWhile (· = ':') = d.isoformat := by
    have hc : c ≠ ':' := (isoformat_char_facts (.inl hdigit)).2.2.2.2.2.2.2.1
    rw [List.dropWhile_cons_of_pos (by decide), hcons, List.dropWhile_cons_of_neg (by simpa using hc)]
  unfold autoDone
  dsimp only
  rw [List.drop_left, hcolon, pyStrip_isoformat, normalizeDateText_isoformat]
  rfl

/-- A text of plain characters is neither stripped nor raised. -/
lemma plain_facts {t : Text} (h : ∀ c ∈ t, pyIsSpace c = false ∧ c.toNat < 97) :
    pyStrip t = t ∧ pyUpper T.toUpperTable t = t :=
  ⟨pyStrip_of_stripped ⟨fun c hc => (h c (List.mem_of_mem_head? hc)).1,
    fun c hc => (h c (List.mem_of_mem_getLast? hc)).1⟩, pyUpper_of_lt (fun c hc => (h c hc).2)⟩

/-- A marker with a date is neither stripped nor raised. -/
lemma marked_facts {pre : Text} (hpre : pre = autoCancelledPrefix ∨ pre = autoExpiredPrefix) (d : PyDate) :
    pyStrip (pre ++ ':' :: d.isoformat) = pre ++ ':' :: d.isoformat ∧
      pyUpper T.toUpperTable (pre ++ ':' :: d.isoformat) = pre ++ ':' :: d.isoformat := by
  have hplain : ∀ c ∈ pre, pyIsSpace c = false ∧ c.toNat < 97 := by
    obtain rfl | rfl := hpre <;> decide
  apply plain_facts
  intro c hc
  simp only [List.mem_append, List.mem_cons] at hc
  obtain hc | rfl | hc := hc
  · exact hplain c hc
  · decide
  · have hfacts := isoformat_char_facts (isoformat_chars d c hc)
    exact ⟨hfacts.1, hfacts.2.2.2.2.2.2.2.2⟩

lemma isPrefixOf_append_self (pre rest : Text) : pre.isPrefixOf (pre ++ rest) = true := by
  rw [List.isPrefixOf_iff_prefix]
  exact List.prefix_append pre rest

lemma normalizeDoneText_auto (today d : PyDate) :
    normalizeDoneText T.toUnicodeTables today (autoCancelledPrefix ++ ':' :: d.isoformat) =
      some (autoCancelledPrefix ++ ':' :: d.isoformat) ∧
    normalizeDoneText T.toUnicodeTables today (autoExpiredPrefix ++ ':' :: d.isoformat) =
      some (autoExpiredPrefix ++ ':' :: d.isoformat) := by
  have hcancelled := marked_facts T (.inl rfl) d
  have hexpired := marked_facts T (.inr rfl) d
  constructor
  · unfold normalizeDoneText
    dsimp only
    rw [hcancelled.1, if_neg (by simp), hcancelled.2, if_pos (isPrefixOf_append_self _ _),
      autoDone_isoformat]
  · unfold normalizeDoneText
    dsimp only
    have hother : autoCancelledPrefix.isPrefixOf (autoExpiredPrefix ++ ':' :: d.isoformat) = false := rfl
    rw [hexpired.1, if_neg (by simp), hexpired.2, if_neg (by simp [hother]),
      if_pos (isPrefixOf_append_self _ _), autoDone_isoformat]

/-- A date has no marker in front. -/
lemma isPrefixOf_isoformat {pre : Text} (hpre : pre.head? = some 'A') (d : PyDate) :
    pre.isPrefixOf d.isoformat = false := by
  obtain ⟨c, rest, hcons, hdigit⟩ := isoformat_cons d
  cases pre with
  | nil => cases hpre
  | cons a pre =>
    cases hpre
    rw [hcons]
    have hc : ('A' == c) = false := by
      rw [beq_eq_false_iff_ne]
      rintro rfl
      cases hdigit
    rw [List.isPrefixOf, hc, Bool.false_and]

lemma isoformat_facts (d : PyDate) :
    pyStrip d.isoformat = d.isoformat ∧ pyUpper T.toUpperTable d.isoformat = d.isoformat := by
  apply plain_facts
  intro c hc
  have hfacts := isoformat_char_facts (isoformat_chars d c hc)
  exact ⟨hfacts.1, hfacts.2.2.2.2.2.2.2.2⟩

lemma normalizeDoneText_isoformat (today d : PyDate) :
    normalizeDoneText T.toUnicodeTables today d.isoformat = some d.isoformat := by
  obtain ⟨c, rest, hcons, -⟩ := isoformat_cons d
  have hplain := isoformat_facts T d
  unfold normalizeDoneText
  dsimp only
  rw [hplain.1, hplain.2, if_neg (by simp [hcons]),
    if_neg (by simp [@isPrefixOf_isoformat autoCancelledPrefix rfl]),
    if_neg (by simp [@isPrefixOf_isoformat autoExpiredPrefix rfl]), normalizeDateText_isoformat]

lemma normalizeDoneDate_eq_self_iff (today : PyDate) {v : Val P} (hv : ColumnType.text.Holds v) :
    normalizeDoneDate T.toUnicodeTables today v = v ↔ DoneText v := by
  cases v with
  | null => exact ⟨fun _ => .inl rfl, fun _ => rfl⟩
  | str t =>
    change ofText (normalizeDoneText T.toUnicodeTables today t) = .str t ↔ _
    constructor
    · intro h
      have hsome : normalizeDoneText T.toUnicodeTables today t = some t := by
        cases hnorm : normalizeDoneText T.toUnicodeTables today t with
        | none =>
          rw [hnorm] at h
          cases h
        | some u =>
          rw [hnorm] at h
          exact congrArg some (PyVal.str.inj h)
      have hauto : ∀ pre s : Text, ∃ d : PyDate,
          autoDone T.toUnicodeTables today pre s = pre ++ ':' :: d.isoformat := by
        intro pre s
        unfold autoDone
        dsimp only
        cases hnorm : normalizeDateText T.toUnicodeTables
            (pyStrip ((s.drop pre.length).dropWhile (· = ':'))) with
        | none => exact ⟨today, rfl⟩
        | some u =>
          obtain ⟨d, rfl⟩ := isoformat_of_normalizeDateText hnorm
          exact ⟨d, rfl⟩
      right
      unfold normalizeDoneText at hsome
      dsimp only at hsome
      split at hsome
      · cases hsome
      · split at hsome
        · obtain ⟨d, hd⟩ := hauto autoCancelledPrefix (pyStrip t)
          rw [hd] at hsome
          exact ⟨d, .inr (.inl (congrArg _ (Option.some.inj hsome).symm))⟩
        · split at hsome
          · obtain ⟨d, hd⟩ := hauto autoExpiredPrefix (pyStrip t)
            rw [hd] at hsome
            exact ⟨d, .inr (.inr (congrArg _ (Option.some.inj hsome).symm))⟩
          · obtain ⟨d, rfl⟩ := isoformat_of_normalizeDateText hsome
            exact ⟨d, .inl rfl⟩
    · rintro (h | ⟨d, h | h | h⟩)
      · cases h
      · rw [PyVal.str.inj h, normalizeDoneText_isoformat]
        rfl
      · rw [PyVal.str.inj h, (normalizeDoneText_auto T today d).1]
        rfl
      · rw [PyVal.str.inj h, (normalizeDoneText_auto T today d).2]
        rfl
  | _ => cases hv

end Iso

end IpDocket.Deletion
