import IpDocket.Deletion.DocketDates

/-!
# Done dates

The column `done_date` of a docket row is read by `done_state` and `parse_done_date`, each with its
own look at the markers `AUTO_CANCELLED` and `AUTO_EXPIRED`, and written by `normalize_done_date`.

All three read the first date pattern of the text as it was given: what they strip, cut off and
replace before is neither a part of a date pattern nor next to one.
-/

namespace IpDocket.Deadlines
open IpDocket.Lib IpDocket.Deletion

def markerChars : Text := autoCancelledPrefix ++ autoExpiredPrefix

/-- No white space is a digit or in upper case a part of a marker, and digits have no case. Of two
characters that are together the upper case of one, one is no part of a marker. -/
structure DoneTables extends DateTables where
  decimal_of_isSpace : ∀ c, pyIsSpace c = true → decimal c = none
  up_of_decimal : ∀ c, (decimal c).isSome → up c = [c]
  long_up : ∀ c d e rest, up c = d :: e :: rest → d ∉ markerChars ∨ e ∉ markerChars

section Tables

variable (T : UnicodeTables)

/-- `parse_date` of a text. -/
def parseDocketDate (t : Text) : Option PyDate := (normalizeDateText T t).bind PyDate.fromIsoformat

/-- `s[len(prefix):].lstrip(":").strip()`. -/
def markerSuffix (pre s : Text) : Text := pyStrip ((s.drop pre.length).dropWhile (· = ':'))

/-- `parse_done_date` of a text or `None`. -/
def parseDoneDate : Option Text → Option PyDate
  | none => none
  | some t =>
    let s := pyStrip t
    if s = [] then none
    else
      let upper := pyUpper T.toUpperTable s
      if autoCancelledPrefix.isPrefixOf upper then parseDocketDate T (markerSuffix autoCancelledPrefix s)
      else if autoExpiredPrefix.isPrefixOf upper then parseDocketDate T (markerSuffix autoExpiredPrefix s)
      else parseDocketDate T s

inductive DoneKind where
  | pending | done | cancelled | expired
  deriving DecidableEq

/-- `done_state` of a text or `None`. -/
def doneState : Option Text → DoneKind × Option Text
  | none => (.pending, none)
  | some t =>
    let s := pyStrip t
    if s = [] then (.pending, none)
    else
      let upper := pyUpper T.toUpperTable s
      if autoCancelledPrefix.isPrefixOf upper then
        (.cancelled, normalizeDateText T (markerSuffix autoCancelledPrefix s))
      else if autoExpiredPrefix.isPrefixOf upper then
        (.expired, normalizeDateText T (markerSuffix autoExpiredPrefix s))
      else
        match normalizeDateText T s with
        | some dateStr => (.done, some dateStr)
        | none => (.pending, none)

/-- The first date pattern of the text, and the date that it denotes if there is one. -/
def firstDate (t : Text) : Option PyDate :=
  (searchDate T false t).bind (fun (year, month, day) =>
    PyDate.make (decimalValue T year) (decimalValue T month) (decimalValue T day))

/-- The first date pattern of the text is the date. -/
def CarriesDate (t : Text) (d : PyDate) : Prop := firstDate T t = some d

/-- Some date pattern of the text, the first or a later one, is the date. -/
def MentionsDate (t : Text) (d : PyDate) : Prop :=
  ∃ before rest year month day, t = before ++ rest ∧ (∀ c ∈ before.getLast?, isDecimalDigit T c = false) ∧
    matchDate T rest = some (year, month, day) ∧
    PyDate.make (decimalValue T year) (decimalValue T month) (decimalValue T day) = some d

/-- The character has no place in a date pattern. -/
def Outside (c : Char) : Prop :=
  isDecimalDigit T c = false ∧ c ≠ '-' ∧ c ≠ '.' ∧ c ≠ '/'

lemma dateGroup_cons (c : Char) (t : Text) :
    dateGroup T (c :: t) =
      if (c = '-' ∨ c = '.' ∨ c = '/') ∧ 1 ≤ (t.takeWhile (isDecimalDigit T)).length ∧
          (t.takeWhile (isDecimalDigit T)).length ≤ 2 then
        some (t.takeWhile (isDecimalDigit T), t.dropWhile (isDecimalDigit T))
      else none := by
  unfold dateGroup
  dsimp only
  rw [List.span_eq_takeWhile_dropWhile]

lemma matchDate_eq (t : Text) :
    matchDate T t =
      if (t.takeWhile (isDecimalDigit T)).length = 4 then
        (dateGroup T (t.dropWhile (isDecimalDigit T))).bind (fun (month, rest) =>
          (dateGroup T rest).map (fun (day, _) => (t.takeWhile (isDecimalDigit T), month, day)))
      else none := by
  unfold matchDate
  rw [List.span_eq_takeWhile_dropWhile]

lemma while_append_of_stop {p : Char → Bool} {w : Text} (hw : ∀ c ∈ w.head?, p c = false) (u : Text) :
    (u ++ w).takeWhile p = u.takeWhile p ∧ (u ++ w).dropWhile p = u.dropWhile p ++ w := by
  induction u with
  | nil =>
    cases w with
    | nil => exact ⟨rfl, rfl⟩
    | cons c w =>
      have hc := hw c rfl
      simp [hc]
  | cons c u ih =>
    by_cases hc : p c = true
    · simp [hc, ih.1, ih.2]
    · simp [hc]

variable {T}

lemma dateGroup_append {w : Text} (hw : ∀ c ∈ w.head?, Outside T c) (u : Text) :
    dateGroup T (u ++ w) = (dateGroup T u).map (fun (ds, rest) => (ds, rest ++ w)) := by
  cases u with
  | nil =>
    cases w with
    | nil => rfl
    | cons c w =>
      obtain ⟨-, hdash, hdot, hslash⟩ := hw c rfl
      rw [List.nil_append, dateGroup_cons, if_neg (by simp [hdash, hdot, hslash])]
      rfl
  | cons c u =>
    have hstop := while_append_of_stop (fun d hd => (hw d hd).1) u
    rw [List.cons_append, dateGroup_cons, dateGroup_cons, hstop.1, hstop.2]
    split
    · rfl
    · rfl

lemma matchDate_append {w : Text} (hw : ∀ c ∈ w.head?, Outside T c) (u : Text) :
    matchDate T (u ++ w) = matchDate T u := by
  have hstop := while_append_of_stop (fun d hd => (hw d hd).1) u
  rw [matchDate_eq, matchDate_eq, hstop.1, hstop.2, dateGroup_append hw]
  split
  · cases dateGroup T (u.dropWhile (isDecimalDigit T)) with
    | none => rfl
    | some group =>
      obtain ⟨month, rest⟩ := group
      simp only [Option.map_some, Option.bind_some]
      rw [dateGroup_append hw, Option.map_map]
      rfl
  · rfl

lemma matchDate_of_not_digit {c : Char} (hc : isDecimalDigit T c = false) (t : Text) :
    matchDate T (c :: t) = none := by
  rw [matchDate_eq, List.takeWhile_cons, hc]
  rfl

/-- A date pattern does not reach over a character that has no place in it. -/
lemma searchDate_append {w : Text} (hw : ∀ c ∈ w.head?, Outside T c) (afterDigit : Bool) (u : Text) :
    searchDate T afterDigit (u ++ w) = (searchDate T afterDigit u).or (searchDate T false w) := by
  induction u generalizing afterDigit with
  | nil =>
    rw [List.nil_append, searchDate, Option.none_or]
    cases w with
    | nil => rfl
    | cons c w =>
      have hnone := matchDate_of_not_digit (hw c rfl).1 w
      rw [searchDate, searchDate, hnone, ite_self, ite_self]
  | cons c u ih =>
    have hmatch := matchDate_append hw (c :: u)
    rw [List.cons_append] at hmatch ⊢
    rw [searchDate, searchDate, hmatch, ih, Option.or_assoc]

/-- Text without digits in front is passed over. -/
lemma searchDate_of_not_digit {u : Text} (hu : ∀ c ∈ u, isDecimalDigit T c = false) (t : Text) :
    searchDate T false (u ++ t) = searchDate T false t := by
  induction u with
  | nil => rfl
  | cons c u ih =>
    have hc := hu c List.mem_cons_self
    rw [List.cons_append, searchDate, if_neg Bool.false_ne_true, matchDate_of_not_digit hc, hc,
      Option.none_or, ih (fun d hd => hu d (List.mem_cons_of_mem c hd))]

lemma searchDate_eq_none {u : Text} (hu : ∀ c ∈ u, isDecimalDigit T c = false) :
    searchDate T false u = none := by
  have h := searchDate_of_not_digit hu []
  rw [List.append_nil] at h
  exact h

/-- What is taken off at both ends of a text. -/
lemma exists_trimmed (p : Char → Bool) (t : Text) :
    ∃ a b : Text, t = a ++ (((t.dropWhile p).reverse.dropWhile p).reverse ++ b) ∧
      (∀ c ∈ a, p c = true) ∧ ∀ c ∈ b, p c = true := by
  refine ⟨t.takeWhile p, ((t.dropWhile p).reverse.takeWhile p).reverse, ?_, ?_, ?_⟩
  · rw [← List.reverse_append, List.takeWhile_append_dropWhile, List.reverse_reverse,
      List.takeWhile_append_dropWhile]
  · exact fun c hc => List.mem_takeWhile_imp hc
  · exact fun c hc => List.mem_takeWhile_imp (List.mem_reverse.mp hc)

lemma searchDate_trimmed {p : Char → Bool} (hp : ∀ c, p c = true → Outside T c) (t : Text) :
    searchDate T false ((t.dropWhile p).reverse.dropWhile p).reverse = searchDate T false t := by
  obtain ⟨a, b, ht, ha, hb⟩ := exists_trimmed p t
  have hend : searchDate T false b = none := searchDate_eq_none (fun c hc => (hp c (hb c hc)).1)
  conv_rhs => rw [ht]
  rw [searchDate_of_not_digit (fun c hc => (hp c (ha c hc)).1),
    searchDate_append (fun c hc => hp c (hb c (List.mem_of_mem_head? hc))), hend, Option.or_none]

/-- `s.replace(".", "-").replace("/", "-")`. -/
def dashed (c : Char) : Char := if c = '.' ∨ c = '/' then '-' else c

end Tables

section Agree

variable (T : DoneTables)

lemma isDecimalDigit_of_lt {c : Char} (hlt : c.toNat < 128) (hc : c.isDigit = false) :
    isDecimalDigit T.toUnicodeTables c = false := by
  unfold isDecimalDigit
  rw [T.decimal_eq_none c hlt hc]
  rfl

lemma outside_of_isSpace {c : Char} (h : pyIsSpace c = true) : Outside T.toUnicodeTables c := by
  refine ⟨?_, ?_, ?_, ?_⟩
  · unfold isDecimalDigit
    rw [T.decimal_of_isSpace c h]
    rfl
  all_goals
    rintro rfl
    cases h

lemma outside_of_mem_brackets {c : Char} (h : c ∈ brackets) : Outside T.toUnicodeTables c := by
  have hascii : ∀ b ∈ brackets, b.toNat < 128 ∧ b.isDigit = false ∧ b ≠ '-' ∧ b ≠ '.' ∧ b ≠ '/' := by
    decide
  obtain ⟨hlt, hdigit, hrest⟩ := hascii c h
  exact ⟨isDecimalDigit_of_lt T hlt hdigit, hrest⟩

lemma searchDate_pyStrip (t : Text) :
    searchDate T.toUnicodeTables false (pyStrip t) = searchDate T.toUnicodeTables false t :=
  searchDate_trimmed (fun _ h => outside_of_isSpace T h) t

lemma searchDate_stripChars (t : Text) :
    searchDate T.toUnicodeTables false (stripChars brackets t) =
      searchDate T.toUnicodeTables false t :=
  searchDate_trimmed (fun _ h => outside_of_mem_brackets T (of_decide_eq_true h)) t

lemma isDecimalDigit_dashed (c : Char) :
    isDecimalDigit T.toUnicodeTables (dashed c) = isDecimalDigit T.toUnicodeTables c := by
  unfold dashed
  split
  · next h =>
    obtain rfl | rfl := h
    · rw [isDecimalDigit_of_lt T (by decide) (by decide), isDecimalDigit_of_lt T (by decide) (by decide)]
    · rw [isDecimalDigit_of_lt T (by decide) (by decide), isDecimalDigit_of_lt T (by decide) (by decide)]
  · rfl

lemma dashed_of_digit {c : Char} (h : isDecimalDigit T.toUnicodeTables c = true) : dashed c = c := by
  unfold dashed
  apply if_neg
  rintro (rfl | rfl)
  · rw [isDecimalDigit_of_lt T (by decide) (by decide)] at h
    cases h
  · rw [isDecimalDigit_of_lt T (by decide) (by decide)] at h
    cases h

lemma dashed_separator (c : Char) :
    (dashed c = '-' ∨ dashed c = '.' ∨ dashed c = '/') ↔ (c = '-' ∨ c = '.' ∨ c = '/') := by
  unfold dashed
  split
  · next h => simp [h]
  · next h => rfl

lemma while_dashed (t : Text) :
    (t.map dashed).takeWhile (isDecimalDigit T.toUnicodeTables) =
      t.takeWhile (isDecimalDigit T.toUnicodeTables) ∧
    (t.map dashed).dropWhile (isDecimalDigit T.toUnicodeTables) =
      (t.dropWhile (isDecimalDigit T.toUnicodeTables)).map dashed := by
  induction t with
  | nil => exact ⟨rfl, rfl⟩
  | cons c t ih =>
    rw [List.map_cons, List.takeWhile_cons, List.dropWhile_cons, isDecimalDigit_dashed,
      List.takeWhile_cons, List.dropWhile_cons]
    split
    · next hc =>
      rw [dashed_of_digit T hc, ih.1, ih.2]
      exact ⟨rfl, rfl⟩
    · exact ⟨rfl, rfl⟩

lemma dateGroup_dashed (t : Text) :
    dateGroup T.toUnicodeTables (t.map dashed) =
      (dateGroup T.toUnicodeTables t).map (fun (ds, rest) => (ds, rest.map dashed)) := by
  cases t with
  | nil => rfl
  | cons c t =>
    have hwhile := while_dashed T t
    rw [List.map_cons, dateGroup_cons, dateGroup_cons, hwhile.1, hwhile.2]
    simp only [dashed_separator]
    split
    · rfl
    · rfl

lemma matchDate_dashed (t : Text) :
    matchDate T.toUnicodeTables (t.map dashed) = matchDate T.toUnicodeTables t := by
  have hwhile := while_dashed T t
  rw [matchDate_eq, matchDate_eq, hwhile.1, hwhile.2, dateGroup_dashed]
  split
  · cases dateGroup T.toUnicodeTables (t.dropWhile (isDecimalDigit T.toUnicodeTables)) with
    | none => rfl
    | some group =>
      simp only [Option.map_some, Option.bind_some]
      rw [dateGroup_dashed, Option.map_map]
      rfl
  · rfl

lemma searchDate_dashed (afterDigit : Bool) (t : Text) :
    searchDate T.toUnicodeTables afterDigit (t.map dashed) =
      searchDate T.toUnicodeTables afterDigit t := by
  induction t generalizing afterDigit with
  | nil => rfl
  | cons c t ih =>
    have hmatch := matchDate_dashed T (c :: t)
    rw [List.map_cons] at hmatch ⊢
    rw [searchDate, searchDate, hmatch, isDecimalDigit_dashed, ih]

/-- The text up to a time or a blank is searched first, which makes no difference. -/
lemma searchDate_token (s : Text) :
    (searchDate T.toUnicodeTables false
        (pyStrip ((s.takeWhile (· ≠ 'T')).takeWhile (· ≠ ' ')))).or
      (searchDate T.toUnicodeTables false s) = searchDate T.toUnicodeTables false s := by
  have hcut : ∀ (e : Char), Outside T.toUnicodeTables e → ∀ u : Text,
      searchDate T.toUnicodeTables false u =
        (searchDate T.toUnicodeTables false (u.takeWhile (· ≠ e))).or
          (searchDate T.toUnicodeTables false (u.dropWhile (· ≠ e))) := by
    intro e he u
    have hhead : ∀ c ∈ (u.dropWhile (· ≠ e)).head?, Outside T.toUnicodeTables c := by
      intro c hc
      have h := List.head?_dropWhile_not (· ≠ e) u
      rw [Option.mem_def.mp hc] at h
      have hce : c = e := by simpa using h
      rwa [hce]
    rw [← searchDate_append hhead, List.takeWhile_append_dropWhile]
  have hT : Outside T.toUnicodeTables 'T' :=
    ⟨isDecimalDigit_of_lt T (by decide) (by decide), by decide, by decide, by decide⟩
  have hblank : Outside T.toUnicodeTables ' ' := outside_of_isSpace T (by decide)
  rw [searchDate_pyStrip, hcut 'T' hT s, hcut ' ' hblank (s.takeWhile (· ≠ 'T')), ← Option.or_assoc,
    ← Option.or_assoc, Option.or_self]

/-- The words for no date have no digits. -/
lemma searchDate_of_nullish {s : Text} (h : s = [] ∨ s.map asciiLower ∈ nullishDateTokens) :
    searchDate T.toUnicodeTables false s = none := by
  apply searchDate_eq_none
  intro c hc
  obtain rfl | h := h
  · cases hc
  · have hletters : ∀ word ∈ nullishDateTokens, ∀ d ∈ word, d.toNat < 128 ∧ d.isDigit = false := by
      decide
    have hlower := hletters _ h _ (List.mem_map_of_mem hc)
    unfold asciiLower at hlower
    split at hlower
    · next hupper =>
      apply isDecimalDigit_of_lt T (by omega)
      rw [Bool.eq_false_iff, ne_eq, Char.isDigit_iff_toNat]
      change ¬(48 ≤ c.toNat ∧ c.toNat ≤ 57)
      omega
    · exact isDecimalDigit_of_lt T hlower.1 hlower.2

/-- The normal form of a text is that of its first date. -/
theorem normalizeDateText_eq (t : Text) :
    normalizeDateText T.toUnicodeTables t = (firstDate T.toUnicodeTables t).map PyDate.isoformat := by
  have hstrip : searchDate T.toUnicodeTables false (stripChars brackets (pyStrip t)) =
      searchDate T.toUnicodeTables false t := by
    rw [searchDate_stripChars, searchDate_pyStrip]
  unfold normalizeDateText firstDate
  dsimp only
  split
  · next hnone => rw [← hstrip, searchDate_of_nullish T hnone]; rfl
  · have hreplace : (stripChars brackets (pyStrip t)).map (fun c => if c = '.' ∨ c = '/' then '-' else c) =
        (stripChars brackets (pyStrip t)).map dashed := rfl
    rw [hreplace, searchDate_token, searchDate_dashed, hstrip]
    cases searchDate T.toUnicodeTables false t with
    | none => rfl
    | some found => rfl

lemma parseDocketDate_eq (t : Text) : parseDocketDate T.toUnicodeTables t = firstDate T.toUnicodeTables t := by
  unfold parseDocketDate
  rw [normalizeDateText_eq]
  cases firstDate T.toUnicodeTables t with
  | none => rfl
  | some d => exact PyDate.fromIsoformat_isoformat d

/-! ### Markers -/

/-- The marker of a text, and its kind. -/
def marker (T : UnicodeTables) (t : Text) : Option (Text × DoneKind) :=
  let upper := pyUpper T.toUpperTable (pyStrip t)
  if autoCancelledPrefix.isPrefixOf upper then some (autoCancelledPrefix, .cancelled)
  else if autoExpiredPrefix.isPrefixOf upper then some (autoExpiredPrefix, .expired)
  else none

/-- The characters that a marker takes the place of are no digits, whatever case they have. -/
lemma not_digit_of_marker {pre s : Text} (hpre : ∀ d ∈ pre, d ∈ markerChars)
    (h : pre.isPrefixOf (pyUpper T.toUpperTable s) = true) :
    ∀ c ∈ s.take pre.length, isDecimalDigit T.toUnicodeTables c = false := by
  have hletters : ∀ d ∈ markerChars, d.toNat < 128 ∧ d.isDigit = false := by decide
  induction pre generalizing s with
  | nil =>
    intro c hc
    cases hc
  | cons d pre ih =>
    have hd := hpre d List.mem_cons_self
    cases s with
    | nil => cases h
    | cons c s =>
      have hup : pyUpper T.toUpperTable (c :: s) = T.up c ++ pyUpper T.toUpperTable s := rfl
      rw [hup] at h
      have hfirst : ∀ rest, T.up c = d :: rest → isDecimalDigit T.toUnicodeTables c = false := by
        intro rest hrest
        by_contra hdigit
        have hself := T.up_of_decimal c (Bool.not_eq_false _ ▸ hdigit)
        have hcd : c = d := by
          rw [hself] at hrest
          exact (List.cons.inj hrest).1
        apply hdigit
        rw [hcd]
        exact isDecimalDigit_of_lt T (hletters d hd).1 (hletters d hd).2
      cases hc : T.up c with
      | nil => exact absurd hc (T.up_ne_nil c)
      | cons x xs =>
        rw [hc, List.cons_append, List.isPrefixOf, Bool.and_eq_true, beq_iff_eq] at h
        obtain ⟨rfl, hrest⟩ := h
        intro a ha
        rw [List.length_cons, List.take_succ_cons] at ha
        obtain rfl | ha := List.mem_cons.mp ha
        · exact hfirst xs hc
        cases xs with
        | nil => exact ih (fun e he => hpre e (List.mem_cons_of_mem _ he)) hrest a ha
        | cons e xs =>
          -- the second of the two characters has to be the next one of the marker
          cases pre with
          | nil => cases ha
          | cons e' pre =>
            rw [List.cons_append, List.isPrefixOf, Bool.and_eq_true, beq_iff_eq] at hrest
            obtain ⟨rfl, -⟩ := hrest
            have he := hpre e' (List.mem_cons_of_mem _ List.mem_cons_self)
            obtain hno | hno := T.long_up c d e' xs hc
            · exact absurd hd hno
            · exact absurd he hno

lemma firstDate_congr {s t : Text}
    (h : searchDate T.toUnicodeTables false s = searchDate T.toUnicodeTables false t) :
    firstDate T.toUnicodeTables s = firstDate T.toUnicodeTables t := by
  unfold firstDate
  rw [h]

lemma firstDate_pyStrip (t : Text) :
    firstDate T.toUnicodeTables (pyStrip t) = firstDate T.toUnicodeTables t :=
  firstDate_congr T (searchDate_pyStrip T t)

lemma firstDate_isoformat (d : PyDate) : firstDate T.toUnicodeTables d.isoformat = some d := by
  rw [← parseDocketDate_eq]
  unfold parseDocketDate
  rw [normalizeDateText_isoformat, Option.bind_some, PyDate.fromIsoformat_isoformat]

/-- The date of a text behind a marker is that of the whole text. -/
lemma firstDate_markerSuffix {pre s : Text} (hpre : ∀ d ∈ pre, d ∈ markerChars)
    (h : pre.isPrefixOf (pyUpper T.toUpperTable s) = true) :
    firstDate T.toUnicodeTables (markerSuffix pre s) = firstDate T.toUnicodeTables s := by
  have hcolon : ∀ c ∈ (s.drop pre.length).takeWhile (· = ':'),
      isDecimalDigit T.toUnicodeTables c = false := by
    intro c hc
    have heq : c = ':' := by simpa using List.mem_takeWhile_imp hc
    rw [heq]
    exact isDecimalDigit_of_lt T (by decide) (by decide)
  apply firstDate_congr
  unfold markerSuffix
  rw [searchDate_pyStrip, ← searchDate_of_not_digit hcolon, List.takeWhile_append_dropWhile,
    ← searchDate_of_not_digit (not_digit_of_marker T hpre h), List.take_append_drop]

lemma mem_markerChars :
    (∀ d ∈ autoCancelledPrefix, d ∈ markerChars) ∧ ∀ d ∈ autoExpiredPrefix, d ∈ markerChars := by
  decide

lemma not_marker_of_stripped_eq_nil {t : Text} (h : pyStrip t = []) :
    marker T.toUnicodeTables t = none ∧ firstDate T.toUnicodeTables t = none := by
  constructor
  · unfold marker
    dsimp only
    rw [h]
    rfl
  · rw [← firstDate_pyStrip, h]
    rfl

theorem parseDoneDate_eq (t : Text) :
    parseDoneDate T.toUnicodeTables (some t) = firstDate T.toUnicodeTables t := by
  rw [← firstDate_pyStrip]
  unfold parseDoneDate
  dsimp only
  split
  · next hnil =>
    rw [hnil]
    rfl
  · simp only [parseDocketDate_eq]
    split
    · next h => exact firstDate_markerSuffix T mem_markerChars.1 h
    · split
      · next h => exact firstDate_markerSuffix T mem_markerChars.2 h
      · rfl

theorem doneState_eq (t : Text) :
    doneState T.toUnicodeTables (some t) =
      match marker T.toUnicodeTables t with
      | some (_, kind) => (kind, (firstDate T.toUnicodeTables t).map PyDate.isoformat)
      | none => (if (firstDate T.toUnicodeTables t).isSome then .done else .pending,
          (firstDate T.toUnicodeTables t).map PyDate.isoformat) := by
  by_cases hnil : pyStrip t = []
  · have hnone := not_marker_of_stripped_eq_nil T hnil
    rw [hnone.1, hnone.2]
    unfold doneState
    dsimp only
    rw [if_pos hnil]
    rfl
  · unfold doneState marker
    dsimp only
    rw [if_neg hnil]
    simp only [normalizeDateText_eq]
    split
    · next h => rw [firstDate_markerSuffix T mem_markerChars.1 h, firstDate_pyStrip]
    · split
      · next h => rw [firstDate_markerSuffix T mem_markerChars.2 h, firstDate_pyStrip]
      · rw [firstDate_pyStrip]
        cases firstDate T.toUnicodeTables t with
        | none => rfl
        | some d => rfl

theorem normalizeDoneText_eq (today : PyDate) (t : Text) :
    normalizeDoneText T.toUnicodeTables today t =
      match marker T.toUnicodeTables t with
      | some (pre, _) => some (pre ++ ':' :: ((firstDate T.toUnicodeTables t).getD today).isoformat)
      | none => (firstDate T.toUnicodeTables t).map PyDate.isoformat := by
  by_cases hnil : pyStrip t = []
  · have hnone := not_marker_of_stripped_eq_nil T hnil
    rw [hnone.1, hnone.2]
    unfold normalizeDoneText
    dsimp only
    rw [if_pos hnil]
    rfl
  · have hauto : ∀ {pre : Text}, (∀ d ∈ pre, d ∈ markerChars) →
        pre.isPrefixOf (pyUpper T.toUpperTable (pyStrip t)) = true →
        autoDone T.toUnicodeTables today pre (pyStrip t) =
          pre ++ ':' :: ((firstDate T.toUnicodeTables t).getD today).isoformat := by
      intro pre hpre h
      have hdate := firstDate_markerSuffix T hpre h
      unfold markerSuffix at hdate
      unfold autoDone
      dsimp only
      rw [normalizeDateText_eq, hdate, firstDate_pyStrip, Option.getD_map]
    unfold normalizeDoneText marker
    dsimp only
    rw [if_neg hnil]
    split
    · next h => rw [hauto mem_markerChars.1 h]
    · split
      · next h => rw [hauto mem_markerChars.2 h]
      · rw [normalizeDateText_eq, firstDate_pyStrip]

/-- What is written behind a marker is read back. -/
lemma marker_written {pre : Text} {kind : DoneKind}
    (h : (pre, kind) = (autoCancelledPrefix, .cancelled) ∨ (pre, kind) = (autoExpiredPrefix, .expired))
    (d : PyDate) :
    marker T.toUnicodeTables (pre ++ ':' :: d.isoformat) = some (pre, kind) ∧
      firstDate T.toUnicodeTables (pre ++ ':' :: d.isoformat) = some d := by
  have hpre : pre = autoCancelledPrefix ∨ pre = autoExpiredPrefix :=
    h.imp (congrArg Prod.fst) (congrArg Prod.fst)
  have hplain := marked_facts T.toDateTables hpre d
  constructor
  · unfold marker
    dsimp only
    rw [hplain.1, hplain.2]
    obtain h | h := h
    · cases h
      rw [if_pos (isPrefixOf_append_self _ _)]
    · cases h
      have hother : autoCancelledPrefix.isPrefixOf (autoExpiredPrefix ++ ':' :: d.isoformat) = false := rfl
      rw [if_neg (by simp [hother]), if_pos (isPrefixOf_append_self _ _)]
  · have hdigits : ∀ c ∈ pre ++ [':'], c.toNat < 128 ∧ c.isDigit = false := by
      obtain rfl | rfl := hpre <;> decide
    have hsplit : pre ++ ':' :: d.isoformat = (pre ++ [':']) ++ d.isoformat := by
      rw [List.append_assoc]
      rfl
    rw [← firstDate_isoformat T d, hsplit]
    apply firstDate_congr
    exact searchDate_of_not_digit
      (fun c hc => isDecimalDigit_of_lt T (hdigits c hc).1 (hdigits c hc).2) _

lemma marker_isoformat (d : PyDate) : marker T.toUnicodeTables d.isoformat = none := by
  have hplain := isoformat_facts T.toDateTables d
  unfold marker
  dsimp only
  rw [hplain.1, hplain.2, if_neg (by simp [@isPrefixOf_isoformat autoCancelledPrefix rfl]),
    if_neg (by simp [@isPrefixOf_isoformat autoExpiredPrefix rfl])]

lemma marker_cases {t pre : Text} {kind : DoneKind}
    (h : marker T.toUnicodeTables t = some (pre, kind)) :
    (pre, kind) = (autoCancelledPrefix, .cancelled) ∨ (pre, kind) = (autoExpiredPrefix, .expired) := by
  unfold marker at h
  dsimp only at h
  split at h
  · exact .inl (Option.some.inj h).symm
  · split at h
    · exact .inr (Option.some.inj h).symm
    · cases h

/-- A done date is normalised once and for all: normalising it again, on any day, changes nothing,
the kind is kept, a date that the text carries first is read from both forms by both readers, and the
normal form is an ISO date, alone or behind a marker. -/
theorem normalize_done_date_agrees (s : Text) (today : PyDate) :
    let n := normalizeDoneText T.toUnicodeTables today s
    (∀ today', n.bind (normalizeDoneText T.toUnicodeTables today') = n) ∧
      (doneState T.toUnicodeTables n).1 = (doneState T.toUnicodeTables (some s)).1 ∧
      (∀ d, CarriesDate T.toUnicodeTables s d →
        (doneState T.toUnicodeTables n).2 = some d.isoformat ∧
          (doneState T.toUnicodeTables (some s)).2 = some d.isoformat ∧
          parseDoneDate T.toUnicodeTables n = some d ∧
          parseDoneDate T.toUnicodeTables (some s) = some d) ∧
      (n = none ∨ ∃ d : PyDate, n = some d.isoformat ∨
        n = some (autoCancelledPrefix ++ ':' :: d.isoformat) ∨
        n = some (autoExpiredPrefix ++ ':' :: d.isoformat)) := by
  intro n
  have hn : n = normalizeDoneText T.toUnicodeTables today s := rfl
  rw [normalizeDoneText_eq] at hn
  rw [doneState_eq T s, parseDoneDate_eq T s]
  unfold CarriesDate
  cases hmarker : marker T.toUnicodeTables s with
  | some found =>
    obtain ⟨pre, kind⟩ := found
    have hcase := marker_cases T hmarker
    have hwritten := fun d => marker_written T hcase d
    rw [hmarker] at hn
    dsimp only at hn ⊢
    rw [hn, doneState_eq, parseDoneDate_eq, (hwritten _).1, (hwritten _).2]
    refine ⟨fun today' => ?_, rfl, fun d hd => ?_,
      .inr ⟨(firstDate T.toUnicodeTables s).getD today, .inr ?_⟩⟩
    · rw [Option.bind_some, normalizeDoneText_eq, (hwritten _).1, (hwritten _).2]
      rfl
    · rw [hd]
      exact ⟨rfl, rfl, rfl, rfl⟩
    · obtain h | h := hcase
      · cases h
        exact .inl rfl
      · cases h
        exact .inr rfl
  | none =>
    rw [hmarker] at hn
    dsimp only at hn ⊢
    cases hdate : firstDate T.toUnicodeTables s with
    | none =>
      rw [hdate] at hn
      rw [hn]
      refine ⟨fun _ => rfl, rfl, fun d hd => ?_, .inl rfl⟩
      cases hd
    | some d =>
      rw [hdate] at hn
      rw [hn, Option.map_some, doneState_eq, parseDoneDate_eq, marker_isoformat, firstDate_isoformat]
      refine ⟨fun today' => ?_, rfl, fun d' hd' => ?_, .inr ⟨d, .inl rfl⟩⟩
      · rw [Option.bind_some, normalizeDoneText_isoformat]
      · cases hd'
        exact ⟨rfl, rfl, rfl, rfl⟩

end Agree

/-- The tables of a program that knows only ASCII. -/
def asciiDoneTables : DoneTables where
  toUnicodeTables := asciiTables
  decimal_of_isDigit := asciiTables_decimal_of_isDigit
  decimal_eq_none c _ := asciiTables_decimal_eq_none c
  decimal_of_isSpace := asciiTables_decimal_of_isSpace
  up_of_decimal c h := by
    have hdigit : 48 ≤ c.toNat ∧ c.toNat ≤ 57 := by
      by_contra hno
      have hnone : asciiTables.decimal c = none := if_neg hno
      rw [hnone] at h
      cases h
    exact asciiTable.up_of_lt c (by omega)
  long_up c d e rest h := by cases h

example : normalizeDoneText asciiDoneTables.toUnicodeTables ⟨2026, 1, 15, by decide, by decide, by decide⟩
    " auto_cancelled: [2024.1.5] ".toList = some "AUTO_CANCELLED:2024-01-05".toList := by
  decide

/-- Behind a pattern that is no date of the calendar a date is not read. -/
theorem later_date_not_read :
    ¬∀ (T : DoneTables) (s : Text) (today : PyDate),
      let n := normalizeDoneText T.toUnicodeTables today s
      (∀ today', n.bind (normalizeDoneText T.toUnicodeTables today') = n) ∧
        (doneState T.toUnicodeTables n).1 = (doneState T.toUnicodeTables (some s)).1 ∧
        (∀ d, MentionsDate T.toUnicodeTables s d →
          (doneState T.toUnicodeTables n).2 = some d.isoformat ∧
            (doneState T.toUnicodeTables (some s)).2 = some d.isoformat ∧
            parseDoneDate T.toUnicodeTables n = some d ∧
            parseDoneDate T.toUnicodeTables (some s) = some d) ∧
        (n = none ∨ ∃ d : PyDate, n = some d.isoformat ∨
          n = some (autoCancelledPrefix ++ ':' :: d.isoformat) ∨
          n = some (autoExpiredPrefix ++ ':' :: d.isoformat)) := by
  intro h
  have hmention : MentionsDate asciiDoneTables.toUnicodeTables "AUTO_CANCELLED:2024-02-30 2024-03-01".toList
      ⟨2024, 3, 1, by decide, by decide, by decide⟩ :=
    ⟨"AUTO_CANCELLED:2024-02-30 ".toList, "2024-03-01".toList, _, _, _, by decide, by decide, rfl, by decide⟩
  have hread := ((h asciiDoneTables "AUTO_CANCELLED:2024-02-30 2024-03-01".toList
    ⟨2026, 1, 15, by decide, by decide, by decide⟩).2.2.1 _ hmention).2.1
  revert hread
  decide

end IpDocket.Deadlines
