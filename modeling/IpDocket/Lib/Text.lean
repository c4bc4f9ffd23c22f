import Mathlib.Data.List.Induction
import Mathlib.Data.List.Infix
import Mathlib.Tactic.Common
import Mathlib.Tactic.IntervalCases

/-!
# Text functions of the host languages

`pyStrip` is Python's `str.strip`, `pyUpper` its `str.upper`, `sqlLike` the `LIKE` of
PostgreSQL with its default escape character; a pattern that ends with that character, which
PostgreSQL refuses, is read as if the character stood for itself. The case mapping of Unicode is
a parameter: `UpperTable` has the facts about it that are needed, `asciiTable` is its restriction
to ASCII.
-/

namespace IpDocket.Lib

abbrev Text := List Char

-- A quantifier over the characters of a text is decided along the text, not over all characters.

instance (priority := 2000) decidableForallMemText {p : Char → Prop} [DecidablePred p] (t : List Char) :
    Decidable (∀ c ∈ t, p c) := List.decidableBAll p t

instance (priority := 2000) decidableExistsMemText {p : Char → Prop} [DecidablePred p] (t : List Char) :
    Decidable (∃ c ∈ t, p c) := List.decidableBEx p t

instance (priority := 2000) decidableForallMemChar {p : Char → Prop} [DecidablePred p] (o : Option Char) :
    Decidable (∀ c ∈ o, p c) := Option.decidableForallMem o

instance (priority := 2000) lawfulBEqText : LawfulBEq (List Char) := List.instLawfulBEq

/-- The characters for which `str.isspace` holds. -/
def pyIsSpace (c : Char) : Bool :=
  let n := c.toNat
  (9 ≤ n && n ≤ 13) || (28 ≤ n && n ≤ 32) || n == 0x85 || n == 0xA0 || n == 0x1680 ||
    (0x2000 ≤ n && n ≤ 0x200A) || n == 0x2028 || n == 0x2029 || n == 0x202F || n == 0x205F ||
    n == 0x3000

def pyStrip (t : Text) : Text :=
  ((t.dropWhile pyIsSpace).reverse.dropWhile pyIsSpace).reverse

/-- `TRIM` of a text. -/
def sqlTrim (t : Text) : Text :=
  ((t.dropWhile (· = ' ')).reverse.dropWhile (· = ' ')).reverse

def sqlLike : Text → Text → Bool
  | [], t => t.isEmpty
  | '%' :: ps, t => t.tails.any (sqlLike ps)
  | '_' :: ps, _ :: t => sqlLike ps t
  | '\\' :: p :: ps, c :: t => p == c && sqlLike ps t
  | p :: ps, c :: t => p == c && sqlLike ps t
  | _ :: _, [] => false

/-- The characters at which `str.splitlines` ends a line. -/
def isLineBreak (c : Char) : Bool :=
  let n := c.toNat
  (10 ≤ n && n ≤ 13) || (28 ≤ n && n ≤ 30) || n == 0x85 || n == 0x2028 || n == 0x2029

/-- The lines of a text; `afterReturn` says that a carriage return has just ended a line, of which
a line feed is then a part. -/
def splitLinesFrom : (afterReturn : Bool) → Text → List Text
  | _, [] => []
  | afterReturn, c :: t =>
    if afterReturn ∧ c = '\n' then splitLinesFrom false t
    else if isLineBreak c then [] :: splitLinesFrom (c = '\r') t
    else match splitLinesFrom false t with
      | [] => [[c]]
      | line :: rest => (c :: line) :: rest

def splitLines (t : Text) : List Text := splitLinesFrom false t

def joinLines (lines : List Text) : Text := ['\n'].intercalate lines

/-- The upper-case mapping of the Unicode tables. No character vanishes, the images are
upper case, white space is mapped to white space and nothing else is, and the characters
below `a` stay as they are. -/
structure UpperTable where
  up : Char → Text
  up_ne_nil : ∀ c, up c ≠ []
  up_of_mem_up : ∀ c, ∀ d ∈ up c, up d = [d]
  isSpace_of_mem_up : ∀ c, ∀ d ∈ up c, pyIsSpace d = pyIsSpace c
  up_of_lt : ∀ c, c.toNat < 97 → up c = [c]

def asciiUp (c : Char) : Char :=
  if 97 ≤ c.toNat ∧ c.toNat ≤ 122 then Char.ofNat (c.toNat - 32) else c

lemma asciiUp_facts (c : Char) :
    asciiUp (asciiUp c) = asciiUp c ∧ pyIsSpace (asciiUp c) = pyIsSpace c := by
  by_cases h : 97 ≤ c.toNat ∧ c.toNat ≤ 122
  · have hc : c = Char.ofNat c.toNat := (Char.ofNat_toNat c).symm
    generalize hn : c.toNat = n at h hc
    obtain ⟨hlow, hhigh⟩ := h
    subst hc
    clear hn
    interval_cases n <;> decide
  · have hc : asciiUp c = c := if_neg h
    rw [hc, hc]
    exact ⟨rfl, rfl⟩

def asciiTable : UpperTable where
  up c := [asciiUp c]
  up_ne_nil c := List.cons_ne_nil _ _
  up_of_mem_up c d hd := by
    rw [List.mem_singleton.mp hd, (asciiUp_facts c).1]
  isSpace_of_mem_up c d hd := by
    rw [List.mem_singleton.mp hd, (asciiUp_facts c).2]
  up_of_lt c hc := by
    rw [asciiUp, if_neg (by omega)]

def pyUpper (U : UpperTable) (t : Text) : Text := t.flatMap U.up

/-- The text has no white space at its ends. -/
def Stripped (t : Text) : Prop :=
  (∀ c ∈ t.head?, pyIsSpace c = false) ∧ ∀ c ∈ t.getLast?, pyIsSpace c = false

lemma pyStrip_of_stripped {t : Text} (h : Stripped t) : pyStrip t = t := by
  have hdrop : ∀ l : Text, (∀ c ∈ l.head?, pyIsSpace c = false) → l.dropWhile pyIsSpace = l := by
    intro l hl
    cases l with
    | nil => rfl
    | cons c l => rw [List.dropWhile_cons_of_neg (by simp [hl c rfl])]
  unfold pyStrip
  rw [hdrop t h.1, hdrop t.reverse (by simpa using h.2), List.reverse_reverse]

lemma head?_dropWhile_isSpace (t : Text) :
    ∀ c ∈ (t.dropWhile pyIsSpace).head?, pyIsSpace c = false := by
  intro c hc
  have h := List.head?_dropWhile_not pyIsSpace t
  rw [Option.mem_def.mp hc] at h
  simpa using h

lemma stripped_pyStrip (t : Text) : Stripped (pyStrip t) := by
  unfold pyStrip
  constructor
  · intro c hc
    rw [List.head?_reverse] at hc
    -- the last character of what is left after the second pass was the last one before it
    have hsuffix := List.dropWhile_suffix (l := (t.dropWhile pyIsSpace).reverse) pyIsSpace
    obtain ⟨pre, hpre⟩ := hsuffix
    apply head?_dropWhile_isSpace t
    have hlast : c ∈ ((t.dropWhile pyIsSpace).reverse).getLast? := by
      rw [← hpre, List.getLast?_append, Option.mem_def.mp hc]
      rfl
    simpa using hlast
  · intro c hc
    rw [List.getLast?_reverse] at hc
    exact head?_dropWhile_isSpace _ c hc

variable {U : UpperTable}

/-- The first character of the upper case comes from the first character. -/
lemma isSpace_head_pyUpper {t : Text} {c : Char} (h : c ∈ (pyUpper U t).head?) :
    ∃ a ∈ t.head?, pyIsSpace c = pyIsSpace a := by
  unfold pyUpper at h
  cases t with
  | nil => cases h
  | cons a t =>
    rw [List.flatMap_cons] at h
    have ha : c ∈ (U.up a).head? := by
      simpa [U.up_ne_nil a] using h
    exact ⟨a, rfl, U.isSpace_of_mem_up a c (List.mem_of_mem_head? ha)⟩

lemma isSpace_getLast_pyUpper {t : Text} {c : Char} (h : c ∈ (pyUpper U t).getLast?) :
    ∃ a ∈ t.getLast?, pyIsSpace c = pyIsSpace a := by
  unfold pyUpper at h
  induction t using List.reverseRecOn with
  | nil => cases h
  | append_singleton t a =>
    rw [List.flatMap_append, List.flatMap_singleton] at h
    have ha : c ∈ (U.up a).getLast? := by
      simpa [U.up_ne_nil a] using h
    exact ⟨a, by simp, U.isSpace_of_mem_up a c (List.mem_of_mem_getLast? ha)⟩

lemma stripped_pyUpper {t : Text} (h : Stripped t) : Stripped (pyUpper U t) := by
  constructor
  · intro c hc
    obtain ⟨a, ha, heq⟩ := isSpace_head_pyUpper hc
    rw [heq, h.1 a ha]
  · intro c hc
    obtain ⟨a, ha, heq⟩ := isSpace_getLast_pyUpper hc
    rw [heq, h.2 a ha]

lemma pyUpper_of_fixed {t : Text} (h : ∀ c ∈ t, U.up c = [c]) : pyUpper U t = t := by
  unfold pyUpper
  induction t with
  | nil => rfl
  | cons c t ih =>
    have hrest := ih (fun d hd => h d (List.mem_cons_of_mem _ hd))
    rw [List.flatMap_cons, h c List.mem_cons_self, hrest]
    rfl

lemma pyUpper_pyUpper (t : Text) : pyUpper U (pyUpper U t) = pyUpper U t := by
  apply pyUpper_of_fixed
  intro d hd
  obtain ⟨c, -, hc⟩ := List.mem_flatMap.mp hd
  exact U.up_of_mem_up c d hc

lemma pyUpper_append (s t : Text) : pyUpper U (s ++ t) = pyUpper U s ++ pyUpper U t :=
  List.flatMap_append

lemma pyUpper_of_lt {t : Text} (h : ∀ c ∈ t, c.toNat < 97) : pyUpper U t = t := by
  apply pyUpper_of_fixed
  intro c hc
  exact U.up_of_lt c (h c hc)

/-- `value.strip().upper()`. -/
def stripUpper (U : UpperTable) (t : Text) : Text := pyUpper U (pyStrip t)

@[simp] lemma stripUpper_stripUpper (t : Text) :
    stripUpper U (stripUpper U t) = stripUpper U t := by
  unfold stripUpper
  rw [pyStrip_of_stripped (stripped_pyUpper (stripped_pyStrip t)), pyUpper_pyUpper]

/-- Dropping white space commutes with a mapping that keeps it apart from the rest. -/
lemma dropWhile_isSpace_flatMap {f : Char → Text} (hne : ∀ c, f c ≠ [])
    (hspace : ∀ c, ∀ d ∈ f c, pyIsSpace d = pyIsSpace c) (t : Text) :
    (t.flatMap f).dropWhile pyIsSpace = (t.dropWhile pyIsSpace).flatMap f := by
  induction t with
  | nil => rfl
  | cons c t ih =>
    rw [List.flatMap_cons]
    cases hc : pyIsSpace c with
    | true =>
      have hall : ∀ d ∈ f c, pyIsSpace d = true := fun d hd => (hspace c d hd).trans hc
      rw [List.dropWhile_append_of_pos hall, ih, List.dropWhile_cons_of_pos hc]
    | false =>
      rw [List.dropWhile_cons_of_neg (by simp [hc]), List.flatMap_cons]
      cases hf : f c with
      | nil => exact absurd hf (hne c)
      | cons d ds =>
        have hd : pyIsSpace d = false := (hspace c d (hf ▸ List.mem_cons_self)).trans hc
        rw [List.cons_append, List.dropWhile_cons_of_neg (by simp [hd])]

lemma pyStrip_pyUpper (t : Text) : pyStrip (pyUpper U t) = pyUpper U (pyStrip t) := by
  have hrev : ∀ s : Text, (s.flatMap U.up).reverse = s.reverse.flatMap (fun c => (U.up c).reverse) :=
    fun s => by simp [List.reverse_flatMap, Function.comp_def]
  have hmap : ∀ s : Text, (s.flatMap (fun c => (U.up c).reverse)).reverse = s.reverse.flatMap U.up :=
    fun s => by simp [List.reverse_flatMap, Function.comp_def]
  unfold pyStrip pyUpper
  rw [dropWhile_isSpace_flatMap U.up_ne_nil U.isSpace_of_mem_up, hrev,
    dropWhile_isSpace_flatMap (fun c => by simp [U.up_ne_nil c])
      (fun c d hd => U.isSpace_of_mem_up c d (List.mem_reverse.mp hd)), hmap]

/-! ### Lower case, digits and patterns -/

/-- Lower case of a text that is only compared with words of ASCII letters other than `k`:
no other character is mapped to one of these letters. -/
def asciiLower (c : Char) : Char :=
  if 65 ≤ c.toNat ∧ c.toNat ≤ 90 then Char.ofNat (c.toNat + 32) else c

/-- Further tables: the letters that are equal for `re.IGNORECASE`, and the values of the
decimal digits. -/
structure UnicodeTables extends UpperTable where
  sameLetter : Char → Char → Bool
  decimal : Char → Option Nat

def asciiTables : UnicodeTables where
  toUpperTable := asciiTable
  sameLetter c d := asciiUp c = asciiUp d
  decimal c := if 48 ≤ c.toNat ∧ c.toNat ≤ 57 then some (c.toNat - 48) else none

/-- `int` of a text of decimal digits. -/
def decimalValue (T : UnicodeTables) (t : Text) : Nat :=
  t.foldl (fun n c => 10 * n + (T.decimal c).getD 0) 0

/-- `str` of a number. -/
def pyDigits (n : Nat) : Text := Nat.toDigits 10 n

/-- Filling up to a width from the left. -/
def padLeft (fill : Char) (width : Nat) (t : Text) : Text :=
  List.replicate (width - t.length) fill ++ t

lemma ofDigitChars_replicate_space (k init : Nat) :
    Nat.ofDigitChars 10 (List.replicate k ' ') init = 10 ^ k * init := by
  induction k generalizing init with
  | zero => simp
  | succ k ih =>
    rw [List.replicate_succ, Nat.ofDigitChars_cons, ih]
    simp [Nat.pow_succ, Nat.mul_assoc]

/-- Filling with zeros or blanks does not change the value of the digits. -/
lemma ofDigitChars_padLeft {fill : Char} (hfill : fill = '0' ∨ fill = ' ') (width n : Nat) :
    Nat.ofDigitChars 10 (padLeft fill width (pyDigits n)) 0 = n := by
  unfold padLeft pyDigits
  rw [Nat.ofDigitChars_append]
  rcases hfill with rfl | rfl
  · simp
  · rw [ofDigitChars_replicate_space]
    simp

lemma toNat_padLeft_lt {fill : Char} (hfill : fill = '0' ∨ fill = ' ') (width n : Nat) :
    ∀ c ∈ padLeft fill width (pyDigits n), c.toNat < 97 := by
  intro c hc
  rcases List.mem_append.mp hc with hpad | hdigit
  · rw [List.eq_of_mem_replicate hpad]
    rcases hfill with rfl | rfl <;> decide
  · have h := Nat.isDigit_of_mem_toDigits (by decide) (by decide) hdigit
    have hle : c.toNat ≤ 57 := (Char.isDigit_iff_toNat.mp h).2
    omega

/-- The tables give the ASCII digits their values. -/
structure DigitTables extends UnicodeTables where
  decimal_of_isDigit : ∀ c, c.isDigit = true → decimal c = some (c.toNat - 48)

lemma asciiTables_decimal_of_isDigit (c : Char) (hc : c.isDigit = true) :
    asciiTables.decimal c = some (c.toNat - 48) := if_pos (Char.isDigit_iff_toNat.mp hc)

lemma asciiTables_decimal_eq_none (c : Char) (hc : c.isDigit = false) : asciiTables.decimal c = none := by
  apply if_neg
  intro h
  rw [Char.isDigit_iff_toNat.mpr h] at hc
  cases hc

def asciiDigitTables : DigitTables where
  toUnicodeTables := asciiTables
  decimal_of_isDigit := asciiTables_decimal_of_isDigit

lemma isSpace_of_isDigit {c : Char} (h : c.isDigit = true) : pyIsSpace c = false := by
  have hdigit : 48 ≤ c.toNat ∧ c.toNat ≤ 57 := Char.isDigit_iff_toNat.mp h
  unfold pyIsSpace
  simp only [Bool.or_eq_false_iff, Bool.and_eq_false_iff, decide_eq_false_iff_not,
    beq_eq_false_iff_ne]
  omega

/-- The case of letters and `re.IGNORECASE` fit together: on ASCII both are as usual, a
character is equal to its upper case if that is one character and to no part of it if it is
several, equality is an equivalence, and equal characters are the same digit or no digit and
white space or not. White space is no digit. -/
structure LetterTables extends DigitTables where
  up_ascii : ∀ c, c.toNat < 128 → up c = [asciiUp c]
  sameLetter_ascii : ∀ c d, c.toNat < 128 → d.toNat < 128 →
    (sameLetter c d = true ↔ asciiUp c = asciiUp d)
  sameLetter_of_up : ∀ c d, up c = [d] → sameLetter c d = true
  sameLetter_of_two_le : ∀ c, 2 ≤ (up c).length → ∀ d ∈ up c, sameLetter c d = false
  sameLetter_equiv : Equivalence (fun c d => sameLetter c d = true)
  decimal_of_sameLetter : ∀ c d, sameLetter c d = true → decimal c = decimal d
  isSpace_of_sameLetter : ∀ c d, sameLetter c d = true → pyIsSpace c = pyIsSpace d
  decimal_of_isSpace : ∀ c, pyIsSpace c = true → decimal c = none

lemma asciiUp_of_isDigit {c : Char} (h : 48 ≤ c.toNat ∧ c.toNat ≤ 57) : asciiUp c = c := by
  rw [asciiUp, if_neg (by omega)]

lemma toNat_asciiUp (c : Char) :
    (48 ≤ (asciiUp c).toNat ∧ (asciiUp c).toNat ≤ 57) ↔ (48 ≤ c.toNat ∧ c.toNat ≤ 57) := by
  by_cases h : 97 ≤ c.toNat ∧ c.toNat ≤ 122
  · have hc : c = Char.ofNat c.toNat := (Char.ofNat_toNat c).symm
    generalize hn : c.toNat = n at h hc
    obtain ⟨hlow, hhigh⟩ := h
    subst hc
    clear hn
    interval_cases n <;> decide
  · rw [asciiUp, if_neg h]

lemma asciiTables_decimal_of_isSpace (c : Char) (h : pyIsSpace c = true) : asciiTables.decimal c = none := by
  apply asciiTables_decimal_eq_none
  by_contra hdigit
  rw [Bool.not_eq_false] at hdigit
  rw [isSpace_of_isDigit hdigit] at h
  cases h

def asciiLetterTables : LetterTables where
  toDigitTables := asciiDigitTables
  up_ascii _ _ := rfl
  sameLetter_ascii _ _ _ _ := decide_eq_true_iff
  sameLetter_of_up c d h := by
    have hd : asciiUp c = d := List.singleton_inj.mp h
    have hsame : asciiUp c = asciiUp d := by rw [← hd, (asciiUp_facts c).1]
    exact decide_eq_true hsame
  sameLetter_of_two_le _ h := absurd h (Nat.not_succ_le_self 1)
  sameLetter_equiv := by
    refine ⟨fun c => ?_, fun h => ?_, fun h h' => ?_⟩
    · exact decide_eq_true rfl
    · exact decide_eq_true (of_decide_eq_true h).symm
    · exact decide_eq_true ((of_decide_eq_true h).trans (of_decide_eq_true h'))
  decimal_of_sameLetter c d h := by
    have hup : asciiUp c = asciiUp d := of_decide_eq_true h
    have hiff := (toNat_asciiUp c).symm.trans (hup ▸ toNat_asciiUp d)
    change (if 48 ≤ c.toNat ∧ c.toNat ≤ 57 then some (c.toNat - 48) else none) =
      if 48 ≤ d.toNat ∧ d.toNat ≤ 57 then some (d.toNat - 48) else none
    by_cases hc : 48 ≤ c.toNat ∧ c.toNat ≤ 57
    · have hd := hiff.mp hc
      have heq : c = d := by
        rw [← asciiUp_of_isDigit hc, hup, asciiUp_of_isDigit hd]
      rw [heq]
    · rw [if_neg hc, if_neg (fun hd => hc (hiff.mpr hd))]
  isSpace_of_sameLetter c d h := by
    rw [← (asciiUp_facts c).2, of_decide_eq_true h, (asciiUp_facts d).2]
  decimal_of_isSpace := asciiTables_decimal_of_isSpace

lemma isDigit_padLeft_zero (width n : Nat) :
    ∀ c ∈ padLeft '0' width (pyDigits n), c.isDigit = true := by
  intro c hc
  rcases List.mem_append.mp hc with hpad | hdigit
  · rw [List.eq_of_mem_replicate hpad]
    decide
  · exact Nat.isDigit_of_mem_toDigits (by decide) (by decide) hdigit

lemma padLeft_zero_inj {width m n : Nat}
    (h : padLeft '0' width (pyDigits m) = padLeft '0' width (pyDigits n)) : m = n := by
  rw [← ofDigitChars_padLeft (.inl rfl) width m, h, ofDigitChars_padLeft (.inl rfl)]

lemma decimalValue_of_isDigit (T : DigitTables) {t : Text} (h : ∀ c ∈ t, c.isDigit = true) :
    decimalValue T.toUnicodeTables t = Nat.ofDigitChars 10 t 0 := by
  unfold decimalValue
  have hfold : ∀ k, t.foldl (fun n c => 10 * n + (T.decimal c).getD 0) k =
      Nat.ofDigitChars 10 t k := by
    induction t with
    | nil =>
      intro k
      rfl
    | cons c t ih =>
      intro k
      rw [List.foldl_cons, ih (fun d hd => h d (List.mem_cons_of_mem _ hd)),
        Nat.ofDigitChars_cons, T.decimal_of_isDigit c (h c List.mem_cons_self)]
      rfl
  exact hfold 0

lemma pyStrip_of_isDigit {t : Text} (h : ∀ c ∈ t, c.isDigit = true) : pyStrip t = t :=
  pyStrip_of_stripped ⟨fun c hc => isSpace_of_isDigit (h c (List.mem_of_mem_head? hc)),
    fun c hc => isSpace_of_isDigit (h c (List.mem_of_mem_getLast? hc))⟩

/-- A pattern without an escape finds the texts that begin with it. -/
lemma sqlLike_append {p : Text} (h : '\\' ∉ p) (t : Text) :
    sqlLike (p ++ ['%']) (p ++ t) = true := by
  induction p with
  | nil =>
    have hlast : sqlLike [] ([] : Text) = true := rfl
    rw [List.nil_append, List.nil_append, sqlLike]
    exact List.any_eq_true.mpr ⟨[], (List.mem_tails _ _).mpr (List.nil_suffix), hlast⟩
  | cons c p ih =>
    have hrest := ih (fun hc => h (List.mem_cons_of_mem _ hc))
    rw [List.cons_append, List.cons_append]
    by_cases hpercent : c = '%'
    · subst hpercent
      rw [sqlLike]
      exact List.any_eq_true.mpr ⟨p ++ t, (List.mem_tails _ _).mpr (List.suffix_cons _ _), hrest⟩
    · by_cases hunder : c = '_'
      · subst hunder
        rw [sqlLike]
        exact hrest
      · have hescape : c ≠ '\\' := by
          intro hc
          exact h (hc ▸ List.mem_cons_self)
        rw [sqlLike]
        · simp [hrest]
        all_goals simp_all

/-- A text without the characters that `LIKE` treats in another way. -/
def PlainPattern (p : Text) : Prop := ∀ c ∈ p, c ≠ '%' ∧ c ≠ '_' ∧ c ≠ '\\'

instance (p : Text) : Decidable (PlainPattern p) :=
  inferInstanceAs (Decidable (∀ c ∈ p, c ≠ '%' ∧ c ≠ '_' ∧ c ≠ '\\'))

lemma sqlLike_percent (t : Text) : sqlLike ['%'] t = true := by
  rw [sqlLike, List.any_eq_true]
  exact ⟨[], by simp, rfl⟩

lemma sqlLike_plain_percent {p : Text} (hp : PlainPattern p) (t : Text) :
    sqlLike (p ++ ['%']) t = true ↔ p <+: t := by
  induction p generalizing t with
  | nil => exact iff_of_true (sqlLike_percent t) (List.nil_prefix)
  | cons c p ih =>
    obtain ⟨hpercent, hunderscore, hback⟩ := hp c List.mem_cons_self
    have htail : PlainPattern p := fun d hd => hp d (List.mem_cons_of_mem c hd)
    cases t with
    | nil => simp [sqlLike]
    | cons d t =>
      rw [List.cons_append, sqlLike, Bool.and_eq_true, ih htail, List.cons_prefix_cons, beq_iff_eq]
      · exact hpercent
      · exact hunderscore
      · intro _ _ h
        exact absurd h hback

end IpDocket.Lib
