import Mathlib.Data.List.Forall2
import IpDocket.Case.OurRefTemplate

/-!
# What a pattern reads

`matchPattern` tries the lengths of a number and of an open country from the longest to the
shortest. `Reads` says which texts a pattern reads at all; a match is a reading, and the number
that it finds is the longest one at its place. A text can be read in several ways when an open
country stands next to the number; `Fenced` says what has to stand between the two.
-/

namespace IpDocket.Case
open IpDocket.Lib

variable (T : UnicodeTables)

/-- A digit for `\d`. -/
def isDecimal (c : Char) : Bool := (T.decimal c).isSome

/-- A character of `[A-Z0-9]`, up to case. -/
def isCountryChar (c : Char) : Bool :=
  ("ABCDEFGHIJKLMNOPQRSTUVWXYZ0123456789".toList).any (T.sameLetter c)

inductive Reads : List PatternPart → Text → Prop
  | nil : Reads [] []
  | char {c d parts t} : T.sameLetter c d = true → Reads parts t → Reads (.char c :: parts) (d :: t)
  | num {digits parts t} : digits ≠ [] → (∀ c ∈ digits, isDecimal T c = true) → Reads parts t →
      Reads (.num :: parts) (digits ++ t)
  | country {name parts t} : name ≠ [] → name.length ≤ 8 →
      (∀ c ∈ name, isCountryChar T c = true) → Reads parts t →
      Reads (.country :: parts) (name ++ t)

variable {T}

lemma mem_greedyLengths {length k : Nat} : k ∈ greedyLengths length ↔ 1 ≤ k ∧ k ≤ length := by
  simp only [greedyLengths, List.mem_reverse, List.mem_map, List.mem_range]
  constructor
  · rintro ⟨j, hj, rfl⟩
    omega
  · intro h
    exact ⟨k - 1, by omega, by omega⟩

lemma pairwise_greedyLengths (length : Nat) : (greedyLengths length).Pairwise (· > ·) := by
  unfold greedyLengths
  rw [List.pairwise_reverse, List.pairwise_map]
  exact (List.pairwise_lt_range).imp (fun h => by omega)

/-- The length that is found has a result, and no greater one has. -/
lemma findSome?_greedyLengths {α : Type} {f : Nat → Option α} {length : Nat} {b : α}
    (h : (greedyLengths length).findSome? f = some b) :
    ∃ k, 1 ≤ k ∧ k ≤ length ∧ f k = some b ∧ ∀ j, k < j → j ≤ length → f j = none := by
  obtain ⟨before, k, after, hsplit, hk, hbefore⟩ := List.findSome?_eq_some_iff.mp h
  have hmem : k ∈ greedyLengths length := by
    rw [hsplit]
    simp
  obtain ⟨hone, hle⟩ := mem_greedyLengths.mp hmem
  refine ⟨k, hone, hle, hk, ?_⟩
  intro j hj hjle
  apply hbefore
  have hpairwise := pairwise_greedyLengths length
  rw [hsplit] at hpairwise
  have hj' : j ∈ before ++ k :: after := hsplit ▸ mem_greedyLengths.mpr ⟨by omega, hjle⟩
  rcases List.mem_append.mp hj' with hbeforej | hafter
  · exact hbeforej
  · -- what comes after `k` is not greater than `k`
    rcases List.mem_cons.mp hafter with rfl | hrest
    · omega
    · have hlt := List.rel_of_pairwise_cons (List.pairwise_append.mp hpairwise).2.1 hrest
      omega

lemma isSome_findSome?_greedyLengths {α : Type} {f : Nat → Option α} {length k : Nat}
    (hone : 1 ≤ k) (hle : k ≤ length) (h : (f k).isSome = true) :
    ((greedyLengths length).findSome? f).isSome = true := by
  rw [List.findSome?_isSome_iff]
  exact ⟨k, mem_greedyLengths.mpr ⟨hone, hle⟩, h⟩

lemma length_le_takeWhile {p : Char → Bool} {s t : Text} (h : ∀ c ∈ s, p c = true) :
    s.length ≤ ((s ++ t).takeWhile p).length := by
  rw [List.takeWhile_append_of_pos h, List.length_append]
  omega

lemma take_of_le_takeWhile {p : Char → Bool} {t : Text} {k : Nat}
    (h : k ≤ (t.takeWhile p).length) : ∀ c ∈ t.take k, p c = true := by
  intro c hc
  have htaken : t.take k <+: t.takeWhile p := by
    apply List.prefix_of_prefix_length_le (List.take_prefix k t) (List.takeWhile_prefix p)
    rw [List.length_take]
    omega
  exact List.all_eq_true.mp List.all_takeWhile c (htaken.subset hc)

lemma take_ne_nil_of_le_takeWhile {p : Char → Bool} {t : Text} {k : Nat} (hone : 1 ≤ k)
    (h : k ≤ (t.takeWhile p).length) : t.take k ≠ [] := by
  have hlen := (List.takeWhile_sublist (l := t) p).length_le
  rw [← List.length_pos_iff, List.length_take]
  omega

@[simp] lemma reads_nil_iff {t : Text} : Reads T [] t ↔ t = [] := by
  constructor
  · intro h
    cases h
    rfl
  · rintro rfl
    exact .nil

lemma isSome_matchPattern_iff (parts : List PatternPart) (t : Text) :
    (matchPattern T parts t).isSome = true ↔ Reads T parts t := by
  induction parts generalizing t with
  | nil =>
    rw [matchPattern, reads_nil_iff]
    split
    · next h => simp [h]
    · next h => simp [h]
  | cons part parts ih =>
    cases part with
    | char c =>
      cases t with
      | nil =>
        rw [matchPattern]
        exact ⟨nofun, nofun⟩
      | cons d t =>
        rw [matchPattern]
        constructor
        · intro h
          split at h
          · next hsame => exact .char hsame ((ih t).mp h)
          · cases h
        · intro h
          cases h with
          | char hsame hrest => rw [if_pos hsame, ih]; exact hrest
    | num =>
      rw [matchPattern]
      constructor
      · intro h
        obtain ⟨b, hb⟩ := Option.isSome_iff_exists.mp h
        obtain ⟨k, hone, hle, hk, -⟩ := findSome?_greedyLengths hb
        have hrest : (matchPattern T parts (t.drop k)).isSome = true := by
          rw [← Option.isSome_map, hk]
          rfl
        have hdigits := take_of_le_takeWhile hle
        rw [← List.take_append_drop k t]
        exact .num (take_ne_nil_of_le_takeWhile hone hle) hdigits ((ih _).mp hrest)
      · intro h
        cases h with
        | @num digits _ t' hne hdigits hrest =>
          apply isSome_findSome?_greedyLengths (List.length_pos_iff.mpr hne)
            (length_le_takeWhile hdigits)
          rw [Option.isSome_map, List.drop_left, ih]
          exact hrest
    | country =>
      rw [matchPattern]
      constructor
      · intro h
        obtain ⟨b, hb⟩ := Option.isSome_iff_exists.mp h
        obtain ⟨k, hone, hle, hk, -⟩ := findSome?_greedyLengths hb
        have hrest : (matchPattern T parts (t.drop k)).isSome = true := by
          rw [hk]
          rfl
        have hrun := hle.trans (Nat.min_le_right _ _)
        have hname := take_of_le_takeWhile hrun
        rw [← List.take_append_drop k t]
        refine .country (take_ne_nil_of_le_takeWhile hone hrun) ?_ hname ((ih _).mp hrest)
        rw [List.length_take]
        omega
      · intro h
        cases h with
        | @country name _ t' hne hlen hname hrest =>
          apply isSome_findSome?_greedyLengths (List.length_pos_iff.mpr hne)
            (Nat.le_min.mpr ⟨hlen, length_le_takeWhile hname⟩)
          rw [List.drop_left, ih]
          exact hrest

lemma reads_append_iff {ps qs : List PatternPart} {t : Text} :
    Reads T (ps ++ qs) t ↔ ∃ u v, t = u ++ v ∧ Reads T ps u ∧ Reads T qs v := by
  constructor
  · intro h
    induction ps generalizing t with
    | nil => exact ⟨[], t, rfl, .nil, h⟩
    | cons part ps ih =>
      cases h with
      | char hsame hrest =>
        obtain ⟨u, v, rfl, hu, hv⟩ := ih hrest
        exact ⟨_ :: u, v, rfl, .char hsame hu, hv⟩
      | num hne hdigits hrest =>
        obtain ⟨u, v, rfl, hu, hv⟩ := ih hrest
        exact ⟨_ ++ u, v, (List.append_assoc _ _ _).symm, .num hne hdigits hu, hv⟩
      | country hne hlen hname hrest =>
        obtain ⟨u, v, rfl, hu, hv⟩ := ih hrest
        exact ⟨_ ++ u, v, (List.append_assoc _ _ _).symm, .country hne hlen hname hu, hv⟩
  · rintro ⟨u, v, rfl, hu, hv⟩
    induction hu with
    | nil => exact hv
    | char hsame _ ih => exact .char hsame ih
    | num hne hdigits _ ih =>
      rw [List.append_assoc]
      exact .num hne hdigits ih
    | country hne hlen hname _ ih =>
      rw [List.append_assoc]
      exact .country hne hlen hname ih

/-- Fixed characters are read one by one. -/
lemma reads_map_char_iff {fixed t : Text} :
    Reads T (fixed.map PatternPart.char) t ↔
      List.Forall₂ (fun c d => T.sameLetter c d = true) fixed t := by
  induction fixed generalizing t with
  | nil => rw [List.map_nil, reads_nil_iff, List.forall₂_nil_left_iff]
  | cons c fixed ih =>
    constructor
    · intro h
      cases h with
      | char hsame hrest => exact .cons hsame (ih.mp hrest)
    · intro h
      cases h with
      | cons hsame hrest => exact .char hsame (ih.mpr hrest)

/-- A reading of a pattern with one number, cut at the number. -/
structure NumReading (T : UnicodeTables) (before after : List PatternPart)
    (t left digits right : Text) : Prop where
  text : t = left ++ (digits ++ right)
  left : Reads T before left
  ne : digits ≠ []
  digits : ∀ c ∈ digits, isDecimal T c = true
  right : Reads T after right

lemma NumReading.reads {before after : List PatternPart} {t left digits right : Text}
    (h : NumReading T before after t left digits right) :
    Reads T (before ++ .num :: after) t :=
  reads_append_iff.mpr ⟨left, _, h.text, h.left, .num h.ne h.digits h.right⟩

/-- What a match finds: its number is that of a reading, and the longest one that can stand at
its place. -/
lemma numReading_of_matchPattern {before after : List PatternPart}
    (hbefore : PatternPart.num ∉ before) {t : Text} {r : Option Text}
    (h : matchPattern T (before ++ .num :: after) t = some r) :
    ∃ left digits right, r = some digits ∧ NumReading T before after t left digits right ∧
      ∀ digits' right', digits ++ right = digits' ++ right' →
        (∀ c ∈ digits', isDecimal T c = true) → Reads T after right' →
        digits'.length ≤ digits.length := by
  induction before generalizing t r with
  | nil =>
    rw [List.nil_append, matchPattern] at h
    obtain ⟨k, hone, hle, hk, hlonger⟩ := findSome?_greedyLengths h
    obtain ⟨r', hr', rfl⟩ := Option.map_eq_some_iff.mp hk
    have hrest : Reads T after (t.drop k) := by
      rw [← isSome_matchPattern_iff, hr']
      rfl
    have hlen : (t.take k).length = k := by
      have hrun := (List.takeWhile_sublist (l := t) (isDecimal T)).length_le
      change k ≤ (t.takeWhile (isDecimal T)).length at hle
      rw [List.length_take]
      omega
    refine ⟨[], t.take k, t.drop k, rfl, ⟨(List.take_append_drop k t).symm, .nil,
      take_ne_nil_of_le_takeWhile hone hle, take_of_le_takeWhile hle, hrest⟩, ?_⟩
    intro digits' right' htext hdigits' hright'
    rw [List.take_append_drop] at htext
    -- a longer number would have been tried before
    by_contra hlong
    rw [hlen] at hlong
    have hrun : digits'.length ≤ (t.takeWhile (isDecimal T)).length :=
      htext ▸ length_le_takeWhile hdigits'
    have hnone := hlonger digits'.length (by omega) hrun
    rw [Option.map_eq_none_iff, htext, List.drop_left] at hnone
    have hsome := (isSome_matchPattern_iff after right').mpr hright'
    rw [hnone] at hsome
    cases hsome
  | cons part before ih =>
    have hrestNum : PatternPart.num ∉ before := fun hmem => hbefore (List.mem_cons_of_mem _ hmem)
    cases part with
    | num => exact absurd List.mem_cons_self hbefore
    | char c =>
      cases t with
      | nil => cases h
      | cons d t =>
        rw [List.cons_append, matchPattern] at h
        split at h
        · next hsame =>
          obtain ⟨left, digits, right, hr, hreading, hlongest⟩ := ih hrestNum h
          exact ⟨d :: left, digits, right, hr, ⟨congrArg (d :: ·) hreading.text,
            .char hsame hreading.left, hreading.ne, hreading.digits, hreading.right⟩, hlongest⟩
        · cases h
    | country =>
      rw [List.cons_append, matchPattern] at h
      obtain ⟨k, hone, hle, hk, -⟩ := findSome?_greedyLengths h
      obtain ⟨left, digits, right, hr, hreading, hlongest⟩ := ih hrestNum hk
      have hrun := hle.trans (Nat.min_le_right _ _)
      have htext : t = (t.take k ++ left) ++ (digits ++ right) := by
        rw [List.append_assoc, ← hreading.text, List.take_append_drop]
      have hlen : (t.take k).length ≤ 8 := by
        rw [List.length_take]
        omega
      exact ⟨t.take k ++ left, digits, right, hr, ⟨htext,
        .country (take_ne_nil_of_le_takeWhile hone hrun) hlen (take_of_le_takeWhile hrun)
          hreading.left, hreading.ne, hreading.digits, hreading.right⟩, hlongest⟩

/-- The first characters of a kind end at the same place however the text is cut. -/
lemma append_cons_inj_of_first {p : Char → Bool} {a b a' b' : Text} {x x' : Char}
    (ha : ∀ c ∈ a, p c = true) (ha' : ∀ c ∈ a', p c = true) (hx : p x = false)
    (hx' : p x' = false) (h : a ++ x :: b = a' ++ x' :: b') : a = a' ∧ x :: b = x' :: b' := by
  have hlen : a = a' := by
    have htake := congrArg (List.takeWhile p) h
    rw [List.takeWhile_append_of_pos ha, List.takeWhile_append_of_pos ha',
      List.takeWhile_cons_of_neg (by simp [hx]), List.takeWhile_cons_of_neg (by simp [hx'])] at htake
    simpa using htake
  subst hlen
  exact ⟨rfl, List.append_cancel_left h⟩

/-- So do the last ones. -/
lemma append_cons_inj_of_last {p : Char → Bool} {a b a' b' : Text} {x x' : Char}
    (hb : ∀ c ∈ b, p c = true) (hb' : ∀ c ∈ b', p c = true) (hx : p x = false)
    (hx' : p x' = false) (h : a ++ x :: b = a' ++ x' :: b') : b = b' := by
  have hrev : b.reverse ++ x :: a.reverse = b'.reverse ++ x' :: a'.reverse := by
    simpa using congrArg List.reverse h
  have hb₂ : ∀ c ∈ b.reverse, p c = true := fun c hc => hb c (List.mem_reverse.mp hc)
  have hb₂' : ∀ c ∈ b'.reverse, p c = true := fun c hc => hb' c (List.mem_reverse.mp hc)
  exact List.reverse_injective (append_cons_inj_of_first hb₂ hb₂' hx hx' hrev).1

/-- Two places with as many characters of a kind before them are one. -/
lemma append_cons_inj_of_countP {p : Char → Bool} {a b a' b' : Text} {x x' : Char}
    (hx : p x = true) (hx' : p x' = true) (hcount : a.countP p = a'.countP p)
    (h : a ++ x :: b = a' ++ x' :: b') : a = a' := by
  induction a generalizing a' with
  | nil =>
    cases a' with
    | nil => rfl
    | cons c a' =>
      rw [List.nil_append, List.cons_append] at h
      obtain ⟨rfl, -⟩ := List.cons.inj h
      rw [List.countP_cons_of_pos hx] at hcount
      simp at hcount
  | cons c a ih =>
    cases a' with
    | nil =>
      rw [List.nil_append, List.cons_append] at h
      obtain ⟨rfl, -⟩ := List.cons.inj h
      rw [List.countP_cons_of_pos hx'] at hcount
      simp at hcount
    | cons c' a' =>
      rw [List.cons_append, List.cons_append] at h
      obtain ⟨rfl, htail⟩ := List.cons.inj h
      have hrest : a.countP p = a'.countP p := by
        rw [List.countP_cons, List.countP_cons] at hcount
        omega
      rw [ih hrest htail]

/-- The fixed characters at the beginning of a pattern. -/
def leadChars : List PatternPart → Text
  | .char c :: parts => c :: leadChars parts
  | _ => []

/-- The fixed characters at the end of a pattern. -/
def tailChars (parts : List PatternPart) : Text := (leadChars parts.reverse).reverse

lemma leadChars_spec (parts : List PatternPart) :
    ∃ rest, parts = (leadChars parts).map PatternPart.char ++ rest ∧
      (rest ≠ [] → PatternPart.num ∉ parts → ∃ rest', rest = .country :: rest') := by
  induction parts with
  | nil => exact ⟨[], rfl, fun h => absurd rfl h⟩
  | cons part parts ih =>
    cases part with
    | char c =>
      obtain ⟨rest, hrest, hcountry⟩ := ih
      refine ⟨rest, by rw [leadChars, List.map_cons, List.cons_append, ← hrest], ?_⟩
      intro hne hnum
      exact hcountry hne (fun hmem => hnum (List.mem_cons_of_mem _ hmem))
    | num => exact ⟨_, rfl, fun _ hnum => absurd List.mem_cons_self hnum⟩
    | country => exact ⟨_, rfl, fun _ _ => ⟨parts, rfl⟩⟩

lemma tailChars_spec (parts : List PatternPart) :
    ∃ rest, parts = rest ++ (tailChars parts).map PatternPart.char := by
  obtain ⟨rest, hrest, -⟩ := leadChars_spec parts.reverse
  refine ⟨rest.reverse, ?_⟩
  have hrev := congrArg List.reverse hrest
  rw [List.reverse_reverse, List.reverse_append, ← List.map_reverse] at hrev
  exact hrev

lemma eq_map_char_of_fixed {parts : List PatternPart} (hnum : PatternPart.num ∉ parts)
    (hcountry : PatternPart.country ∉ parts) : ∃ fixed : Text, parts = fixed.map PatternPart.char := by
  obtain ⟨rest, hrest, hshape⟩ := leadChars_spec parts
  by_cases hne : rest = []
  · exact ⟨leadChars parts, by rw [hne, List.append_nil] at hrest; exact hrest⟩
  · obtain ⟨rest', rfl⟩ := hshape hne hnum
    exact absurd (hrest ▸ List.mem_append_right _ List.mem_cons_self) hcountry

/-- The number cannot begin elsewhere: nothing before it is open, or a character that no
country has stands between. -/
def StartFixed (T : UnicodeTables) (before : List PatternPart) : Prop :=
  PatternPart.country ∉ before ∨ ∃ c ∈ tailChars before, isCountryChar T c = false

/-- The number cannot end elsewhere. -/
def EndFixed (T : UnicodeTables) (after : List PatternPart) : Prop :=
  PatternPart.country ∉ after ∨ ∃ c ∈ leadChars after, isCountryChar T c = false

/-- What keeps the number apart from the open countries. Where one side is fixed, the other
one needs no more than a character that is no digit. -/
structure Fenced (T : UnicodeTables) (before after : List PatternPart) (country : Text) :
    Prop where
  start : StartFixed T before ∨ EndFixed T after ∧ ∃ c ∈ tailChars before, isDecimal T c = false
  stop : EndFixed T after ∨ StartFixed T before ∧
    ((∃ c ∈ leadChars after, isDecimal T c = false) ∨
      ∃ c ∈ country.head?, isDecimal T c = false)

/-! ### A fenced number is found in one way only -/

section Unique

variable (L : LetterTables)

lemma isDecimal_of_sameLetter {c d : Char} (h : L.sameLetter c d = true) :
    isDecimal L.toUnicodeTables c = isDecimal L.toUnicodeTables d := by
  unfold isDecimal
  rw [L.decimal_of_sameLetter c d h]

lemma isCountryChar_of_sameLetter {c d : Char} (h : L.sameLetter c d = true) :
    isCountryChar L.toUnicodeTables c = isCountryChar L.toUnicodeTables d := by
  unfold isCountryChar
  congr 1
  funext x
  rw [Bool.eq_iff_iff]
  constructor
  · intro hc
    exact L.sameLetter_equiv.trans (L.sameLetter_equiv.symm h) hc
  · intro hd
    exact L.sameLetter_equiv.trans h hd

/-- A character that no country has. -/
def separates (c : Char) : Bool := !isCountryChar L.toUnicodeTables c

def isSeparator : PatternPart → Bool
  | .char c => separates L c
  | _ => false

lemma separates_of_sameLetter {c d : Char} (h : L.sameLetter c d = true)
    (hc : isCountryChar L.toUnicodeTables c = false) : separates L d = true := by
  unfold separates
  rw [← isCountryChar_of_sameLetter L h, hc]
  rfl

/-- Every reading has the separators of the pattern and no others. -/
lemma countP_of_reads {parts : List PatternPart} {t : Text} (hnum : PatternPart.num ∉ parts)
    (h : Reads L.toUnicodeTables parts t) :
    t.countP (separates L) = parts.countP (isSeparator L) := by
  induction h with
  | nil => rfl
  | @char c d parts t hsame hrest ih =>
    have hih := ih (fun hmem => hnum (List.mem_cons_of_mem _ hmem))
    rw [List.countP_cons, List.countP_cons, hih, isSeparator, separates, separates,
      isCountryChar_of_sameLetter L hsame]
  | num hne hdigits hrest ih => exact absurd List.mem_cons_self hnum
  | @country name parts t hne hlen hname hrest ih =>
    have hih := ih (fun hmem => hnum (List.mem_cons_of_mem _ hmem))
    have hzero : name.countP (separates L) = 0 := by
      rw [List.countP_eq_zero]
      intro c hc
      simp [separates, hname c hc]
    rw [List.countP_append, hzero, hih, Nat.zero_add, List.countP_cons]
    rfl

/-- A reading around a fixed character. -/
lemma reads_char_split {ps qs : List PatternPart} {c : Char} {t : Text}
    (h : Reads L.toUnicodeTables (ps ++ .char c :: qs) t) :
    ∃ u d v, t = u ++ d :: v ∧ Reads L.toUnicodeTables ps u ∧ L.sameLetter c d = true ∧
      Reads L.toUnicodeTables qs v := by
  obtain ⟨u, v, rfl, hu, hv⟩ := reads_append_iff.mp h
  cases hv with
  | char hsame hrest => exact ⟨u, _, _, rfl, hu, hsame, hrest⟩

lemma length_of_reads_fixed {fixed t : Text}
    (h : Reads L.toUnicodeTables (fixed.map PatternPart.char) t) : t.length = fixed.length :=
  (reads_map_char_iff.mp h).length_eq.symm

lemma left_eq_of_startFixed {before : List PatternPart} (hnum : PatternPart.num ∉ before)
    (hfixed : StartFixed L.toUnicodeTables before) {u v u' v' : Text}
    (hu : Reads L.toUnicodeTables before u) (hu' : Reads L.toUnicodeTables before u')
    (h : u ++ v = u' ++ v') : u = u' ∧ v = v' := by
  rcases hfixed with hcountry | ⟨c, hc, hsep⟩
  · obtain ⟨fixed, rfl⟩ := eq_map_char_of_fixed hnum hcountry
    apply List.append_inj h
    rw [length_of_reads_fixed L hu, length_of_reads_fixed L hu']
  · obtain ⟨rest, hrest⟩ := tailChars_spec before
    obtain ⟨front, back, hsplit⟩ := List.append_of_mem hc
    have hbefore : before = (rest ++ front.map PatternPart.char) ++
        .char c :: back.map PatternPart.char := by
      rw [hrest, hsplit]
      simp
    rw [hbefore] at hu hu' hnum
    have hfrontNum : PatternPart.num ∉ rest ++ front.map PatternPart.char :=
      fun hmem => hnum (List.mem_append_left _ hmem)
    obtain ⟨a, d, b, rfl, ha, hd, hb⟩ := reads_char_split L hu
    obtain ⟨a', d', b', rfl, ha', hd', hb'⟩ := reads_char_split L hu'
    have hcount := (countP_of_reads L hfrontNum ha).trans (countP_of_reads L hfrontNum ha').symm
    rw [List.append_assoc, List.append_assoc, List.cons_append, List.cons_append] at h
    have heq : a = a' := by
      exact append_cons_inj_of_countP (separates_of_sameLetter L hd hsep)
        (separates_of_sameLetter L hd' hsep) hcount h
    rw [← List.cons_append, ← List.cons_append, ← List.append_assoc, ← List.append_assoc] at h
    apply List.append_inj h
    rw [heq, List.length_append, List.length_append, List.length_cons, List.length_cons,
      length_of_reads_fixed L hb, length_of_reads_fixed L hb']

lemma right_eq_of_endFixed {after : List PatternPart} (hnum : PatternPart.num ∉ after)
    (hfixed : EndFixed L.toUnicodeTables after) {u v u' v' : Text}
    (hv : Reads L.toUnicodeTables after v) (hv' : Reads L.toUnicodeTables after v')
    (h : u ++ v = u' ++ v') : u = u' ∧ v = v' := by
  rcases hfixed with hcountry | ⟨c, hc, hsep⟩
  · obtain ⟨fixed, rfl⟩ := eq_map_char_of_fixed hnum hcountry
    refine List.append_inj' h ?_
    rw [length_of_reads_fixed L hv, length_of_reads_fixed L hv']
  · obtain ⟨rest, hrest, -⟩ := leadChars_spec after
    obtain ⟨front, back, hsplit⟩ := List.append_of_mem hc
    have hafter : after = front.map PatternPart.char ++
        .char c :: (back.map PatternPart.char ++ rest) := by
      rw [hrest, hsplit]
      simp
    rw [hafter] at hv hv' hnum
    have hbackNum : PatternPart.num ∉ back.map PatternPart.char ++ rest :=
      fun hmem => hnum (List.mem_append_right _ (List.mem_cons_of_mem _ hmem))
    obtain ⟨a, d, b, rfl, ha, hd, hb⟩ := reads_char_split L hv
    obtain ⟨a', d', b', rfl, ha', hd', hb'⟩ := reads_char_split L hv'
    rw [← List.append_assoc, ← List.append_assoc] at h
    have hdsep := separates_of_sameLetter L hd hsep
    have hdsep' := separates_of_sameLetter L hd' hsep
    -- as many separators follow in both readings, so as many come before
    have hcount : (u ++ a).countP (separates L) =
        (u' ++ a').countP (separates L) := by
      have hall := congrArg (List.countP (separates L)) h
      have hsame := (countP_of_reads L hbackNum hb).trans (countP_of_reads L hbackNum hb').symm
      simp only [List.countP_append, List.countP_cons_of_pos hdsep,
        List.countP_cons_of_pos hdsep', hsame] at hall ⊢
      omega
    have heq := append_cons_inj_of_countP hdsep hdsep' hcount h
    have hlen : u.length = u'.length := by
      have hlength := congrArg List.length heq
      rw [List.length_append, List.length_append, length_of_reads_fixed L ha,
        length_of_reads_fixed L ha'] at hlength
      omega
    rw [List.append_assoc, List.append_assoc] at h
    exact List.append_inj h hlen

/-- The first character that fails a test. -/
lemma split_of_first {p : Char → Bool} {t : Text} (h : ∃ c ∈ t, p c = false) :
    ∃ a x b, t = a ++ x :: b ∧ (∀ c ∈ a, p c = true) ∧ p x = false := by
  induction t with
  | nil => simp at h
  | cons c t ih =>
    cases hc : p c with
    | false => exact ⟨[], c, t, rfl, by simp, hc⟩
    | true =>
      have hrest : ∃ d ∈ t, p d = false := by
        obtain ⟨d, hd, hpd⟩ := h
        rcases List.mem_cons.mp hd with rfl | hmem
        · rw [hc] at hpd
          cases hpd
        · exact ⟨d, hmem, hpd⟩
      obtain ⟨a, x, b, rfl, ha, hx⟩ := ih hrest
      refine ⟨c :: a, x, b, rfl, ?_, hx⟩
      intro d hd
      rcases List.mem_cons.mp hd with rfl | hmem
      · exact hc
      · exact ha d hmem

/-- The last one. -/
lemma split_of_last {p : Char → Bool} {t : Text} (h : ∃ c ∈ t, p c = false) :
    ∃ a x b, t = a ++ x :: b ∧ (∀ c ∈ b, p c = true) ∧ p x = false := by
  have hrev : ∃ c ∈ t.reverse, p c = false := by simpa using h
  obtain ⟨a, x, b, heq, ha, hx⟩ := split_of_first hrev
  refine ⟨b.reverse, x, a.reverse, ?_, fun c hc => ha c (List.mem_reverse.mp hc), hx⟩
  have := congrArg List.reverse heq
  simpa using this

/-- Fixed digits are read as digits. -/
lemma isDecimal_of_reads_fixed {fixed t : Text}
    (hfixed : ∀ c ∈ fixed, isDecimal L.toUnicodeTables c = true)
    (h : Reads L.toUnicodeTables (fixed.map PatternPart.char) t) :
    ∀ c ∈ t, isDecimal L.toUnicodeTables c = true := by
  have hforall := reads_map_char_iff.mp h
  induction hforall with
  | nil => simp
  | @cons c d fixed t hsame hrest ih =>
    intro x hx
    rcases List.mem_cons.mp hx with rfl | hmem
    · rw [← isDecimal_of_sameLetter L hsame]
      exact hfixed c List.mem_cons_self
    · exact ih (fun y hy => hfixed y (List.mem_cons_of_mem _ hy)) (reads_map_char_iff.mpr hrest)
        x hmem

/-- A fixed character after the number that is no digit ends it. -/
lemma digits_eq_of_lead {after : List PatternPart} {digits right digits' right' : Text}
    (hlead : ∃ c ∈ leadChars after, isDecimal L.toUnicodeTables c = false)
    (hdigits : ∀ c ∈ digits, isDecimal L.toUnicodeTables c = true)
    (hdigits' : ∀ c ∈ digits', isDecimal L.toUnicodeTables c = true)
    (hright : Reads L.toUnicodeTables after right) (hright' : Reads L.toUnicodeTables after right')
    (h : digits ++ right = digits' ++ right') : digits = digits' := by
  obtain ⟨rest, hrest, -⟩ := leadChars_spec after
  obtain ⟨front, g, back, hsplit, hfront, hg⟩ := split_of_first hlead
  have hafter : after = front.map PatternPart.char ++
      .char g :: (back.map PatternPart.char ++ rest) := by
    rw [hrest, hsplit]
    simp
  rw [hafter] at hright hright'
  obtain ⟨w, d, u, rfl, hw, hd, -⟩ := reads_char_split L hright
  obtain ⟨w', d', u', rfl, hw', hd', -⟩ := reads_char_split L hright'
  rw [← List.append_assoc, ← List.append_assoc] at h
  have hall : ∀ c ∈ digits ++ w, isDecimal L.toUnicodeTables c = true :=
    List.forall_mem_append.mpr ⟨hdigits, isDecimal_of_reads_fixed L hfront hw⟩
  have hall' : ∀ c ∈ digits' ++ w', isDecimal L.toUnicodeTables c = true :=
    List.forall_mem_append.mpr ⟨hdigits', isDecimal_of_reads_fixed L hfront hw'⟩
  have heq := (append_cons_inj_of_first hall hall' (isDecimal_of_sameLetter L hd ▸ hg)
    (isDecimal_of_sameLetter L hd' ▸ hg) h).1
  refine (List.append_inj' heq ?_).1
  rw [length_of_reads_fixed L hw, length_of_reads_fixed L hw']

/-- A fixed character before the number that is no digit begins it. -/
lemma digits_eq_of_tail {before : List PatternPart} {left digits left' digits' : Text}
    (htail : ∃ c ∈ tailChars before, isDecimal L.toUnicodeTables c = false)
    (hdigits : ∀ c ∈ digits, isDecimal L.toUnicodeTables c = true)
    (hdigits' : ∀ c ∈ digits', isDecimal L.toUnicodeTables c = true)
    (hleft : Reads L.toUnicodeTables before left) (hleft' : Reads L.toUnicodeTables before left')
    (h : left ++ digits = left' ++ digits') : digits = digits' := by
  obtain ⟨rest, hrest⟩ := tailChars_spec before
  obtain ⟨front, g, back, hsplit, hback, hg⟩ := split_of_last htail
  have hbefore : before = (rest ++ front.map PatternPart.char) ++
      .char g :: back.map PatternPart.char := by
    rw [hrest, hsplit]
    simp
  rw [hbefore] at hleft hleft'
  obtain ⟨u, d, w, rfl, -, hd, hw⟩ := reads_char_split L hleft
  obtain ⟨u', d', w', rfl, -, hd', hw'⟩ := reads_char_split L hleft'
  rw [List.append_assoc, List.append_assoc, List.cons_append, List.cons_append] at h
  have hall : ∀ c ∈ w ++ digits, isDecimal L.toUnicodeTables c = true :=
    List.forall_mem_append.mpr ⟨isDecimal_of_reads_fixed L hback hw, hdigits⟩
  have hall' : ∀ c ∈ w' ++ digits', isDecimal L.toUnicodeTables c = true :=
    List.forall_mem_append.mpr ⟨isDecimal_of_reads_fixed L hback hw', hdigits'⟩
  have heq := append_cons_inj_of_last hall hall' (isDecimal_of_sameLetter L hd ▸ hg)
    (isDecimal_of_sameLetter L hd' ▸ hg) h
  refine (List.append_inj heq ?_).2
  rw [length_of_reads_fixed L hw, length_of_reads_fixed L hw']

/-- A country after the number that begins with no digit is not read into it. -/
lemma length_le_of_country {after rest : List PatternPart} {country : Text}
    {digits right digits' right' : Text}
    (hafter : after = (leadChars after).map PatternPart.char ++ .country :: rest)
    (hlead : ∀ c ∈ leadChars after, isDecimal L.toUnicodeTables c = true)
    (hhead : ∃ c ∈ country.head?, isDecimal L.toUnicodeTables c = false)
    (hcountry : ∃ w u, right = w ++ (country ++ u) ∧ w.length = (leadChars after).length)
    (hdigits : ∀ c ∈ digits, isDecimal L.toUnicodeTables c = true)
    (hdigits' : ∀ c ∈ digits', isDecimal L.toUnicodeTables c = true)
    (hright : Reads L.toUnicodeTables after right) (hright' : Reads L.toUnicodeTables after right')
    (h : digits ++ right = digits' ++ right') : digits'.length ≤ digits.length := by
  obtain ⟨w, u, rfl, hwlen⟩ := hcountry
  rw [hafter] at hright hright'
  obtain ⟨v, r, hvr, hv, -⟩ := reads_append_iff.mp hright
  obtain ⟨v', r', rfl, hv', -⟩ := reads_append_iff.mp hright'
  have hwv : w = v := (List.append_inj hvr (by rw [hwlen, length_of_reads_fixed L hv])).1
  obtain ⟨c, hc, hnodigit⟩ := hhead
  obtain ⟨name, rfl⟩ : ∃ name, country = c :: name := by
    cases country with
    | nil => cases hc
    | cons d name => exact ⟨name, by rw [Option.mem_some_iff.mp hc]⟩
  have hall : ∀ d ∈ digits ++ w, isDecimal L.toUnicodeTables d = true :=
    List.forall_mem_append.mpr ⟨hdigits, hwv ▸ isDecimal_of_reads_fixed L hlead hv⟩
  have hall' : ∀ d ∈ digits' ++ v', isDecimal L.toUnicodeTables d = true :=
    List.forall_mem_append.mpr ⟨hdigits', isDecimal_of_reads_fixed L hlead hv'⟩
  -- the digits of the other reading lie within the first run of digits
  have hrun := length_le_takeWhile (t := r') hall'
  rw [List.append_assoc, ← h, ← List.append_assoc, List.takeWhile_append_of_pos hall,
    List.cons_append, List.takeWhile_cons_of_neg (by simp [hnodigit]), List.append_nil,
    List.length_append, List.length_append, hwlen, length_of_reads_fixed L hv'] at hrun
  omega

/-- In a fenced pattern the match finds the number of the given reading. -/
theorem NumReading.digits_unique {before after : List PatternPart} {country : Text}
    (hbefore : PatternPart.num ∉ before) (hafter : PatternPart.num ∉ after)
    (hfenced : Fenced L.toUnicodeTables before after country)
    {t left digits right left' digits' right' : Text}
    (h : NumReading L.toUnicodeTables before after t left digits right)
    (hcountry : ∀ rest, after = (leadChars after).map PatternPart.char ++ .country :: rest →
      ∃ w u, right = w ++ (country ++ u) ∧ w.length = (leadChars after).length)
    (h' : NumReading L.toUnicodeTables before after t left' digits' right')
    (hlongest : ∀ d r, digits' ++ right' = d ++ r →
      (∀ c ∈ d, isDecimal L.toUnicodeTables c = true) → Reads L.toUnicodeTables after r →
      d.length ≤ digits'.length) :
    digits = digits' := by
  have htext : left ++ (digits ++ right) = left' ++ (digits' ++ right') := h.text ▸ h'.text
  by_cases hstart : StartFixed L.toUnicodeTables before
  · obtain ⟨-, htail⟩ := left_eq_of_startFixed L hbefore hstart h.left h'.left htext
    by_cases hend : EndFixed L.toUnicodeTables after
    · exact (right_eq_of_endFixed L hafter hend h.right h'.right htail).1
    · obtain ⟨-, hstop⟩ := hfenced.stop.resolve_left hend
      by_cases hlead : ∃ c ∈ leadChars after, isDecimal L.toUnicodeTables c = false
      · exact digits_eq_of_lead L hlead h.digits h'.digits h.right h'.right htail
      · have hhead := hstop.resolve_left hlead
        have hdecimal : ∀ c ∈ leadChars after, isDecimal L.toUnicodeTables c = true := by
          intro c hc
          by_contra hno
          exact hlead ⟨c, hc, by simpa using hno⟩
        obtain ⟨rest, hrest, hshape⟩ := leadChars_spec after
        have hne : rest ≠ [] := by
          rintro rfl
          apply hend
          left
          rw [hrest]
          simp
        obtain ⟨rest', rfl⟩ := hshape hne hafter
        have hle := length_le_of_country L hrest hdecimal hhead (hcountry rest' hrest) h.digits
          h'.digits h.right h'.right htail
        have hge := hlongest digits right htail.symm h.digits h.right
        exact (List.append_inj htail (by omega)).1
  · obtain ⟨hend, hbeforeTail⟩ := hfenced.start.resolve_left hstart
    rw [← List.append_assoc, ← List.append_assoc] at htext
    obtain ⟨hleft, -⟩ := right_eq_of_endFixed L hafter hend h.right h'.right htext
    exact digits_eq_of_tail L hbeforeTail h.digits h'.digits h.left h'.left hleft

end Unique

end IpDocket.Case
