import IpDocket.Case.OurRefPattern
import IpDocket.Case.OurRefSequence

/-!
# A reference gives its number back

The text that a template renders is read again by the patterns that are compiled from the same
template. The exact pattern finds the number if and only if the upper case of every fixed
character is one character and the number is not filled up with blanks. The sequence pattern
needs a fence between an open country and the number. The number is then counted by later calls
if the text has no blanks at its ends and the `LIKE` of its prefix escapes nothing. Neither the
number nor the width of its format may have more digits than `int` reads.
-/

namespace IpDocket.Case
open IpDocket.Lib

variable {T : UnicodeTables}

variable (T) in
/-- The format fills up with zeros, or the number is not shorter than the width, and `int` reads
what is written. -/
structure ReadableNumber (formatSpec : Option Text) (n : Nat) : Prop where
  filled : formatFill formatSpec = '0' ∨ formatWidth T formatSpec ≤ (pyDigits n).length
  width : formatWidth T formatSpec ≤ maxStrDigits
  digits : (pyDigits n).length ≤ maxStrDigits

lemma length_padLeft (fill : Char) (width : Nat) (t : Text) :
    (padLeft fill width t).length = max width t.length := by
  rw [padLeft, List.length_append, List.length_replicate]
  omega

lemma padLeft_of_le {fill : Char} {width : Nat} {t : Text} (h : width ≤ t.length) :
    padLeft fill width t = t := by
  rw [padLeft, Nat.sub_eq_zero_of_le h]
  rfl

lemma formatSeq_of_readable {formatSpec : Option Text} {n : Nat}
    (h : ReadableNumber T formatSpec n) :
    formatSeq T n formatSpec =
      some (padLeft '0' (formatWidth T formatSpec) (pyDigits n)) := by
  have hwidth : formatWidth T formatSpec ≤ maxFormatWidth :=
    h.width.trans (by simp [maxStrDigits, maxFormatWidth])
  rw [formatSeq_of_digits h.digits hwidth]
  rcases h.filled with hfill | hle
  · rw [hfill]
  · rw [padLeft_of_le hle, padLeft_of_le hle]

/-- A number that is written without blanks and within the digits that `int` reads. -/
lemma readableNumber_of_formatSeq {formatSpec : Option Text} {n : Nat} {num : Text}
    (h : formatSeq T n formatSpec = some num) (hblank : ' ' ∉ num)
    (hlength : num.length ≤ maxStrDigits) : ReadableNumber T formatSpec n := by
  obtain ⟨hdigits, rfl⟩ := formatSeq_eq_some h
  rw [length_padLeft] at hlength
  refine ⟨?_, by omega, hdigits⟩
  by_contra hnot
  push Not at hnot
  obtain ⟨hfill, hshort⟩ := hnot
  apply hblank
  rw [(formatFill_cases formatSpec).resolve_left hfill, padLeft]
  exact List.mem_append_left _ (List.mem_replicate.mpr ⟨by omega, rfl⟩)

variable (T) in
def Plain (t : Text) : Prop := ∀ c ∈ t, (T.up c).length = 1

section Letters

variable (L : LetterTables)

lemma sameLetter_of_plain {c d : Char} (hsame : L.sameLetter c d = true) (hd : d ∈ L.up c) :
    L.up c = [d] := by
  have hone : (L.up c).length = 1 := by
    have hpos := List.length_pos_of_mem hd
    by_contra hne
    rw [L.sameLetter_of_two_le c (by omega) d hd] at hsame
    cases hsame
  obtain ⟨e, he⟩ := List.length_eq_one_iff.mp hone
  rw [he] at hd ⊢
  rw [List.mem_singleton.mp hd]

/-- Plain text is read as its upper case. -/
lemma reads_pyUpper {t : Text} (h : Plain L.toUnicodeTables t) :
    Reads L.toUnicodeTables (t.map PatternPart.char) (pyUpper L.toUpperTable t) := by
  induction t with
  | nil => exact .nil
  | cons c t ih =>
    obtain ⟨d, hd⟩ := List.length_eq_one_iff.mp (h c List.mem_cons_self)
    have hrest := ih (fun e he => h e (List.mem_cons_of_mem _ he))
    unfold pyUpper at hrest ⊢
    rw [List.flatMap_cons, hd]
    exact .char (L.sameLetter_of_up c d hd) hrest

/-- Text that is read at the beginning of its upper case is plain. -/
lemma plain_of_reads_left {t y r r' : Text}
    (h : Reads L.toUnicodeTables (t.map PatternPart.char) y)
    (heq : y ++ r = pyUpper L.toUpperTable t ++ r') :
    Plain L.toUnicodeTables t ∧ r = r' := by
  induction t generalizing y with
  | nil =>
    rw [List.map_nil, reads_nil_iff] at h
    subst h
    exact ⟨by simp [Plain], heq⟩
  | cons c t ih =>
    cases h with
    | @char _ d _ y hsame hrest =>
      unfold pyUpper at heq ih
      rw [List.flatMap_cons, List.append_assoc] at heq
      obtain ⟨e, u, hup⟩ := List.exists_cons_of_ne_nil (L.up_ne_nil c)
      rw [hup, List.cons_append, List.cons_append] at heq
      obtain ⟨rfl, htail⟩ := List.cons.inj heq
      have hsingle := sameLetter_of_plain L hsame (hup ▸ List.mem_cons_self)
      rw [hup] at hsingle
      obtain ⟨-, rfl⟩ := List.cons.inj hsingle
      obtain ⟨hplain, hr⟩ := ih hrest htail
      refine ⟨?_, hr⟩
      intro x hx
      rcases List.mem_cons.mp hx with rfl | hmem
      · rw [hup]
        rfl
      · exact hplain x hmem

/-- So is text that is read at the end of its upper case. -/
lemma plain_of_reads_right {t y r r' : Text}
    (h : Reads L.toUnicodeTables (t.map PatternPart.char) y)
    (heq : r ++ y = r' ++ pyUpper L.toUpperTable t) :
    Plain L.toUnicodeTables t ∧ r = r' := by
  induction t using List.reverseRecOn generalizing y with
  | nil =>
    rw [List.map_nil, reads_nil_iff] at h
    subst h
    exact ⟨by simp [Plain], by simpa [pyUpper] using heq⟩
  | append_singleton t c ih =>
    rw [List.map_append, List.map_singleton] at h
    obtain ⟨y, last, rfl, hrest, hlast⟩ := reads_append_iff.mp h
    cases hlast with
    | @char _ d _ last hsame hnil =>
      rw [reads_nil_iff] at hnil
      subst hnil
      unfold pyUpper at heq ih
      rw [List.flatMap_append, List.flatMap_singleton] at heq
      rcases List.eq_nil_or_concat (L.up c) with hnil | ⟨u, e, hup⟩
      · exact absurd hnil (L.up_ne_nil c)
      rw [hup, List.concat_eq_append, ← List.append_assoc, ← List.append_assoc,
        ← List.append_assoc] at heq
      obtain ⟨htail, hde⟩ := List.append_inj' heq rfl
      obtain rfl := List.singleton_inj.mp hde
      have hmem : d ∈ L.up c := by simp [hup]
      have hsingle := sameLetter_of_plain L hsame hmem
      have hu : u = [] := by
        rw [hup] at hsingle
        simpa using hsingle
      rw [hu, List.append_nil] at htail
      obtain ⟨hplain, hr⟩ := ih hrest htail
      refine ⟨?_, hr⟩
      intro x hx
      rcases List.mem_append.mp hx with hmem | hmem
      · exact hplain x hmem
      · rw [List.mem_singleton.mp hmem, hsingle]
        rfl

/-- The number that a pattern finds in a text, as `int` reads it. -/
def foundNumber (pattern : List PatternPart) (t : Text) : Option Nat :=
  match matchPattern L.toUnicodeTables pattern t with
  | some (some num) => intGroup L.toUnicodeTables num
  | _ => none

lemma isDecimal_of_isDigit {c : Char} (h : c.isDigit = true) :
    isDecimal L.toUnicodeTables c = true := by
  unfold isDecimal
  rw [L.decimal_of_isDigit c h]
  rfl

/-- A readable number is written as a text of digits with its value. -/
lemma formatSeq_digits {formatSpec : Option Text} {n : Nat}
    (h : ReadableNumber L.toUnicodeTables formatSpec n) :
    ∃ num, formatSeq L.toUnicodeTables n formatSpec = some num ∧ num ≠ [] ∧
      (∀ c ∈ num, c.isDigit = true) ∧ intGroup L.toUnicodeTables num = some n := by
  have hdigits := isDigit_padLeft_zero (formatWidth L.toUnicodeTables formatSpec) n
  have hlength := length_padLeft '0' (formatWidth L.toUnicodeTables formatSpec) (pyDigits n)
  have hpos : 0 < (pyDigits n).length := Nat.length_toDigits_pos
  refine ⟨_, formatSeq_of_readable h, ?_, hdigits, ?_⟩
  · intro hnil
    rw [hnil, List.length_nil] at hlength
    omega
  · rw [intGroup, if_pos (by rw [hlength]; exact Nat.max_le.mpr ⟨h.width, h.digits⟩),
      decimalValue_of_isDigit L.toDigitTables hdigits, ofDigitChars_padLeft (.inl rfl)]

/-- A match of a pattern around one number finds the number of a reading. -/
lemma foundNumber_eq {before after : List PatternPart} (hbefore : PatternPart.num ∉ before)
    {t left digits right : Text}
    (h : NumReading L.toUnicodeTables before after t left digits right)
    (hunique : ∀ left' digits' right', NumReading L.toUnicodeTables before after t left' digits' right' →
      (∀ d r, digits' ++ right' = d ++ r → (∀ c ∈ d, isDecimal L.toUnicodeTables c = true) →
        Reads L.toUnicodeTables after r → d.length ≤ digits'.length) → digits = digits') :
    foundNumber L (before ++ .num :: after) t = intGroup L.toUnicodeTables digits := by
  have hsome := (isSome_matchPattern_iff _ t).mpr h.reads
  obtain ⟨r, hr⟩ := Option.isSome_iff_exists.mp hsome
  obtain ⟨left', digits', right', rfl, hreading, hlongest⟩ := numReading_of_matchPattern hbefore hr
  rw [foundNumber, hr, hunique left' digits' right' hreading hlongest]

lemma reading_of_foundNumber {before after : List PatternPart}
    (hbefore : PatternPart.num ∉ before) {t : Text} {n : Nat}
    (h : foundNumber L (before ++ .num :: after) t = some n) :
    ∃ left digits right, NumReading L.toUnicodeTables before after t left digits right ∧
      digits.length ≤ maxStrDigits := by
  unfold foundNumber at h
  split at h
  · next num hmatch =>
    obtain ⟨left, digits, right, hnum, hreading, -⟩ := numReading_of_matchPattern hbefore hmatch
    obtain rfl : num = digits := Option.some.inj hnum
    refine ⟨left, num, right, hreading, ?_⟩
    by_contra hlong
    rw [intGroup, if_neg hlong] at h
    cases h
  · cases h

section Template

variable (t : Template) (values : TemplateValues)

/-- What comes before and after the number can be read back. -/
structure FixedPlain : Prop where
  before : Plain L.toUnicodeTables (fixedText values (partsBefore t.parts))
  after : Plain L.toUnicodeTables (fixedText values (partsAfter t.parts))

lemma numReading_exact {num : Text} (hplain : FixedPlain L t values) (hne : num ≠ [])
    (hdigits : ∀ c ∈ num, c.isDigit = true) :
    NumReading L.toUnicodeTables ((fixedText values (partsBefore t.parts)).map PatternPart.char)
      ((fixedText values (partsAfter t.parts)).map PatternPart.char)
      (pyUpper L.toUpperTable (fixedText values (partsBefore t.parts)) ++
        (num ++ pyUpper L.toUpperTable (fixedText values (partsAfter t.parts))))
      (pyUpper L.toUpperTable (fixedText values (partsBefore t.parts))) num
      (pyUpper L.toUpperTable (fixedText values (partsAfter t.parts))) :=
  ⟨rfl, reads_pyUpper L hplain.before, hne, fun c hc => isDecimal_of_isDigit L (hdigits c hc),
    reads_pyUpper L hplain.after⟩

/-- The exact pattern has at most one reading of the rendered text. -/
lemma numReading_exact_inv {num left digits right : Text}
    (h : NumReading L.toUnicodeTables
      ((fixedText values (partsBefore t.parts)).map PatternPart.char)
      ((fixedText values (partsAfter t.parts)).map PatternPart.char)
      (pyUpper L.toUpperTable (fixedText values (partsBefore t.parts)) ++
        (num ++ pyUpper L.toUpperTable (fixedText values (partsAfter t.parts)))) left digits right) :
    FixedPlain L t values ∧ num = digits := by
  obtain ⟨hbefore, hrest⟩ := plain_of_reads_left L h.left h.text.symm
  obtain ⟨hafter, hdigits⟩ := plain_of_reads_right L h.right hrest
  exact ⟨⟨hbefore, hafter⟩, hdigits.symm⟩

/-- When the exact pattern gives the number back. -/
theorem foundNumber_exact_iff {n : Nat} {ref : Text}
    (href : renderTemplate L.toUnicodeTables t.parts values n = some ref) :
    foundNumber L (compileTemplatePattern L.toUnicodeTables t.parts values false).2 ref = some n ↔
      FixedPlain L t values ∧ ReadableNumber L.toUnicodeTables (seqFormat t.parts) n := by
  obtain ⟨-, hbefore, hafter⟩ := template_split t
  obtain ⟨num, hnum, rfl⟩ := renderTemplate_eq_some href
  have hnone := num_notMem_partsPattern hbefore values false
  rw [compileTemplatePattern_eq, partsPattern_exact hafter]
  rw [partsPattern_exact hbefore] at hnone ⊢
  constructor
  · intro h
    obtain ⟨left, digits, right, hreading, hlength⟩ := reading_of_foundNumber L hnone h
    obtain ⟨hplain, rfl⟩ := numReading_exact_inv L t values hreading
    refine ⟨hplain, readableNumber_of_formatSeq hnum ?_ hlength⟩
    -- a blank is no digit
    intro hblank
    have hdecimal := hreading.digits ' ' hblank
    rw [isDecimal, L.decimal_of_isSpace ' ' (by decide)] at hdecimal
    cases hdecimal
  · rintro ⟨hplain, hreadable⟩
    obtain ⟨num', hnum', hne, hdigits, hvalue⟩ := formatSeq_digits L hreadable
    obtain rfl : num = num' := Option.some.inj (hnum.symm.trans hnum')
    rw [foundNumber_eq L hnone (numReading_exact L t values hplain hne hdigits)
      (fun _ _ _ hreading _ => (numReading_exact_inv L t values hreading).2), hvalue]

/-- The country can be read back as an open one: it has between one and eight letters and
digits, and it is fenced off from the number. -/
structure CountryApart : Prop where
  name : TemplatePart.token .country ∈ t.parts →
    pyUpper L.toUpperTable values.country ≠ [] ∧
      (pyUpper L.toUpperTable values.country).length ≤ 8 ∧
      ∀ c ∈ pyUpper L.toUpperTable values.country, isCountryChar L.toUnicodeTables c = true
  fenced : Fenced L.toUnicodeTables (partsPattern values true (partsBefore t.parts))
    (partsPattern values true (partsAfter t.parts)) (pyUpper L.toUpperTable values.country)

lemma length_pyUpper {s : Text} (h : Plain L.toUnicodeTables s) :
    (pyUpper L.toUpperTable s).length = s.length :=
  length_of_reads_fixed L (reads_pyUpper L h)

lemma leadChars_map_append (fixed : Text) (parts : List PatternPart) :
    leadChars (fixed.map PatternPart.char ++ parts) = fixed ++ leadChars parts := by
  induction fixed with
  | nil => rfl
  | cons c fixed ih => rw [List.map_cons, List.cons_append, leadChars, ih, List.cons_append]

lemma plain_append {s u : Text} :
    Plain L.toUnicodeTables (s ++ u) ↔ Plain L.toUnicodeTables s ∧ Plain L.toUnicodeTables u :=
  List.forall_mem_append

/-- A part is read as an open country or as its own characters. -/
lemma patternPart_cases {part : TemplatePart} (h : part.isSeq = false) :
    (part = .token .country ∧ patternPart values true part = [.country]) ∨
      patternPart values true part = (fixedPart values part).map PatternPart.char := by
  cases part with
  | literal value => exact .inr rfl
  | seq formatSpec => cases h
  | token token =>
    by_cases hcountry : token = .country
    · subst hcountry
      exact .inl ⟨rfl, by simp [patternPart]⟩
    · exact .inr (by simp [patternPart, fixedPart, hcountry])

lemma reads_partsPattern {parts : List TemplatePart} (hseq : NoSeq parts)
    (hplain : Plain L.toUnicodeTables (fixedText values parts))
    (hname : TemplatePart.token .country ∈ parts →
      pyUpper L.toUpperTable values.country ≠ [] ∧
        (pyUpper L.toUpperTable values.country).length ≤ 8 ∧
        ∀ c ∈ pyUpper L.toUpperTable values.country, isCountryChar L.toUnicodeTables c = true) :
    Reads L.toUnicodeTables (partsPattern values true parts)
      (pyUpper L.toUpperTable (fixedText values parts)) := by
  induction parts with
  | nil => exact .nil
  | cons part parts ih =>
    unfold partsPattern at ih ⊢
    unfold fixedText at ih hplain ⊢
    rw [List.flatMap_cons, plain_append] at hplain
    have hrest := ih (fun p hp => hseq p (List.mem_cons_of_mem _ hp)) hplain.2
      (fun hmem => hname (List.mem_cons_of_mem _ hmem))
    rw [List.flatMap_cons, List.flatMap_cons, pyUpper_append]
    rcases patternPart_cases values (hseq part List.mem_cons_self) with ⟨rfl, hopen⟩ | hfixed
    · obtain ⟨hne, hlen, hchars⟩ := hname List.mem_cons_self
      rw [hopen]
      exact .country hne hlen hchars hrest
    · rw [hfixed]
      exact reads_append_iff.mpr ⟨_, _, rfl, reads_pyUpper L hplain.1, hrest⟩

/-- The first open country of a pattern stands after the fixed characters. -/
lemma country_after_lead {parts : List TemplatePart} (hseq : NoSeq parts)
    (hplain : Plain L.toUnicodeTables (fixedText values parts)) {rest : List PatternPart}
    (h : partsPattern values true parts =
      (leadChars (partsPattern values true parts)).map PatternPart.char ++ .country :: rest) :
    ∃ w u, pyUpper L.toUpperTable (fixedText values parts) =
        w ++ (pyUpper L.toUpperTable values.country ++ u) ∧
      w.length = (leadChars (partsPattern values true parts)).length := by
  induction parts with
  | nil =>
    have hlen := congrArg List.length h
    simp [partsPattern] at hlen
  | cons part parts ih =>
    unfold partsPattern at ih h ⊢
    unfold fixedText at ih hplain ⊢
    rw [List.flatMap_cons, plain_append] at hplain
    rw [List.flatMap_cons] at h
    rw [List.flatMap_cons, List.flatMap_cons, pyUpper_append]
    rcases patternPart_cases values (hseq part List.mem_cons_self) with ⟨rfl, hopen⟩ | hfixed
    · rw [hopen]
      exact ⟨[], _, rfl, rfl⟩
    · rw [hfixed, leadChars_map_append] at h ⊢
      rw [List.map_append, List.append_assoc] at h
      obtain ⟨w, u, hw, hlen⟩ := ih (fun p hp => hseq p (List.mem_cons_of_mem _ hp)) hplain.2
        (List.append_cancel_left h)
      refine ⟨pyUpper L.toUpperTable (fixedPart values part) ++ w, u, ?_, ?_⟩
      · rw [hw, List.append_assoc]
      · rw [List.length_append, List.length_append, hlen, length_pyUpper L hplain.1]

lemma mem_parts_of_before {part : TemplatePart} (h : part ∈ partsBefore t.parts) :
    part ∈ t.parts := by
  rw [(template_split t).1]
  exact List.mem_append_left _ h

lemma mem_parts_of_after {part : TemplatePart} (h : part ∈ partsAfter t.parts) :
    part ∈ t.parts := by
  rw [(template_split t).1]
  exact List.mem_append_right _ (List.mem_cons_of_mem _ h)

/-- The sequence pattern gives the number back where the country stands apart from it. -/
theorem foundNumber_sequence {n : Nat} {ref : Text}
    (href : renderTemplate L.toUnicodeTables t.parts values n = some ref)
    (hplain : FixedPlain L t values)
    (hreadable : ReadableNumber L.toUnicodeTables (seqFormat t.parts) n)
    (hcountry : CountryApart L t values) :
    foundNumber L (compileTemplatePattern L.toUnicodeTables t.parts values true).2 ref =
      some n := by
  obtain ⟨-, hbefore, hafter⟩ := template_split t
  obtain ⟨num, hnum, rfl⟩ := renderTemplate_eq_some href
  have hnumBefore := num_notMem_partsPattern hbefore values true
  have hnumAfter := num_notMem_partsPattern hafter values true
  obtain ⟨num', hnum', hne, hdigits, hvalue⟩ := formatSeq_digits L hreadable
  obtain rfl : num = num' := Option.some.inj (hnum.symm.trans hnum')
  have hreading : NumReading L.toUnicodeTables (partsPattern values true (partsBefore t.parts))
      (partsPattern values true (partsAfter t.parts)) _
      (pyUpper L.toUpperTable (fixedText values (partsBefore t.parts))) num
      (pyUpper L.toUpperTable (fixedText values (partsAfter t.parts))) :=
    ⟨rfl, reads_partsPattern L values hbefore hplain.before
        (fun h => hcountry.name (mem_parts_of_before t h)), hne,
      fun c hc => isDecimal_of_isDigit L (hdigits c hc),
      reads_partsPattern L values hafter hplain.after
        (fun h => hcountry.name (mem_parts_of_after t h))⟩
  rw [compileTemplatePattern_eq, foundNumber_eq L hnumBefore hreading, hvalue]
  intro left' digits' right' hreading' hlongest
  exact hreading.digits_unique L hnumBefore hnumAfter hcountry.fenced
    (fun rest hrest => country_after_lead L values hafter hplain.after hrest) hreading' hlongest

end Template

lemma isSpace_of_isCountryChar {c : Char} (h : isCountryChar L.toUnicodeTables c = true) :
    pyIsSpace c = false := by
  obtain ⟨x, hx, hsame⟩ := List.any_eq_true.mp h
  rw [L.isSpace_of_sameLetter c x hsame]
  have hclass : ∀ x ∈ "ABCDEFGHIJKLMNOPQRSTUVWXYZ0123456789".toList, pyIsSpace x = false := by
    decide
  exact hclass x hx

/-- Only a fixed blank reads a blank. -/
lemma isSpace_of_reads_single {part : PatternPart} {t : Text} {c : Char}
    (h : Reads L.toUnicodeTables [part] t) (hc : c ∈ t) (hspace : pyIsSpace c = true) :
    ∃ e, part = .char e ∧ pyIsSpace e = true := by
  cases h with
  | @char e d _ t hsame hnil =>
    rw [reads_nil_iff] at hnil
    subst hnil
    obtain rfl := List.mem_singleton.mp hc
    exact ⟨e, rfl, by rw [L.isSpace_of_sameLetter e c hsame, hspace]⟩
  | num _ hdigits hnil =>
    rw [reads_nil_iff] at hnil
    subst hnil
    rw [List.append_nil] at hc
    have hdecimal := hdigits c hc
    rw [isDecimal, L.decimal_of_isSpace c hspace] at hdecimal
    cases hdecimal
  | country _ _ hname hnil =>
    rw [reads_nil_iff] at hnil
    subst hnil
    rw [List.append_nil] at hc
    rw [isSpace_of_isCountryChar L (hname c hc)] at hspace
    cases hspace

lemma ne_nil_of_reads_single {part : PatternPart} {t : Text} (h : Reads T [part] t) : t ≠ [] := by
  cases h with
  | char _ _ => exact List.cons_ne_nil _ _
  | num hne _ _ => exact List.append_ne_nil_of_left_ne_nil hne _
  | country hne _ _ _ => exact List.append_ne_nil_of_left_ne_nil hne _

/-- A fixed blank reads nothing else. -/
lemma reads_blank {e : Char} (he : pyIsSpace e = true) {t : Text}
    (h : Reads L.toUnicodeTables [.char e] t) : ∃ d, t = [d] ∧ pyIsSpace d = true := by
  cases h with
  | @char _ d _ t hsame hnil =>
    rw [reads_nil_iff] at hnil
    subst hnil
    exact ⟨d, rfl, by rw [← L.isSpace_of_sameLetter e d hsame, he]⟩

/-- A pattern that reads a text and what is left of it without the blanks at its ends reads a
text without such blanks. -/
lemma stripped_of_reads {parts : List PatternPart} {t : Text}
    (h : Reads L.toUnicodeTables parts t) (hstrip : Reads L.toUnicodeTables parts (pyStrip t)) :
    Stripped t := by
  constructor
  · intro c hc
    by_contra hspace
    have hspace : pyIsSpace c = true := by simpa using hspace
    obtain ⟨t', rfl⟩ := List.head?_eq_some_iff.mp hc
    cases parts with
    | nil => rw [reads_nil_iff] at h; cases h
    | cons part parts =>
      rw [← List.singleton_append] at h hstrip
      obtain ⟨u, v, htext, hu, -⟩ := reads_append_iff.mp h
      obtain ⟨u', v', htext', hu', -⟩ := reads_append_iff.mp hstrip
      have hmem : c ∈ u := by
        obtain ⟨d, ds, rfl⟩ := List.exists_cons_of_ne_nil (ne_nil_of_reads_single hu)
        rw [List.cons_append] at htext
        rw [(List.cons.inj htext).1]
        exact List.mem_cons_self
      obtain ⟨e, rfl, he⟩ := isSpace_of_reads_single L hu hmem hspace
      obtain ⟨d, rfl, hd⟩ := reads_blank L he hu'
      have hfirst := (stripped_pyStrip (c :: t')).1 d (by rw [htext']; rfl)
      rw [hd] at hfirst
      cases hfirst
  · intro c hc
    by_contra hspace
    have hspace : pyIsSpace c = true := by simpa using hspace
    rcases List.eq_nil_or_concat parts with rfl | ⟨parts, part, rfl⟩
    · rw [reads_nil_iff] at h
      rw [h] at hc
      cases hc
    · rw [List.concat_eq_append] at h hstrip
      obtain ⟨u, v, htext, -, hv⟩ := reads_append_iff.mp h
      obtain ⟨u', v', htext', -, hv'⟩ := reads_append_iff.mp hstrip
      have hne : v ≠ [] := ne_nil_of_reads_single hv
      have hmem : c ∈ v := by
        rw [htext, List.getLast?_append_of_ne_nil _ hne] at hc
        exact List.mem_of_mem_getLast? hc
      obtain ⟨e, rfl, he⟩ := isSpace_of_reads_single L hv hmem hspace
      obtain ⟨d, rfl, hd⟩ := reads_blank L he hv'
      have hlast := (stripped_pyStrip t).2 d (by rw [htext']; simp)
      rw [hd] at hlast
      cases hlast

/-! ### Schemes -/

/-- The reference `ref` with the number `n` and the patterns of its scheme fit together. -/
structure RoundTrip (scheme : OurRefScheme) (wildcard : Bool) (n : Nat) (ref : Text) : Prop where
  rendered : scheme.build L.toUnicodeTables n = some ref
  exact_starts : (compileTemplatePattern L.toUnicodeTables scheme.template.parts scheme.values
    false).1 <+: ref
  sequence_starts : (compileTemplatePattern L.toUnicodeTables scheme.template.parts scheme.values
    wildcard).1 <+: ref
  exact : foundNumber L (compileTemplatePattern L.toUnicodeTables scheme.template.parts
    scheme.values false).2 ref = some n
  sequence : foundNumber L (compileTemplatePattern L.toUnicodeTables scheme.template.parts
    scheme.values wildcard).2 ref = some n
  next : ∀ refs, ref ∈ refs → n < scheme.nextSeq L.toUnicodeTables refs

/-- What the template, its values and the number have to satisfy. -/
structure Readable (scheme : OurRefScheme) (n : Nat) : Prop where
  plain : FixedPlain L scheme.template scheme.values
  number : ReadableNumber L.toUnicodeTables (seqFormat scheme.template.parts) n
  first : ∀ c ∈ (fixedText scheme.values (partsBefore scheme.template.parts)).head?,
    pyIsSpace c = false
  last : ∀ c ∈ (fixedText scheme.values (partsAfter scheme.template.parts)).getLast?,
    pyIsSpace c = false

/-- The prefix of a scheme is one of the two that are compiled from the template. -/
lemma pre_eq_compiled {today : Date} {template code country : Text} {scope : CounterScope}
    {wildcard : Bool} {scheme : OurRefScheme}
    (h : buildTemplateOurRefScheme T today template code country scope wildcard = .ok scheme) :
    ∃ b, scheme.pre = (compileTemplatePattern T scheme.template.parts scheme.values b).1 := by
  unfold buildTemplateOurRefScheme at h
  cases hparse : parseRefTemplate T template with
  | error message =>
    rw [hparse] at h
    cases h
  | ok parsed =>
    rw [hparse] at h
    cases h
    dsimp only
    split
    · exact ⟨false, rfl⟩
    · exact ⟨wildcard, rfl⟩

lemma countedPattern_eq {today : Date} {template code country : Text} {scope : CounterScope}
    {wildcard : Bool} {scheme : OurRefScheme}
    (h : buildTemplateOurRefScheme L.toUnicodeTables today template code country scope wildcard =
      .ok scheme) :
    scheme.sequencePattern.getD scheme.pattern =
      (compileTemplatePattern L.toUnicodeTables scheme.template.parts scheme.values wildcard).2 := by
  unfold buildTemplateOurRefScheme at h
  cases hparse : parseRefTemplate L.toUnicodeTables template with
  | error message =>
    rw [hparse] at h
    cases h
  | ok parsed =>
    rw [hparse] at h
    cases h
    cases wildcard with
    | false => rfl
    | true => rfl

lemma stripped_build {scheme : OurRefScheme} {n : Nat} {ref : Text} (h : Readable L scheme n)
    (href : scheme.build L.toUnicodeTables n = some ref) : ref ≠ [] ∧ Stripped ref := by
  obtain ⟨num, hnum, rfl⟩ := renderTemplate_eq_some href
  obtain ⟨num', hnum', hne, hdigits, -⟩ := formatSeq_digits L h.number
  obtain rfl : num = num' := Option.some.inj (hnum.symm.trans hnum')
  have hnotSpace : ∀ c ∈ num, pyIsSpace c = false := fun c hc => isSpace_of_isDigit (hdigits c hc)
  refine ⟨by simp [hne], ?_, ?_⟩
  · intro c hc
    cases hup : (pyUpper L.toUpperTable
        (fixedText scheme.values (partsBefore scheme.template.parts))).head? with
    | none =>
      rw [List.head?_eq_none_iff] at hup
      rw [hup, List.nil_append, List.head?_append_of_ne_nil _ hne] at hc
      exact hnotSpace c (List.mem_of_mem_head? hc)
    | some d =>
      rw [List.head?_append, hup] at hc
      obtain rfl : d = c := Option.some.inj hc
      obtain ⟨a, ha, heq⟩ := isSpace_head_pyUpper hup
      rw [heq, h.first a ha]
  · intro c hc
    rw [← List.append_assoc] at hc
    cases hup : (pyUpper L.toUpperTable
        (fixedText scheme.values (partsAfter scheme.template.parts))).getLast? with
    | none =>
      rw [List.getLast?_eq_none_iff] at hup
      rw [hup, List.append_nil, List.getLast?_append_of_ne_nil _ hne] at hc
      exact hnotSpace c (List.mem_of_mem_getLast? hc)
    | some d =>
      rw [List.getLast?_append, hup] at hc
      obtain rfl : d = c := Option.some.inj hc
      obtain ⟨a, ha, heq⟩ := isSpace_getLast_pyUpper hup
      rw [heq, h.last a ha]

/-- Blanks at the ends of the rendered text come from the ends of the fixed text. -/
lemma ends_of_stripped {scheme : OurRefScheme} {n : Nat} {ref : Text}
    (href : scheme.build L.toUnicodeTables n = some ref) (h : Stripped ref) :
    (∀ c ∈ (fixedText scheme.values (partsBefore scheme.template.parts)).head?,
      pyIsSpace c = false) ∧
    ∀ c ∈ (fixedText scheme.values (partsAfter scheme.template.parts)).getLast?,
      pyIsSpace c = false := by
  obtain ⟨num, -, rfl⟩ := renderTemplate_eq_some href
  constructor
  · intro c hc
    obtain ⟨rest, hrest⟩ := List.head?_eq_some_iff.mp hc
    obtain ⟨d, u, hup⟩ := List.exists_cons_of_ne_nil (L.up_ne_nil c)
    have hspace := L.isSpace_of_mem_up c d (hup ▸ List.mem_cons_self)
    rw [← hspace]
    apply h.1
    rw [hrest, pyUpper, List.flatMap_cons, hup]
    rfl
  · intro c hc
    obtain ⟨rest, hrest⟩ := List.getLast?_eq_some_iff.mp hc
    rcases List.eq_nil_or_concat (L.up c) with hnil | ⟨u, d, hup⟩
    · exact absurd hnil (L.up_ne_nil c)
    have hspace := L.isSpace_of_mem_up c d (by simp [hup])
    rw [← hspace]
    apply h.2
    rw [hrest, pyUpper_append, ← List.append_assoc, ← List.append_assoc]
    simp [pyUpper, hup]

lemma reads_of_foundNumber {pattern : List PatternPart} {u : Text} {n : Nat}
    (h : foundNumber L pattern u = some n) : Reads L.toUnicodeTables pattern u := by
  rw [← isSome_matchPattern_iff]
  unfold foundNumber at h
  split at h
  · next heq => rw [heq]; rfl
  · cases h

/-- A reference that later calls count is read without the blanks at its ends. -/
lemma reads_pyStrip_of_next {scheme : OurRefScheme} {wildcard : Bool} {n : Nat} {ref : Text}
    (hn : 1 ≤ n)
    (hpattern : scheme.sequencePattern.getD scheme.pattern =
      (compileTemplatePattern L.toUnicodeTables scheme.template.parts scheme.values wildcard).2)
    (h : RoundTrip L scheme wildcard n ref) :
    Reads L.toUnicodeTables (compileTemplatePattern L.toUnicodeTables scheme.template.parts
      scheme.values wildcard).2 (pyStrip ref) := by
  -- the number counts a list that holds this reference alone
  have hlt := h.next [ref] (List.mem_singleton_self _)
  unfold OurRefScheme.nextSeq at hlt
  rw [hpattern] at hlt
  have hpositive : ¬computeMaxOurRefSeq L.toUnicodeTables [ref] scheme.pre
      (compileTemplatePattern L.toUnicodeTables scheme.template.parts scheme.values
        wildcard).2 ≤ 0 := by
    omega
  rw [computeMaxOurRefSeq_le_iff] at hpositive
  push Not at hpositive
  obtain ⟨ref', href', -, m, hm, -⟩ := hpositive
  obtain rfl := List.mem_singleton.mp href'
  unfold refNumber at hm
  split at hm
  · cases hm
  · exact reads_of_foundNumber L hm

/-- For every accepted template, all values and every number from one on: the rendered text
begins with the compiled text, and both patterns and the next number agree with it, only if the
template is readable; and they do if it is readable, the prefix has no backslash and, with an
open country, the country stands apart from the number. -/
theorem render_roundTrip {today : Date} {template code country : Text} {scope : CounterScope}
    {wildcard : Bool} {scheme : OurRefScheme}
    (h : buildTemplateOurRefScheme L.toUnicodeTables today template code country scope wildcard =
      .ok scheme) {n : Nat} (hn : 1 ≤ n) :
    ((∃ ref, RoundTrip L scheme wildcard n ref) → Readable L scheme n) ∧
      (Readable L scheme n → '\\' ∉ scheme.pre →
        (wildcard = true → CountryApart L scheme.template scheme.values) →
        ∃ ref, RoundTrip L scheme wildcard n ref) := by
  have hpattern := countedPattern_eq L h
  constructor
  · rintro ⟨ref, hround⟩
    obtain ⟨hplain, hnumber⟩ := (foundNumber_exact_iff L _ _ hround.rendered).mp hround.exact
    obtain ⟨hfirst, hlast⟩ := ends_of_stripped L hround.rendered
      (stripped_of_reads L (reads_of_foundNumber L hround.sequence)
        (reads_pyStrip_of_next L hn hpattern hround))
    exact ⟨hplain, hnumber, hfirst, hlast⟩
  · intro hreadable hescape happart
    obtain ⟨num, hnum, -⟩ := formatSeq_digits L hreadable.number
    obtain ⟨ref, href⟩ : ∃ ref, scheme.build L.toUnicodeTables n = some ref := by
      unfold OurRefScheme.build
      rw [renderTemplate_eq, hnum]
      exact ⟨_, rfl⟩
    have hexact := (foundNumber_exact_iff L _ _ href).mpr ⟨hreadable.plain, hreadable.number⟩
    have hsequence : foundNumber L (compileTemplatePattern L.toUnicodeTables
        scheme.template.parts scheme.values wildcard).2 ref = some n := by
      cases wildcard with
      | false => exact hexact
      | true => exact foundNumber_sequence L _ _ href hreadable.plain hreadable.number (happart rfl)
    refine ⟨ref, href, compiled_startsWith _ href, compiled_startsWith _ href, hexact, hsequence, ?_⟩
    intro refs hmem
    obtain ⟨hne, hstripped⟩ := stripped_build L hreadable href
    have hloaded : likePrefix scheme.pre ref = true := by
      obtain ⟨b, hpre⟩ := pre_eq_compiled h
      obtain ⟨rest, hrest⟩ := compiled_startsWith b href
      rw [← hpre] at hrest
      unfold likePrefix
      rw [← hrest, sqlLike_append hescape, Bool.or_true]
    have hnumber : refNumber L.toUnicodeTables (compileTemplatePattern L.toUnicodeTables
        scheme.template.parts scheme.values wildcard).2 ref = some n := by
      rw [refNumber, if_neg hne, pyStrip_of_stripped hstripped]
      exact hsequence
    unfold OurRefScheme.nextSeq
    rw [hpattern, Nat.lt_succ_iff]
    exact (computeMaxOurRefSeq_le_iff _ _ _ _).mp le_rfl _ hmem hloaded n hnumber

end Letters

/-- The scheme of a template for a United States patent on a day in 2025. -/
def patentScheme (template : String) (wildcard : Bool) : Except String OurRefScheme :=
  buildTemplateOurRefScheme asciiLetterTables.toUnicodeTables ⟨2025, 3, 1⟩ template.toList
    "P".toList "US".toList .prefixScope wildcard

/-- The code keeps the open country apart from the number: `USP250012`. -/
theorem roundTrip_countryCodeYear :
    ∃ scheme, patentScheme "\x7bcountry\x7d\x7bcode\x7dYY\x7bseq:0000\x7d" true = .ok scheme ∧
      ∃ ref, RoundTrip asciiLetterTables scheme true 12 ref := by
  refine ⟨_, rfl, (@render_roundTrip asciiLetterTables ⟨2025, 3, 1⟩
    "\x7bcountry\x7d\x7bcode\x7dYY\x7bseq:0000\x7d".toList "P".toList "US".toList .prefixScope
    true _ rfl 12 (by decide)).2 ⟨⟨?_, ?_⟩, ⟨?_, ?_, ?_⟩, ?_, ?_⟩ ?_
      (fun _ => ⟨fun _ => ?_, ?_⟩)⟩
  · unfold Plain
    decide +kernel
  · unfold Plain
    decide +kernel
  · decide +kernel
  · decide +kernel
  · decide +kernel
  · decide +kernel
  · decide +kernel
  · decide +kernel
  · decide +kernel
  · have hend : EndFixed asciiLetterTables.toUnicodeTables [] := .inl (by decide)
    exact ⟨.inr ⟨hend, 'P', by decide +kernel, by decide +kernel⟩, .inl hend⟩

/-- A width without a zero fills up with blanks, `P-   7`, which no pattern reads; and an open
country before the number takes the first digits of `US0012`, which leaves the number 2. -/
theorem roundTrip_blanks_and_country :
    (∃ scheme, patentScheme "\x7bcode\x7d-\x7bseq:4d\x7d" false = .ok scheme ∧
      scheme.build asciiTables 7 = some "P-   7".toList ∧
      ∀ ref, ¬RoundTrip asciiLetterTables scheme false 7 ref) ∧
    ∃ scheme, patentScheme "\x7bcountry\x7d\x7bseq:0000\x7d" true = .ok scheme ∧
      scheme.build asciiTables 12 = some "US0012".toList ∧
      ∀ ref, ¬RoundTrip asciiLetterTables scheme true 12 ref := by
  constructor
  · refine ⟨_, rfl, by decide +kernel, fun ref h => ?_⟩
    obtain rfl : "P-   7".toList = ref := Option.some.inj (Eq.trans (by decide +kernel) h.rendered)
    have hnone := h.exact
    revert hnone
    decide +kernel
  · refine ⟨_, rfl, by decide +kernel, fun ref h => ?_⟩
    obtain rfl : "US0012".toList = ref := Option.some.inj (Eq.trans (by decide +kernel) h.rendered)
    have htwo := h.sequence
    revert htwo
    decide +kernel

end IpDocket.Case
