import IpDocket.Case.OurRefPattern
import IpDocket.Case.OurRefScheme

/-!
# The sequence that several countries share

`generate_next_our_ref(reserve=False)` takes the highest number of the stored references and
adds one. The references are loaded with a `LIKE` on the stored text, and the number is read
with the pattern from the stripped text. With `sequence_country_wildcard` the pattern leaves
the country open; the `LIKE` does so only if there is text before the country. Where that is so,
the `LIKE` lets every reference pass that the pattern accepts, as long as the references are in
upper case and have no blanks before them.
-/

namespace IpDocket.Case
open IpDocket.Lib

section Sequence

variable (T : UnicodeTables)

/-- The number that a pattern finds in a stored reference. -/
def refNumber (pattern : List PatternPart) (ref : Text) : Option Nat :=
  if ref = [] then none
  else match matchPattern T pattern (pyStrip ref) with
    | some (some num) => intGroup T num
    | _ => none

/-- `Matter.our_ref.like(f"{prefix}%")`, which an empty text does without. -/
def likePrefix (pre ref : Text) : Bool := pre.isEmpty || sqlLike (pre ++ ['%']) ref

/-- The number that a call without a reservation uses. -/
def OurRefScheme.nextSeq (scheme : OurRefScheme) (refs : List Text) : Nat :=
  computeMaxOurRefSeq T refs scheme.pre (scheme.sequencePattern.getD scheme.pattern) + 1

/-- `generate_next_our_ref(reserve=False)` over the stored references; a number that cannot be
written raises. -/
def generateNextOurRef (config : JsonObject) (today : Date) (division matterType country : Text)
    (refs : List Text) : Except String (Option Text) := do
  let div := stripUpper T.toUpperTable division
  let typ := stripUpper T.toUpperTable matterType
  let scheme ← buildOurRefScheme T config today div typ country
  return scheme.build T (scheme.nextSeq T refs)

end Sequence

variable {T : UnicodeTables}

lemma computeMaxOurRefSeq_eq (refs : List Text) (pre : Text) (pattern : List PatternPart) :
    computeMaxOurRefSeq T refs pre pattern =
      (refs.filter (likePrefix pre)).foldl (fun maxNum ref =>
        max maxNum ((refNumber T pattern ref).getD 0)) 0 := by
  have hselected : (if pre = [] then refs else refs.filter (sqlLike (pre ++ ['%']))) =
      refs.filter (likePrefix pre) := by
    by_cases hpre : pre = []
    · have htrue : likePrefix pre = fun _ => true := by
        funext ref
        simp [likePrefix, hpre]
      rw [if_pos hpre, htrue, List.filter_true]
    · have hlike : likePrefix pre = sqlLike (pre ++ ['%']) := by
        funext ref
        simp [likePrefix, hpre]
      rw [if_neg hpre, hlike]
  unfold computeMaxOurRefSeq
  dsimp only
  rw [hselected]
  congr 1
  funext maxNum ref
  unfold refNumber
  by_cases hempty : ref = []
  · simp [hempty]
  · rw [if_neg hempty, if_neg hempty]
    rcases matchPattern T pattern (pyStrip ref) with _ | _ | num
    · simp
    · simp
    · cases hnum : intGroup T num with
      | none => simp [hnum]
      | some n => simp [hnum]

lemma foldl_max_le_iff {α : Type} (f : α → Nat) (xs : List α) (start bound : Nat) :
    xs.foldl (fun n x => max n (f x)) start ≤ bound ↔ start ≤ bound ∧ ∀ x ∈ xs, f x ≤ bound := by
  induction xs generalizing start with
  | nil => simp
  | cons x xs ih =>
    rw [List.foldl_cons, ih, Nat.max_le, List.forall_mem_cons, and_assoc]

/-- The highest number bounds the numbers of the references that are loaded, and is the least
number that does. -/
lemma computeMaxOurRefSeq_le_iff (refs : List Text) (pre : Text) (pattern : List PatternPart)
    (bound : Nat) :
    computeMaxOurRefSeq T refs pre pattern ≤ bound ↔
      ∀ ref ∈ refs, likePrefix pre ref = true → ∀ m ∈ refNumber T pattern ref, m ≤ bound := by
  rw [computeMaxOurRefSeq_eq, foldl_max_le_iff]
  simp only [List.mem_filter, Nat.zero_le, true_and]
  constructor
  · intro h ref href hlike m hm
    have hle := h ref ⟨href, hlike⟩
    rwa [Option.mem_def.mp hm] at hle
  · intro h ref href
    cases hnumber : refNumber T pattern ref with
    | none => exact Nat.zero_le _
    | some m => exact h ref href.1 href.2 m hnumber

/-- What the scheme counts when the country is left open. -/
lemma sequencePattern_of_wildcard {today : Date} {template code country : Text}
    {scope : CounterScope} {scheme : OurRefScheme}
    (h : buildTemplateOurRefScheme T today template code country scope true = .ok scheme) :
    scheme.sequencePattern =
      some (compileTemplatePattern T scheme.template.parts scheme.values true).2 := by
  unfold buildTemplateOurRefScheme at h
  cases hparse : parseRefTemplate T template with
  | error message =>
    rw [hparse] at h
    cases h
  | ok parsed =>
    rw [hparse] at h
    cases h
    rfl

lemma patternPart_flatMap_eq (values : TemplateValues) (wildcard : Bool)
    (parts : List TemplatePart) :
    ∃ rest, parts.flatMap (patternPart values wildcard) =
      (prefixText values wildcard parts).map PatternPart.char ++ rest := by
  induction parts with
  | nil => exact ⟨[], rfl⟩
  | cons part parts ih =>
    obtain ⟨rest, hrest⟩ := ih
    rw [List.flatMap_cons, hrest]
    cases part with
    | literal value =>
      exact ⟨rest, by simp [patternPart, prefixText]⟩
    | seq formatSpec => exact ⟨_, rfl⟩
    | token token =>
      by_cases hopen : token = .country ∧ wildcard = true
      · exact ⟨_, by rw [prefixText, if_pos hopen]; rfl⟩
      · exact ⟨rest, by simp [patternPart, prefixText, hopen]⟩

lemma pyUpper_eq_of_forall₂ {fixed first : Text}
    (hupper : ∀ c ∈ fixed, ∀ d ∈ first, T.sameLetter c d = true → T.up c = [d])
    (h : List.Forall₂ (fun c d => T.sameLetter c d = true) fixed first) :
    pyUpper T.toUpperTable fixed = first := by
  induction h with
  | nil => rfl
  | @cons c d fixed first hsame hrest ih =>
    have htail := ih (fun x hx y hy =>
      hupper x (List.mem_cons_of_mem _ hx) y (List.mem_cons_of_mem _ hy))
    unfold pyUpper at htail ⊢
    rw [List.flatMap_cons, hupper c List.mem_cons_self d List.mem_cons_self hsame, htail]
    rfl

/-- The number in a match is one of the digits of the text. -/
lemma num_of_matchPattern (t : Template) (values : TemplateValues) (wildcard : Bool)
    {ref num : Text}
    (h : matchPattern T (compileTemplatePattern T t.parts values wildcard).2 ref =
      some (some num)) : num ≠ [] ∧ num.length ≤ ref.countP (isDecimal T) := by
  obtain ⟨-, hbefore, -⟩ := template_split t
  rw [compileTemplatePattern_eq] at h
  obtain ⟨left, digits, right, hnum, hreading, -⟩ :=
    numReading_of_matchPattern (num_notMem_partsPattern hbefore values wildcard) h
  obtain rfl : num = digits := Option.some.inj hnum
  refine ⟨hreading.ne, ?_⟩
  rw [hreading.text, List.countP_append, List.countP_append,
    List.countP_eq_length.mpr hreading.digits]
  omega

lemma countP_pyStrip_le (p : Char → Bool) (t : Text) : (pyStrip t).countP p ≤ t.countP p := by
  have hfront := (List.dropWhile_sublist (l := t) pyIsSpace).countP_le (p := p)
  have hback := (List.dropWhile_sublist (l := (t.dropWhile pyIsSpace).reverse)
    pyIsSpace).countP_le (p := p)
  rw [List.countP_reverse] at hback
  unfold pyStrip
  rw [List.countP_reverse]
  exact hback.trans hfront

/-- Only blanks at the end are taken away from a text that begins with none. -/
lemma pyStrip_prefix {t : Text} (h : ∀ c ∈ t.head?, pyIsSpace c = false) : pyStrip t <+: t := by
  have hfront : t.dropWhile pyIsSpace = t := by
    cases t with
    | nil => rfl
    | cons c t => rw [List.dropWhile_cons_of_neg (by simp [h c rfl])]
  unfold pyStrip
  rw [hfront]
  have hsuffix := List.dropWhile_suffix (l := t.reverse) pyIsSpace
  rw [← List.reverse_prefix, List.reverse_reverse] at hsuffix
  exact hsuffix

section Open

variable (L : LetterTables)

/-- Text stands before the open country, or nothing stands before the number, and the `LIKE` of
the prefix escapes nothing. -/
structure OpenPrefix (scheme : OurRefScheme) : Prop where
  text : prefixText scheme.values true scheme.template.parts = [] →
    fixedText scheme.values (partsBefore scheme.template.parts) = []
  escape : '\\' ∉ scheme.pre

/-- A stored reference in upper case, without blanks before it and with no more digits than `int`
reads. -/
structure Countable (scheme : OurRefScheme) (ref : Text) : Prop where
  upper : ∀ c ∈ prefixText scheme.values true scheme.template.parts, ∀ d ∈ ref,
    L.sameLetter c d = true → L.up c = [d]
  first : ∀ c ∈ ref.head?, pyIsSpace c = false
  digits : ref.countP (isDecimal L.toUnicodeTables) ≤ maxStrDigits

/-- The prefix is that of the sequence, which is the whole text before the number if no country
is open there. -/
lemma pre_eq_of_openPrefix {today : Date} {template code country : Text} {scope : CounterScope}
    {scheme : OurRefScheme}
    (h : buildTemplateOurRefScheme T today template code country scope true = .ok scheme)
    (hopen : OpenPrefix scheme) :
    scheme.pre = (compileTemplatePattern T scheme.template.parts scheme.values true).1 := by
  have hempty := hopen.text
  unfold buildTemplateOurRefScheme at h
  cases hparse : parseRefTemplate T template with
  | error message =>
    rw [hparse] at h
    cases h
  | ok parsed =>
    rw [hparse] at h
    cases h
    dsimp only at hempty ⊢
    obtain ⟨hparts, hbefore, -⟩ := template_split parsed
    split
    · next hnone =>
      have hopen : ∀ t : Text, pyUpper T.toUpperTable t = [] → t = [] := by
        intro t ht
        cases t with
        | nil => rfl
        | cons c t =>
          rw [pyUpper, List.flatMap_cons, List.append_eq_nil_iff] at ht
          exact absurd ht.1 (T.up_ne_nil c)
      rw [hnone]
      unfold compileTemplatePattern
      dsimp only
      rw [hparts, prefixText_exact _ hbefore, hempty (hopen _ hnone)]
      rfl
    · rfl

/-- The `LIKE` of the prefix accepts every countable reference that the pattern accepts. -/
lemma likePrefix_of_match {scheme : OurRefScheme} {ref : Text}
    (hpre : scheme.pre =
      (compileTemplatePattern L.toUnicodeTables scheme.template.parts scheme.values true).1)
    (hescape : '\\' ∉ scheme.pre) (href : Countable L scheme ref)
    (h : (matchPattern L.toUnicodeTables (compileTemplatePattern L.toUnicodeTables
      scheme.template.parts scheme.values true).2 (pyStrip ref)).isSome = true) :
    likePrefix scheme.pre ref = true := by
  obtain ⟨rest, hrest⟩ := patternPart_flatMap_eq scheme.values true scheme.template.parts
  have hreads := (isSome_matchPattern_iff _ _).mp h
  unfold compileTemplatePattern at hreads
  dsimp only at hreads
  rw [hrest] at hreads
  obtain ⟨first, last, htext, hfirst, -⟩ := reads_append_iff.mp hreads
  obtain ⟨blanks, hblanks⟩ := pyStrip_prefix href.first
  rw [htext, List.append_assoc] at hblanks
  have hupper : scheme.pre = first := by
    rw [hpre]
    refine pyUpper_eq_of_forall₂ ?_ (reads_map_char_iff.mp hfirst)
    intro c hc d hd
    exact href.upper c hc d (hblanks ▸ List.mem_append_left _ hd)
  rw [hupper] at hescape ⊢
  unfold likePrefix
  rw [← hblanks, sqlLike_append hescape, Bool.or_true]

/-- An ASCII letter or sign in upper case. -/
def isAsciiUpper (c : Char) : Prop := c.toNat < 128 ∧ asciiUp c = c

instance (c : Char) : Decidable (isAsciiUpper c) := inferInstanceAs (Decidable (_ ∧ _))

/-- References in upper-case ASCII are countable where ASCII text stands before the country. -/
lemma countable_of_ascii {scheme : OurRefScheme} {ref : Text}
    (hopen : ∀ c ∈ prefixText scheme.values true scheme.template.parts, c.toNat < 128)
    (href : ∀ c ∈ ref, isAsciiUpper c) (hfirst : ∀ c ∈ ref.head?, pyIsSpace c = false)
    (hdigits : ref.length ≤ maxStrDigits) : Countable L scheme ref := by
  refine ⟨?_, hfirst, List.countP_le_length.trans hdigits⟩
  intro c hc d hd hsame
  obtain ⟨hascii, hup⟩ := href d hd
  rw [L.up_ascii c (hopen c hc), (L.sameLetter_ascii c d (hopen c hc) hascii).mp hsame, hup]

end Open

/-- The scheme of a template for a United States matter, with an open country. -/
def openCountryScheme (template : String) : Except String OurRefScheme :=
  buildTemplateOurRefScheme asciiTables ⟨2025, 3, 1⟩ template.toList "P".toList "US".toList
    .prefixScope true

end IpDocket.Case
