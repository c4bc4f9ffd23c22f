import Mathlib.Data.List.Basic
import IpDocket.Lib.Text

/-!
# Templates of reference numbers

A template such as `{country}{code}YY{seq:0000}` is cut into literals, tokens and the one
`{seq}`. It is rendered with the values of the day and a number, and it is turned into a
pattern that finds the number again in a stored reference.
-/

namespace IpDocket.Case
open IpDocket.Lib

inductive TemplateToken
  | code
  | country
  | yyyy
  | yy
  | mm
  | dd
  deriving DecidableEq

inductive TemplatePart
  | literal (value : Text)
  | token (value : TemplateToken)
  | seq (formatSpec : Option Text)
  deriving DecidableEq

def TemplatePart.isSeq : TemplatePart → Bool
  | .seq _ => true
  | _ => false

/-- A parsed template has exactly one `{seq}`. -/
structure Template where
  parts : List TemplatePart
  one_seq : parts.countP TemplatePart.isSeq = 1
  deriving DecidableEq

def isIdentStart (c : Char) : Bool :=
  let n := c.toNat
  (65 ≤ n && n ≤ 90) || (97 ≤ n && n ≤ 122) || c == '_'

def isIdentChar (c : Char) : Bool := isIdentStart c || (48 ≤ c.toNat && c.toNat ≤ 57)

/-- What follows a `{` that begins a match of `_BRACED_TOKEN_RE`: the name, the format after
the colon, and the number of characters up to the closing brace. -/
def matchBraced (t : Text) : Option (Text × Option Text × Nat) :=
  match t.head?.filter isIdentStart with
  | none => none
  | some _ =>
    let name := t.takeWhile isIdentChar
    match t.drop name.length with
    | '}' :: _ => some (name, none, name.length + 1)
    | ':' :: rest =>
      let spec := rest.takeWhile (· ≠ '}')
      if spec ≠ [] ∧ spec.length < rest.length then
        some (name, some spec, name.length + spec.length + 2)
      else none
    | _ => none

inductive TemplatePiece
  | char (c : Char)
  | braced (name : Text) (spec : Option Text)
  deriving DecidableEq

/-- The matches of `finditer` and the characters between them; the first argument counts the
characters of a match that are still to be passed over. -/
def templatePieces : Nat → Text → List TemplatePiece
  | _, [] => []
  | skip + 1, _ :: t => templatePieces skip t
  | 0, c :: t =>
    match if c = '{' then matchBraced t else none with
    | some (name, spec, length) => .braced name spec :: templatePieces length t
    | none => .char c :: templatePieces 0 t

/-- A bare `YYYY`, `YY`, `MM` or `DD` at the start of the text, with its length. -/
def dateTokenAt (t : Text) : Option (TemplateToken × Nat) :=
  let upper := t.map asciiUp
  if upper.take 4 = "YYYY".toList then some (.yyyy, 4)
  else if upper.take 2 = "YY".toList then some (.yy, 2)
  else if upper.take 2 = "MM".toList then some (.mm, 2)
  else if upper.take 2 = "DD".toList then some (.dd, 2)
  else none

def literalPart : Text → List TemplatePart
  | [] => []
  | literal => [.literal literal]

/-- `_literal_parts_with_bare_date_tokens`, with the literal read so far. -/
def literalParts : Nat → Text → Text → List TemplatePart
  | _, literal, [] => literalPart literal
  | skip + 1, literal, _ :: t => literalParts skip literal t
  | 0, literal, c :: t =>
    match dateTokenAt (c :: t) with
    | some (token, length) => literalPart literal ++ .token token :: literalParts (length - 1) [] t
    | none => literalParts 0 (literal ++ [c]) t

section Parse

variable (T : UnicodeTables)

/-- `_SEQ_FORMAT_RE`. -/
def seqFormatOk (spec : Text) : Bool :=
  let isDigit := fun c => (T.decimal c).isSome
  let body := spec.dropLast
  (spec.head? = some '0' && spec.all isDigit) ||
    (spec.getLast? = some 'd' && body.all isDigit &&
      (body.length ≤ 2 || (body.length = 3 && body.head? = some '0')))

/-- The part of a token in braces. -/
def tokenPart (name : Text) (spec : Option Text) : Except String TemplatePart :=
  let token := name.map asciiLower
  let formatSpec := (spec.map pyStrip).filter (· ≠ [])
  if token = "seq".toList then
    if ∀ f ∈ formatSpec, seqFormatOk T f then .ok (.seq formatSpec)
    else .error "seq format must look like 0000, d, 4d, or 04d"
  else
    let known := [("code", TemplateToken.code), ("country", .country), ("yyyy", .yyyy),
      ("yy", .yy), ("mm", .mm), ("dd", .dd)].find? (fun p => p.1.toList = token)
    match known with
    | none => .error ("unknown template token: " ++ String.ofList token)
    | some (_, value) =>
      if formatSpec = none then .ok (.token value)
      else .error (String.ofList token ++ " token does not support a format spec")

def parsePieces (literal : Text) : List TemplatePiece → Except String (List TemplatePart)
  | [] =>
    if '{' ∈ literal ∨ '}' ∈ literal then .error "template contains an invalid brace"
    else .ok (literalParts 0 [] literal)
  | .char c :: pieces => parsePieces (literal ++ [c]) pieces
  | .braced name spec :: pieces =>
    if '{' ∈ literal ∨ '}' ∈ literal then .error "template contains an invalid brace"
    else do
      let part ← tokenPart T name spec
      let rest ← parsePieces [] pieces
      return literalParts 0 [] literal ++ part :: rest

/-- `_parse_ref_template`. -/
def parseRefTemplate (template : Text) : Except String Template :=
  let raw := pyStrip template
  if raw = [] then .error "template is required"
  else do
    let parts ← parsePieces T [] (templatePieces 0 raw)
    if h : parts.countP TemplatePart.isSeq = 1 then return ⟨parts, h⟩
    else .error "template must contain exactly one \x7bseq\x7d token"

end Parse

structure TemplateValues where
  code : Text
  country : Text
  yyyy : Text
  yy : Text
  mm : Text
  dd : Text
  deriving DecidableEq

def tokenValue (values : TemplateValues) : TemplateToken → Text
  | .code => values.code
  | .country => values.country
  | .yyyy => values.yyyy
  | .yy => values.yy
  | .mm => values.mm
  | .dd => values.dd

section Render

variable (T : UnicodeTables)

/-- `int` reads and `str` writes at most so many digits; beyond that they raise. -/
def maxStrDigits : Nat := 4300

/-- `sys.maxsize`. -/
def maxFormatWidth : Nat := 2 ^ 63 - 1

def strSeq (seq : Nat) : Option Text :=
  if (pyDigits seq).length ≤ maxStrDigits then some (pyDigits seq) else none

/-- The format without the letter at its end. -/
def formatBody (spec : Text) : Text :=
  if spec.getLast? = some 'd' then spec.dropLast else spec

/-- `format` with one of the formats that `_SEQ_FORMAT_RE` lets through: the digits are the
width, and a leading zero fills up with zeros. -/
def pyFormatInt (spec : Text) (digits : Text) : Option Text :=
  let body := formatBody spec
  let fill := if body.head? = some '0' then '0' else ' '
  let width := decimalValue T body
  -- "Too many decimal digits in format string"
  if width ≤ maxFormatWidth then some (padLeft fill width digits) else none

/-- `_format_seq`. -/
def formatSeq (seq : Nat) (formatSpec : Option Text) : Option Text := do
  let digits ← strSeq seq
  match formatSpec with
  | none => some (padLeft '0' 4 digits)
  | some spec =>
    if spec.all (· = '0') then some (padLeft '0' spec.length digits)
    else pyFormatInt T spec digits

def renderPart (values : TemplateValues) (seq : Nat) : TemplatePart → Option Text
  | .literal value => some value
  | .token token => some (tokenValue values token)
  | .seq formatSpec => formatSeq T seq formatSpec

/-- `_render_template`. -/
def renderTemplate (parts : List TemplatePart) (values : TemplateValues) (seq : Nat) :
    Option Text := do
  let rendered ← parts.mapM (renderPart T values seq)
  return pyUpper T.toUpperTable rendered.flatten

/-- The parts of the compiled pattern: a character up to case, `(?P<num>\d+)`, and
`[A-Z0-9]{1,8}`. -/
inductive PatternPart
  | char (c : Char)
  | num
  | country
  deriving DecidableEq

def patternPart (values : TemplateValues) (wildcardCountry : Bool) :
    TemplatePart → List PatternPart
  | .literal value => value.map PatternPart.char
  | .seq _ => [.num]
  | .token token =>
    if token = .country ∧ wildcardCountry then [.country]
    else (tokenValue values token).map PatternPart.char

/-- What comes before the number, and before a country that is left open. -/
def prefixText (values : TemplateValues) (wildcardCountry : Bool) : List TemplatePart → Text
  | [] => []
  | .literal value :: parts => value ++ prefixText values wildcardCountry parts
  | .seq _ :: _ => []
  | .token token :: parts =>
    if token = .country ∧ wildcardCountry then []
    else tokenValue values token ++ prefixText values wildcardCountry parts

/-- `_compile_template_pattern`. -/
def compileTemplatePattern (parts : List TemplatePart) (values : TemplateValues)
    (wildcardCountry : Bool) : Text × List PatternPart :=
  (pyUpper T.toUpperTable (prefixText values wildcardCountry parts),
    parts.flatMap (patternPart values wildcardCountry))

/-- The lengths that a greedy quantifier tries on a run of `length` characters. -/
def greedyLengths (length : Nat) : List Nat := ((List.range length).map (· + 1)).reverse

/-- A match of the whole text; the result is what `num` has matched. -/
def matchPattern : List PatternPart → Text → Option (Option Text)
  | [], t => if t = [] then some none else none
  | .char _ :: _, [] => none
  | .char c :: parts, d :: t => if T.sameLetter c d then matchPattern parts t else none
  | .num :: parts, t =>
    let run := t.takeWhile (fun c => (T.decimal c).isSome)
    (greedyLengths run.length).findSome? (fun k =>
      (matchPattern parts (t.drop k)).map (fun _ => some (t.take k)))
  | .country :: parts, t =>
    let isCountryChar := fun c => ("ABCDEFGHIJKLMNOPQRSTUVWXYZ0123456789".toList).any (T.sameLetter c)
    (greedyLengths (min 8 (t.takeWhile isCountryChar).length)).findSome? (fun k =>
      matchPattern parts (t.drop k))

/-- `int(m.group("num"))`. -/
def intGroup (num : Text) : Option Nat :=
  if num.length ≤ maxStrDigits then some (decimalValue T num) else none

/-- `_compute_max_our_ref_seq` over the stored references; one whose number `int` refuses is
passed over. -/
def computeMaxOurRefSeq (refs : List Text) (pre : Text) (pattern : List PatternPart) : Nat :=
  let selected := if pre = [] then refs else refs.filter (sqlLike (pre ++ ['%']))
  selected.foldl (fun maxNum ref =>
    if ref = [] then maxNum
    else match matchPattern T pattern (pyStrip ref) with
      | some (some num) =>
        match intGroup T num with
        | some n => max maxNum n
        | none => maxNum
      | _ => maxNum) 0

end Render

/-! ### Different numbers give different references -/

variable {T : UnicodeTables}

/-- The width that a format fills up to. -/
def formatWidth (T : UnicodeTables) : Option Text → Nat
  | none => 4
  | some spec => if spec.all (· = '0') then spec.length else decimalValue T (formatBody spec)

/-- What a format fills up with. -/
def formatFill : Option Text → Char
  | none => '0'
  | some spec => if spec.all (· = '0') ∨ (formatBody spec).head? = some '0' then '0' else ' '

lemma formatFill_cases (formatSpec : Option Text) :
    formatFill formatSpec = '0' ∨ formatFill formatSpec = ' ' := by
  cases formatSpec with
  | none => exact .inl rfl
  | some spec =>
    rw [formatFill]
    split
    · exact .inl rfl
    · exact .inr rfl

/-- What is written for a number of at most 4300 digits. -/
lemma formatSeq_of_digits {n : Nat} (hn : (pyDigits n).length ≤ maxStrDigits)
    {formatSpec : Option Text} (hwidth : formatWidth T formatSpec ≤ maxFormatWidth) :
    formatSeq T n formatSpec =
      some (padLeft (formatFill formatSpec) (formatWidth T formatSpec) (pyDigits n)) := by
  cases formatSpec with
  | none => simp [formatSeq, strSeq, if_pos hn, formatFill, formatWidth]
  | some spec =>
    rw [formatWidth] at hwidth ⊢
    simp only [formatSeq, strSeq, if_pos hn, formatFill, Option.bind_eq_bind, Option.bind_some]
    by_cases hzeros : spec.all (· = '0') = true
    · rw [if_pos hzeros, if_pos hzeros, if_pos (.inl hzeros)]
    · rw [if_neg hzeros] at hwidth
      simp [hzeros, pyFormatInt, hwidth]

/-- What is written fills up the digits of the number. -/
lemma formatSeq_eq_some {n : Nat} {formatSpec : Option Text} {num : Text}
    (h : formatSeq T n formatSpec = some num) :
    (pyDigits n).length ≤ maxStrDigits ∧
      num = padLeft (formatFill formatSpec) (formatWidth T formatSpec) (pyDigits n) := by
  have hn : (pyDigits n).length ≤ maxStrDigits := by
    by_contra hlong
    simp [formatSeq, strSeq, hlong] at h
  refine ⟨hn, ?_⟩
  by_cases hwidth : formatWidth T formatSpec ≤ maxFormatWidth
  · rw [formatSeq_of_digits hn hwidth] at h
    exact (Option.some.inj h).symm
  · cases formatSpec with
    | none => exact absurd (by simp [formatWidth, maxFormatWidth]) hwidth
    | some spec =>
      rw [formatWidth] at hwidth ⊢
      simp only [formatSeq, strSeq, if_pos hn, Option.bind_eq_bind, Option.bind_some] at h
      rw [formatFill]
      split at h
      · next hzeros =>
        rw [if_pos hzeros, if_pos (.inl hzeros)]
        exact (Option.some.inj h).symm
      · next hzeros =>
        -- a width out of range raises
        rw [if_neg hzeros] at hwidth
        simp [pyFormatInt, hwidth] at h

lemma formatSeq_inj {formatSpec : Option Text} {m n : Nat} {num : Text}
    (hm : formatSeq T m formatSpec = some num) (hn : formatSeq T n formatSpec = some num) :
    m = n := by
  have hfill := formatFill_cases formatSpec
  have heq := (formatSeq_eq_some hm).2.symm.trans (formatSeq_eq_some hn).2
  rw [← ofDigitChars_padLeft hfill _ m, heq, ofDigitChars_padLeft hfill _ n]

lemma pyUpper_formatSeq {n : Nat} {formatSpec : Option Text} {num : Text}
    (h : formatSeq T n formatSpec = some num) : pyUpper T.toUpperTable num = num := by
  rw [(formatSeq_eq_some h).2]
  exact pyUpper_of_lt (toNat_padLeft_lt (formatFill_cases formatSpec) _ n)

/-- The parts before and after the number. -/
lemma split_of_one_seq {parts : List TemplatePart}
    (h : parts.countP TemplatePart.isSeq = 1) :
    ∃ before formatSpec after, parts = before ++ .seq formatSpec :: after ∧
      before.countP TemplatePart.isSeq = 0 ∧ after.countP TemplatePart.isSeq = 0 := by
  induction parts with
  | nil => cases h
  | cons part parts ih =>
    cases part with
    | seq formatSpec =>
      rw [List.countP_cons_of_pos rfl] at h
      exact ⟨[], formatSpec, parts, rfl, rfl, by omega⟩
    | literal value =>
      rw [List.countP_cons_of_neg Bool.false_ne_true] at h
      obtain ⟨before, formatSpec, after, rfl, hbefore, hafter⟩ := ih h
      refine ⟨.literal value :: before, formatSpec, after, rfl, ?_, hafter⟩
      rw [List.countP_cons_of_neg Bool.false_ne_true, hbefore]
    | token token =>
      rw [List.countP_cons_of_neg Bool.false_ne_true] at h
      obtain ⟨before, formatSpec, after, rfl, hbefore, hafter⟩ := ih h
      refine ⟨.token token :: before, formatSpec, after, rfl, ?_, hafter⟩
      rw [List.countP_cons_of_neg Bool.false_ne_true, hbefore]

/-- The parts hold no number. -/
def NoSeq (parts : List TemplatePart) : Prop := ∀ part ∈ parts, part.isSeq = false

def fixedPart (values : TemplateValues) : TemplatePart → Text
  | .literal value => value
  | .token token => tokenValue values token
  | .seq _ => []

/-- The text of the parts, without the number. -/
def fixedText (values : TemplateValues) (parts : List TemplatePart) : Text :=
  parts.flatMap (fixedPart values)

def partsBefore (parts : List TemplatePart) : List TemplatePart :=
  parts.takeWhile (fun part => !part.isSeq)

def partsAfter (parts : List TemplatePart) : List TemplatePart :=
  (parts.dropWhile (fun part => !part.isSeq)).tail

def seqFormat (parts : List TemplatePart) : Option Text :=
  match parts.find? TemplatePart.isSeq with
  | some (.seq formatSpec) => formatSpec
  | _ => none

lemma template_split (t : Template) :
    t.parts = partsBefore t.parts ++ .seq (seqFormat t.parts) :: partsAfter t.parts ∧
      NoSeq (partsBefore t.parts) ∧ NoSeq (partsAfter t.parts) := by
  obtain ⟨before, formatSpec, after, hparts, hbefore, hafter⟩ := split_of_one_seq t.one_seq
  have hnone : ∀ parts : List TemplatePart, parts.countP TemplatePart.isSeq = 0 → NoSeq parts :=
    fun parts h part hpart => by simpa using List.countP_eq_zero.mp h part hpart
  have hall : ∀ part ∈ before, (!part.isSeq) = true := by
    intro part hpart
    rw [hnone before hbefore part hpart]
    rfl
  have hfirst : partsBefore t.parts = before := by
    unfold partsBefore
    rw [hparts, List.takeWhile_append_of_pos hall, List.takeWhile_cons_of_neg (by simp [TemplatePart.isSeq]),
      List.append_nil]
  have hlast : partsAfter t.parts = after := by
    unfold partsAfter
    rw [hparts, List.dropWhile_append_of_pos hall,
      List.dropWhile_cons_of_neg (by simp [TemplatePart.isSeq]), List.tail_cons]
  have hformat : seqFormat t.parts = formatSpec := by
    have hfind : before.find? TemplatePart.isSeq = none := by
      rw [List.find?_eq_none]
      intro part hpart
      simp [hnone before hbefore part hpart]
    unfold seqFormat
    rw [hparts, List.find?_append, hfind]
    rfl
  rw [hfirst, hlast, hformat]
  exact ⟨hparts, hnone before hbefore, hnone after hafter⟩

lemma mapM_renderPart {parts : List TemplatePart} (h : NoSeq parts) (values : TemplateValues)
    (n : Nat) : parts.mapM (renderPart T values n) = some (parts.map (fixedPart values)) := by
  induction parts with
  | nil => rfl
  | cons part parts ih =>
    have hpart := h part List.mem_cons_self
    rw [List.mapM_cons, ih (fun p hp => h p (List.mem_cons_of_mem _ hp))]
    cases part with
    | literal value => rfl
    | token token => rfl
    | seq formatSpec => cases hpart

/-- The rendered text, cut around the number. -/
lemma renderTemplate_eq (t : Template) (values : TemplateValues) (n : Nat) :
    renderTemplate T t.parts values n = (formatSeq T n (seqFormat t.parts)).map (fun num =>
      pyUpper T.toUpperTable (fixedText values (partsBefore t.parts)) ++
        (num ++ pyUpper T.toUpperTable (fixedText values (partsAfter t.parts)))) := by
  obtain ⟨hparts, hbefore, hafter⟩ := template_split t
  unfold renderTemplate
  conv_lhs => rw [hparts]
  rw [List.mapM_append, List.mapM_cons, mapM_renderPart hbefore, mapM_renderPart hafter, renderPart]
  cases hnum : formatSeq T n (seqFormat t.parts) with
  | none => rfl
  | some num =>
    simp only [Option.bind_eq_bind, Option.bind_some, Option.pure_def, Option.map_some,
      List.flatten_append, List.flatten_cons, ← List.flatMap_def, pyUpper_append,
      pyUpper_formatSeq hnum]
    rfl

/-- What is rendered is the text of the number between the fixed texts. -/
lemma renderTemplate_eq_some {t : Template} {values : TemplateValues} {n : Nat} {ref : Text}
    (h : renderTemplate T t.parts values n = some ref) :
    ∃ num, formatSeq T n (seqFormat t.parts) = some num ∧
      ref = pyUpper T.toUpperTable (fixedText values (partsBefore t.parts)) ++
        (num ++ pyUpper T.toUpperTable (fixedText values (partsAfter t.parts))) := by
  rw [renderTemplate_eq, Option.map_eq_some_iff] at h
  obtain ⟨num, hnum, rfl⟩ := h
  exact ⟨num, hnum, rfl⟩

/-- A template renders different numbers differently. -/
theorem renderTemplate_inj {t : Template} {values : TemplateValues} {m n : Nat} {ref : Text}
    (hm : renderTemplate T t.parts values m = some ref)
    (hn : renderTemplate T t.parts values n = some ref) : m = n := by
  obtain ⟨num, hnum, rfl⟩ := renderTemplate_eq_some hm
  obtain ⟨num', hnum', heq⟩ := renderTemplate_eq_some hn
  obtain rfl := List.append_cancel_right (List.append_cancel_left heq)
  exact formatSeq_inj hnum hnum'

/-- The pattern of the parts around the number. -/
def partsPattern (values : TemplateValues) (wildcard : Bool) (parts : List TemplatePart) :
    List PatternPart :=
  parts.flatMap (patternPart values wildcard)

lemma compileTemplatePattern_eq (t : Template) (values : TemplateValues) (wildcard : Bool) :
    (compileTemplatePattern T t.parts values wildcard).2 =
      partsPattern values wildcard (partsBefore t.parts) ++
        .num :: partsPattern values wildcard (partsAfter t.parts) := by
  obtain ⟨hparts, -, -⟩ := template_split t
  unfold compileTemplatePattern partsPattern
  dsimp only
  conv_lhs => rw [hparts]
  rw [List.flatMap_append, List.flatMap_cons]
  rfl

lemma partsPattern_exact {parts : List TemplatePart} (h : NoSeq parts) (values : TemplateValues) :
    partsPattern values false parts = (fixedText values parts).map PatternPart.char := by
  unfold partsPattern fixedText
  rw [List.map_flatMap]
  apply List.flatMap_congr
  intro part hpart
  cases part with
  | literal value => rfl
  | token token => simp [patternPart, fixedPart]
  | seq formatSpec => exact absurd (h _ hpart) (by simp [TemplatePart.isSeq])

lemma num_notMem_partsPattern {parts : List TemplatePart} (h : NoSeq parts)
    (values : TemplateValues) (wildcard : Bool) :
    PatternPart.num ∉ partsPattern values wildcard parts := by
  intro hmem
  obtain ⟨part, hpart, hnum⟩ := List.mem_flatMap.mp hmem
  cases part with
  | literal value => simp [patternPart] at hnum
  | token token =>
    rw [patternPart] at hnum
    split at hnum
    · simp at hnum
    · simp at hnum
  | seq formatSpec => exact absurd (h _ hpart) (by simp [TemplatePart.isSeq])

lemma prefixText_prefix (values : TemplateValues) (wildcard : Bool) {before : List TemplatePart}
    (h : NoSeq before) (formatSpec : Option Text) (after : List TemplatePart) :
    prefixText values wildcard (before ++ .seq formatSpec :: after) <+: fixedText values before := by
  induction before with
  | nil => exact List.nil_prefix
  | cons part before ih =>
    have hrest := ih (fun p hp => h p (List.mem_cons_of_mem _ hp))
    unfold fixedText at hrest ⊢
    rw [List.cons_append, List.flatMap_cons]
    cases part with
    | literal value => exact (List.prefix_append_right_inj _).mpr hrest
    | seq formatSpec' => cases h _ List.mem_cons_self
    | token token =>
      rw [prefixText]
      split
      · exact List.nil_prefix
      · exact (List.prefix_append_right_inj _).mpr hrest

/-- What is compiled before the number begins what is rendered. -/
lemma compiled_startsWith {t : Template} {values : TemplateValues} (wildcard : Bool) {n : Nat}
    {ref : Text} (h : renderTemplate T t.parts values n = some ref) :
    (compileTemplatePattern T t.parts values wildcard).1 <+: ref := by
  obtain ⟨hparts, hbefore, -⟩ := template_split t
  obtain ⟨num, -, rfl⟩ := renderTemplate_eq_some h
  obtain ⟨rest, hrest⟩ :=
    prefixText_prefix values wildcard hbefore (seqFormat t.parts) (partsAfter t.parts)
  rw [← hparts] at hrest
  rw [← hrest, pyUpper_append, List.append_assoc]
  exact List.prefix_append _ _

/-- Without an open country, everything before the number is compiled into the prefix. -/
lemma prefixText_exact (values : TemplateValues) {before : List TemplatePart} (h : NoSeq before)
    (formatSpec : Option Text) (after : List TemplatePart) :
    prefixText values false (before ++ .seq formatSpec :: after) = fixedText values before := by
  induction before with
  | nil => rfl
  | cons part before ih =>
    have hrest := ih (fun p hp => h p (List.mem_cons_of_mem _ hp))
    unfold fixedText at hrest ⊢
    rw [List.cons_append, List.flatMap_cons, ← hrest]
    cases part with
    | literal value => rfl
    | seq formatSpec' => cases h _ List.mem_cons_self
    | token token => simp [prefixText, fixedPart]

end IpDocket.Case
