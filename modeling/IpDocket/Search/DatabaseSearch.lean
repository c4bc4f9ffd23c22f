import Mathlib
import IpDocket.Search.Expression

/-!
# Text search in the database

`sqlalchemy_contains_query` is the condition that a `SELECT` puts on a text, `text_matches_query` the
search in memory. Both look for the query as a whole, for its word characters, and for each of its
tokens; for texts of ASCII characters `LOWER` and `str.casefold` are the same.
-/

namespace IpDocket.Search
open IpDocket.Lib

/-- `_SQL_COMPACT_CHARS`. -/
def sqlCompactChars : List Char := [' ', '-', '_', '/', '.', '@']

/-- The nested `REPLACE` calls. -/
def sqlCompact (t : Text) : Text :=
  sqlCompactChars.foldl (fun t ch => t.filter (fun c => c ≠ ch)) t

/-- `f"%{value}%"`. -/
def containsPattern (value : Text) : Text := '%' :: value ++ ['%']

/-- The condition for a token of a query of several tokens. -/
def tokenClause (text token : Text) : Bool :=
  let compactToken := compactSearchText asciiSearch token
  if compactToken ≠ [] ∧ compactToken ≠ token then
    sqlLike (containsPattern token) text || sqlLike (containsPattern compactToken) (sqlCompact text)
  else sqlLike (containsPattern token) text

/-- The condition of `sqlalchemy_contains_query` for a text. -/
def sqlalchemyContainsQuery (field query : Text) : Bool :=
  let raw := normalizeSearchText asciiSearch query
  let textExpr := field.map asciiLower
  let compact := compactSearchText asciiSearch raw
  let tokens := pySplit raw
  sqlLike (containsPattern raw) textExpr ||
    (compact ≠ [] && 2 ≤ compact.length && sqlLike (containsPattern compact) (sqlCompact textExpr)) ||
    (1 < tokens.length && tokens.all (tokenClause textExpr))

/-- For a plain text `LIKE` looks for the text itself. -/
lemma sqlLike_containsPattern {p : Text} (hp : PlainPattern p) (t : Text) :
    sqlLike (containsPattern p) t = true ↔ p <:+: t := by
  unfold containsPattern
  rw [List.cons_append, sqlLike, List.any_eq_true, List.infix_iff_prefix_suffix]
  constructor
  · rintro ⟨s, hs, hlike⟩
    exact ⟨s, (sqlLike_plain_percent hp s).mp hlike, (List.mem_tails _ _).mp hs⟩
  · rintro ⟨s, hstart, hsuffix⟩
    exact ⟨s, (List.mem_tails _ _).mpr hsuffix, (sqlLike_plain_percent hp s).mpr hstart⟩

/-- A text that is not empty and has no white space. -/
def IsToken (w : Text) : Prop := w ≠ [] ∧ ∀ c ∈ w, pyIsSpace c = false

/-- A token does not reach over white space. -/
lemma infix_append_space {w a b : Text} {c : Char} (hw : IsToken w) (hc : pyIsSpace c = true) :
    w <:+: a ++ c :: b ↔ w <:+: a ∨ w <:+: b := by
  have hnot : c ∉ w := by
    intro hmem
    rw [hw.2 c hmem] at hc
    cases hc
  have hstart : ∀ l : Text, l <+: c :: b → c ∉ l → l = [] := by
    intro l hl hmem
    cases l with
    | nil => rfl
    | cons d l =>
      rw [List.cons_prefix_cons] at hl
      exact absurd (hl.1 ▸ List.mem_cons_self) hmem
  rw [List.infix_append_iff, List.infix_cons_iff]
  constructor
  · rintro (h | (h | h) | ⟨l, l', rfl, hsuffix, hpre⟩)
    · exact .inl h
    · exact absurd (hstart w h hnot) hw.1
    · exact .inr h
    · have hnil := hstart l' hpre (fun hmem => hnot (List.mem_append_right l hmem))
      rw [hnil, List.append_nil]
      exact .inl hsuffix.isInfix
  · rintro (h | h)
    · exact .inl h
    · exact .inr (.inl (.inr h))

lemma infix_iff_splitAux {w : Text} (hw : IsToken w) (word t : Text) :
    w <:+: word.reverse ++ t ↔ ∃ x ∈ splitAux word t, w <:+: x := by
  induction t generalizing word with
  | nil =>
    rw [List.append_nil, splitAux]
    split
    · next hnil =>
      rw [hnil, List.reverse_nil, List.infix_nil]
      simp [hw.1]
    · simp
  | cons c t ih =>
    rw [splitAux]
    split
    · next hspace =>
      rw [infix_append_space hw hspace]
      have hrest := ih []
      rw [List.reverse_nil, List.nil_append] at hrest
      split
      · next hnil =>
        rw [hnil, List.reverse_nil, List.infix_nil, or_iff_right hw.1]
        exact hrest
      · rw [hrest]
        simp
    · have hmove : word.reverse ++ c :: t = (c :: word).reverse ++ t := by simp
      rw [hmove]
      exact ih (c :: word)

/-- A token is in a text if it is in one of its words. -/
lemma infix_iff_word {w : Text} (hw : IsToken w) (t : Text) : w <:+: t ↔ ∃ x ∈ pySplit t, w <:+: x :=
  infix_iff_splitAux hw [] t

lemma isToken_splitAux {word : Text} (hword : ∀ c ∈ word, pyIsSpace c = false) (t : Text) :
    ∀ x ∈ splitAux word t, IsToken x := by
  induction t generalizing word with
  | nil =>
    intro x hx
    rw [splitAux] at hx
    split at hx
    · cases hx
    · next hne =>
      rw [List.mem_singleton.mp hx]
      exact ⟨by simpa using hne, fun c hc => hword c (List.mem_reverse.mp hc)⟩
  | cons c t ih =>
    intro x hx
    rw [splitAux] at hx
    have hnone : ∀ d ∈ ([] : Text), pyIsSpace d = false := fun d hd => absurd hd List.not_mem_nil
    split at hx
    · split at hx
      · exact ih hnone x hx
      · next hne =>
        obtain rfl | hx := List.mem_cons.mp hx
        · exact ⟨by simpa using hne, fun d hd => hword d (List.mem_reverse.mp hd)⟩
        · exact ih hnone x hx
    · next hspace =>
      apply ih _ x hx
      intro d hd
      obtain rfl | hd := List.mem_cons.mp hd
      · simpa using hspace
      · exact hword d hd

lemma isToken_pySplit (t : Text) : ∀ x ∈ pySplit t, IsToken x :=
  isToken_splitAux (fun _ hd => absurd hd List.not_mem_nil) t

lemma splitAux_token {w : Text} (hw : ∀ c ∈ w, pyIsSpace c = false) (word t : Text) :
    splitAux word (w ++ t) = splitAux (w.reverse ++ word) t := by
  induction w generalizing word with
  | nil => rfl
  | cons c w ih =>
    rw [List.cons_append, splitAux, if_neg (by simp [hw c List.mem_cons_self]),
      ih (fun d hd => hw d (List.mem_cons_of_mem c hd))]
    simp

lemma pySplit_intercalate {words : List Text} (h : ∀ w ∈ words, IsToken w) :
    pySplit ([' '].intercalate words) = words := by
  unfold pySplit
  induction words with
  | nil => rfl
  | cons w words ih =>
    obtain ⟨hne, hspaces⟩ := h w List.mem_cons_self
    have hne' : w.reverse ≠ [] := by simpa using hne
    cases words with
    | nil =>
      have hsplit := splitAux_token hspaces [] []
      rw [List.append_nil, List.append_nil] at hsplit
      rw [List.intercalate_singleton, hsplit, splitAux, if_neg hne', List.reverse_reverse]
    | cons v words =>
      have hrest := ih (fun x hx => h x (List.mem_cons_of_mem w hx))
      rw [List.intercalate_cons_cons, List.append_assoc, splitAux_token hspaces, List.append_nil,
        List.singleton_append, splitAux, if_pos (by decide), if_neg hne', List.reverse_reverse, hrest]

/-- What is no white space stays when the words are joined. -/
lemma filter_joined (p : Char → Bool) (hp : ∀ c, pyIsSpace c = true → p c = false) (t : Text) :
    ([' '].intercalate (pySplit t)).filter p = t.filter p := by
  have hjoined : ∀ words : List Text,
      ([' '].intercalate words).filter p = words.flatMap (fun w => w.filter p) := by
    intro words
    induction words with
    | nil => rfl
    | cons w words ih =>
      cases words with
      | nil => simp
      | cons v words =>
        rw [List.intercalate_cons_cons, List.filter_append, List.filter_append, ih, List.flatMap_cons]
        simp [hp ' ' (by decide)]
  have hsplit : ∀ word u : Text, (splitAux word u).flatMap (fun w => w.filter p) =
      (word.reverse ++ u).filter p := by
    intro word u
    induction u generalizing word with
    | nil =>
      rw [splitAux]
      split
      · next hnil => simp [hnil]
      · simp
    | cons c u ih =>
      rw [splitAux]
      split
      · next hspace =>
        have hc := hp c hspace
        split
        · next hnil =>
          rw [ih, hnil]
          simp [hc]
        · rw [List.flatMap_cons, ih]
          simp [hc]
      · rw [ih]
        simp
  rw [hjoined]
  exact hsplit [] t

/-! ### What the search in memory finds -/

def lowered (t : Text) : Text := t.map asciiLower

/-- The characters that `_COMPACT_RE` leaves. -/
def wordChars (t : Text) : Text := t.filter (fun c => asciiSearch.isWord c ∧ c ≠ '_')

lemma asciiLower_facts (c : Char) :
    asciiLower (asciiLower c) = asciiLower c ∧ pyIsSpace (asciiLower c) = pyIsSpace c := by
  by_cases h : 65 ≤ c.toNat ∧ c.toNat ≤ 90
  · have hc : c = Char.ofNat c.toNat := (Char.ofNat_toNat c).symm
    generalize hn : c.toNat = n at h hc
    obtain ⟨hlow, hhigh⟩ := h
    subst hc
    clear hn
    interval_cases n <;> decide
  · have hc : asciiLower c = c := if_neg h
    rw [hc, hc]
    exact ⟨rfl, rfl⟩

lemma normalizeSearchText_eq (t : Text) :
    normalizeSearchText asciiSearch t = [' '].intercalate (pySplit (lowered t)) := by
  have hcase : t.flatMap asciiSearch.casefold = lowered t := by
    unfold lowered
    rw [← List.flatMap_pure_eq_map]
    rfl
  unfold normalizeSearchText
  rw [hcase]

lemma pySplit_normalizeSearchText (t : Text) :
    pySplit (normalizeSearchText asciiSearch t) = pySplit (lowered t) := by
  rw [normalizeSearchText_eq]
  exact pySplit_intercalate (isToken_pySplit _)

/-- A token of a query has small letters already. -/
lemma lowered_token {q w : Text} (hw : w ∈ pySplit (lowered q)) : lowered w = w := by
  have hmem : w <:+: lowered q :=
    (infix_iff_word (isToken_pySplit _ w hw) _).mpr ⟨w, hw, List.infix_refl w⟩
  unfold lowered
  rw [List.map_congr_left (fun c hc => ?_), List.map_id]
  obtain ⟨d, -, rfl⟩ := List.mem_map.mp (hmem.subset hc)
  exact (asciiLower_facts d).1

/-- The characters of a normalised text are small letters already. -/
lemma lowered_joined (t : Text) :
    lowered ([' '].intercalate (pySplit (lowered t))) = [' '].intercalate (pySplit (lowered t)) := by
  have hword : ∀ w ∈ pySplit (lowered t), lowered w = w := fun w hw => lowered_token hw
  generalize pySplit (lowered t) = words at hword
  induction words with
  | nil => rfl
  | cons w words ih =>
    have hw := hword w List.mem_cons_self
    have hrest := ih (fun x hx => hword x (List.mem_cons_of_mem w hx))
    cases words with
    | nil => rw [List.intercalate_singleton, hw]
    | cons v words =>
      unfold lowered at hw hrest ⊢
      rw [List.intercalate_cons_cons, List.map_append, List.map_append, hw, hrest]
      rfl

lemma isWord_codes {c : Char} (h : asciiSearch.isWord c = true) :
    (48 ≤ c.toNat ∧ c.toNat ≤ 57) ∨ (65 ≤ c.toNat ∧ c.toNat ≤ 90) ∨ c.toNat = 95 ∨
      (97 ≤ c.toNat ∧ c.toNat ≤ 122) := by
  simp only [asciiSearch, Char.isAlphanum, Char.isAlpha, Char.isUpper, Char.isLower, Char.isDigit,
    Bool.or_eq_true, Bool.and_eq_true, decide_eq_true_eq, UInt32.le_iff_toNat_le, ge_iff_le] at h
  obtain ((⟨hlow, hhigh⟩ | ⟨hlow, hhigh⟩) | ⟨hlow, hhigh⟩) | rfl := h
  · exact .inr (.inl ⟨hlow, hhigh⟩)
  · exact .inr (.inr (.inr ⟨hlow, hhigh⟩))
  · exact .inl ⟨hlow, hhigh⟩
  · exact .inr (.inr (.inl rfl))

lemma not_isWord_of_isSpace {c : Char} (h : pyIsSpace c = true) : asciiSearch.isWord c = false := by
  by_contra hword
  rw [Bool.not_eq_false] at hword
  have hcodes := isWord_codes hword
  unfold pyIsSpace at h
  simp only [Bool.or_eq_true, Bool.and_eq_true, decide_eq_true_eq, beq_iff_eq] at h
  omega

lemma wordChars_joined (t : Text) : wordChars ([' '].intercalate (pySplit t)) = wordChars t := by
  apply filter_joined
  intro c hc
  simp [not_isWord_of_isSpace hc]

lemma compactSearchText_eq (t : Text) : compactSearchText asciiSearch t = wordChars (lowered t) := by
  unfold compactSearchText
  rw [normalizeSearchText_eq]
  exact wordChars_joined (lowered t)

/-- The word characters of the query, one at least, stand in a row among those of the text. -/
def FoundWhole (t q : Text) : Prop :=
  wordChars (lowered q) ≠ [] ∧ wordChars (lowered q) <:+: wordChars (lowered t)

/-- The same for a token, which is looked for as it is if it has no word character. -/
def FoundToken (t w : Text) : Prop :=
  (wordChars w ≠ [] ∧ wordChars w <:+: wordChars (lowered t)) ∨ (wordChars w = [] ∧ w <:+: lowered t)

lemma foundToken_of_infix {t w : Text} (h : w <:+: lowered t) : FoundToken t w := by
  by_cases hnil : wordChars w = []
  · exact .inr ⟨hnil, h⟩
  · exact .inl ⟨hnil, h.filter _⟩

lemma wordChars_lowered_joined (t : Text) :
    wordChars (lowered ([' '].intercalate (pySplit (lowered t)))) = wordChars (lowered t) := by
  rw [lowered_joined, wordChars_joined]

lemma compactSearchText_normalized (t : Text) :
    compactSearchText asciiSearch (normalizeSearchText asciiSearch t) = wordChars (lowered t) := by
  rw [compactSearchText_eq, normalizeSearchText_eq, wordChars_lowered_joined]

section Tokens

variable {q w : Text} (hw : w ∈ pySplit (lowered q))

include hw

lemma compactSearchText_token : compactSearchText asciiSearch w = wordChars w := by
  rw [compactSearchText_eq, lowered_token hw]

lemma normalizeSearchText_token : normalizeSearchText asciiSearch w = w := by
  have hsplit := @pySplit_intercalate [w] (by
    intro x hx
    rw [List.mem_singleton.mp hx]
    exact isToken_pySplit _ w hw)
  rw [List.intercalate_singleton] at hsplit
  rw [normalizeSearchText_eq, lowered_token hw, hsplit, List.intercalate_singleton]

lemma token_in_normalized (t : Text) : w <:+: normalizeSearchText asciiSearch t ↔ w <:+: lowered t := by
  have hw' := isToken_pySplit _ w hw
  rw [infix_iff_word hw', pySplit_normalizeSearchText, ← infix_iff_word hw']

/-- The test for a token in memory. -/
lemma foundToken_iff (t : Text) :
    (normalizeSearchText asciiSearch w <:+: normalizeSearchText asciiSearch t ∨
        (compactSearchText asciiSearch w ≠ [] ∧ compactSearchText asciiSearch w <:+:
          compactSearchText asciiSearch (normalizeSearchText asciiSearch t))) ↔ FoundToken t w := by
  rw [normalizeSearchText_token hw, compactSearchText_token hw, compactSearchText_normalized,
    token_in_normalized hw]
  constructor
  · rintro (h | h)
    · exact foundToken_of_infix h
    · exact .inl h
  · rintro (h | ⟨-, h⟩)
    · exact .inr h
    · exact .inl h

end Tokens

/-- Nothing is found in a text of white space. -/
lemma not_found_of_blank {t q : Text} (hblank : pySplit (lowered t) = [])
    (hquery : pySplit (lowered q) ≠ []) :
    ¬(FoundWhole t q ∨ ∀ w ∈ pySplit (lowered q), FoundToken t w) := by
  have hwords : wordChars (lowered t) = [] := by
    rw [← wordChars_joined, hblank]
    rfl
  rintro (⟨hne, h⟩ | h)
  · rw [hwords, List.infix_nil] at h
    exact hne h
  · obtain ⟨w, hw⟩ := List.exists_mem_of_ne_nil _ hquery
    obtain ⟨hne, hfound⟩ | ⟨-, hfound⟩ := h w hw
    · rw [hwords, List.infix_nil] at hfound
      exact hne hfound
    · rw [infix_iff_word (isToken_pySplit _ w hw), hblank] at hfound
      obtain ⟨x, hx, -⟩ := hfound
      cases hx

/-- The search in memory: as a whole, or token by token. -/
lemma textMatchesQuery_iff (t q : Text) :
    textMatchesQuery asciiSearch t q = true ↔
      FoundWhole t q ∨ ∀ w ∈ pySplit (lowered q), FoundToken t w := by
  have hjoined := normalizeSearchText_eq q
  unfold textMatchesQuery
  dsimp only
  rw [compactSearchText_normalized q, pySplit_normalizeSearchText q]
  cases htokens : pySplit (lowered q) with
  | nil =>
    rw [hjoined, htokens, List.intercalate_nil, if_pos rfl]
    simp
  | cons w ws =>
    have hmem : ∀ x ∈ w :: ws, x ∈ pySplit (lowered q) := fun x hx => by rw [htokens]; exact hx
    have hpart : ∀ x ∈ w :: ws, x <:+: normalizeSearchText asciiSearch q := by
      intro x hx
      rw [infix_iff_word (isToken_pySplit _ x (hmem x hx)), pySplit_normalizeSearchText]
      exact ⟨x, hmem x hx, List.infix_refl x⟩
    have hquery : normalizeSearchText asciiSearch q ≠ [] := by
      intro hnil
      have hw := hpart w List.mem_cons_self
      rw [hnil, List.infix_nil] at hw
      exact (isToken_pySplit _ w (hmem w List.mem_cons_self)).1 hw
    rw [if_neg hquery]
    by_cases hblank : normalizeSearchText asciiSearch t = []
    · have hnone : pySplit (lowered t) = [] := by
        rw [← pySplit_normalizeSearchText, hblank]
        rfl
      have hnot := not_found_of_blank (q := q) hnone (by rw [htokens]; exact List.cons_ne_nil w ws)
      rw [htokens] at hnot
      rw [if_pos hblank]
      exact iff_of_false Bool.false_ne_true hnot
    · rw [if_neg hblank]
      by_cases hwhole : normalizeSearchText asciiSearch q <:+: normalizeSearchText asciiSearch t
      · rw [if_pos hwhole]
        refine iff_of_true rfl (.inr (fun x hx => foundToken_of_infix ?_))
        exact (token_in_normalized (hmem x hx) t).mp ((hpart x hx).trans hwhole)
      · rw [if_neg hwhole, compactSearchText_normalized t]
        by_cases hcompact : wordChars (lowered q) ≠ [] ∧
            wordChars (lowered q) <:+: wordChars (lowered t)
        · rw [if_pos hcompact]
          exact iff_of_true rfl (.inl hcompact)
        · rw [if_neg hcompact]
          have hnot : ¬FoundWhole t q := hcompact
          rw [or_iff_right hnot]
          cases ws with
          | nil =>
            -- the one token is the query
            have hself : normalizeSearchText asciiSearch q = w := by
              rw [hjoined, htokens, List.intercalate_singleton]
            have hwords : wordChars (lowered q) = wordChars w := by
              rw [← wordChars_joined, ← hjoined, hself]
            rw [if_neg (by simp)]
            refine iff_of_false Bool.false_ne_true (fun hall => ?_)
            obtain h | ⟨-, h⟩ := hall w List.mem_cons_self
            · rw [← hwords] at h
              exact hnot h
            · rw [← token_in_normalized (hmem w List.mem_cons_self), ← hself] at h
              exact hwhole h
          | cons v ws =>
            rw [if_pos (by simp), List.all_eq_true]
            apply forall₂_congr
            intro x hx
            have hfound := foundToken_iff (hmem x hx) t
            rw [compactSearchText_normalized t] at hfound
            rw [decide_eq_true_eq]
            exact hfound

/-- The pattern of a token, or its word characters among what the `REPLACE` calls leave. -/
def TokenInDatabase (t w : Text) : Prop :=
  sqlLike (containsPattern w) (lowered t) = true ∨
    (wordChars w ≠ [] ∧ wordChars w ≠ w ∧ wordChars w <:+: sqlCompact (lowered t))

/-- The pattern of the whole query, or its word characters, two at least. -/
def WholeInDatabase (t q : Text) : Prop :=
  sqlLike (containsPattern (normalizeSearchText asciiSearch q)) (lowered t) = true ∨
    (2 ≤ (wordChars (lowered q)).length ∧ wordChars (lowered q) <:+: sqlCompact (lowered t))

lemma plainPattern_wordChars (t : Text) : PlainPattern (wordChars t) := by
  intro c hc
  obtain ⟨-, hword⟩ := List.mem_filter.mp hc
  obtain ⟨hword, hunderscore⟩ := of_decide_eq_true hword
  have hcodes := isWord_codes hword
  refine ⟨?_, hunderscore, ?_⟩
  · rintro rfl
    revert hcodes
    decide
  · rintro rfl
    revert hcodes
    decide

lemma tokenClause_iff {q w : Text} (hw : w ∈ pySplit (lowered q)) (t : Text) :
    tokenClause (lowered t) w = true ↔ TokenInDatabase t w := by
  unfold tokenClause TokenInDatabase
  dsimp only
  rw [compactSearchText_token hw]
  split
  · next h =>
    rw [Bool.or_eq_true, sqlLike_containsPattern (plainPattern_wordChars w)]
    grind
  · next h => grind

/-- The condition: as a whole, or token by token if there are several. -/
lemma sqlalchemyContainsQuery_iff (t q : Text) :
    sqlalchemyContainsQuery t q = true ↔
      WholeInDatabase t q ∨ (1 < (pySplit (lowered q)).length ∧
        ∀ w ∈ pySplit (lowered q), TokenInDatabase t w) := by
  unfold sqlalchemyContainsQuery WholeInDatabase
  dsimp only
  have hlower : t.map asciiLower = lowered t := rfl
  rw [compactSearchText_normalized, pySplit_normalizeSearchText, hlower]
  simp only [Bool.or_eq_true, Bool.and_eq_true, decide_eq_true_eq, List.all_eq_true]
  rw [sqlLike_containsPattern (plainPattern_wordChars _)]
  have htokens : (∀ w ∈ pySplit (lowered q), tokenClause (lowered t) w = true) ↔
      ∀ w ∈ pySplit (lowered q), TokenInDatabase t w := by
    apply forall₂_congr
    intro w hw
    exact tokenClause_iff hw t
  rw [htokens]
  have hlength : 2 ≤ (wordChars (lowered q)).length → wordChars (lowered q) ≠ [] := by
    intro h hnil
    rw [hnil] at h
    cases h
  grind

/-- A wildcard finds what is not there: the patterns match, but a token is not in the text, nor are the
word characters of the query. -/
def WildcardHit (t q : Text) : Prop :=
  (sqlLike (containsPattern (normalizeSearchText asciiSearch q)) (lowered t) = true ∨
      (1 < (pySplit (lowered q)).length ∧ ∀ w ∈ pySplit (lowered q), TokenInDatabase t w)) ∧
    ¬FoundWhole t q ∧ ∃ w ∈ pySplit (lowered q), ¬FoundToken t w

/-- The query is found only over characters that the database keeps: as a whole or in one of its tokens
the pattern does not match, and its word characters are not in a row in what the `REPLACE` calls leave,
or are too few to be looked for. -/
def DroppedHit (t q : Text) : Prop :=
  (FoundWhole t q ∨ ∀ w ∈ pySplit (lowered q), FoundToken t w) ∧ ¬WholeInDatabase t q ∧
    (1 < (pySplit (lowered q)).length → ∃ w ∈ pySplit (lowered q), ¬TokenInDatabase t w)

lemma sqlCompact_eq_filter (t : Text) : sqlCompact t = t.filter (fun c => c ∉ sqlCompactChars) := by
  unfold sqlCompact sqlCompactChars
  simp only [List.foldl_cons, List.foldl_nil, List.filter_filter]
  apply List.filter_congr
  intro c _
  simp only [List.mem_cons, List.not_mem_nil, or_false, not_or, Bool.decide_and]
  grind

lemma not_mem_sqlCompactChars {c : Char} (hword : asciiSearch.isWord c = true) (hne : c ≠ '_') :
    c ∉ sqlCompactChars := by
  have hcodes := isWord_codes hword
  intro hmem
  simp only [sqlCompactChars, List.mem_cons, List.not_mem_nil, or_false] at hmem
  obtain rfl | rfl | rfl | rfl | rfl | rfl := hmem
  · revert hcodes
    decide
  · revert hcodes
    decide
  · exact hne rfl
  · revert hcodes
    decide
  · revert hcodes
    decide
  · revert hcodes
    decide

/-- What is left by the `REPLACE` calls has the same word characters. -/
lemma wordChars_sqlCompact (t : Text) : wordChars (sqlCompact t) = wordChars t := by
  rw [sqlCompact_eq_filter]
  unfold wordChars
  rw [List.filter_filter]
  apply List.filter_congr
  intro c _
  by_cases h : asciiSearch.isWord c = true ∧ c ≠ '_'
  · simp [h, not_mem_sqlCompactChars h.1 h.2]
  · simp [h]

lemma wordChars_wordChars (t : Text) : wordChars (wordChars t) = wordChars t := by
  unfold wordChars
  rw [List.filter_filter]
  simp

/-- A row of word characters in what is left is a row among the word characters of the text. -/
lemma infix_wordChars_of_sqlCompact {w t : Text} (h : wordChars w <:+: sqlCompact t) :
    wordChars w <:+: wordChars t := by
  have hfilter : wordChars (wordChars w) <:+: wordChars (sqlCompact t) := h.filter _
  rw [wordChars_wordChars, wordChars_sqlCompact] at hfilter
  exact hfilter

lemma foundWhole_of_compact {t q : Text} (hlength : 2 ≤ (wordChars (lowered q)).length)
    (h : wordChars (lowered q) <:+: sqlCompact (lowered t)) : FoundWhole t q := by
  refine ⟨fun hnil => ?_, infix_wordChars_of_sqlCompact h⟩
  rw [hnil] at hlength
  cases hlength

/-- The database and memory agree on a text and a query exactly if there is neither kind of hit. -/
lemma searchesAgree_iff (t q : Text) :
    (sqlalchemyContainsQuery t q = true ↔ textMatchesQuery asciiSearch t q = true) ↔
      ¬WildcardHit t q ∧ ¬DroppedHit t q := by
  have hcompact : 2 ≤ (wordChars (lowered q)).length ∧ wordChars (lowered q) <:+: sqlCompact (lowered t) →
      FoundWhole t q := fun h => foundWhole_of_compact h.1 h.2
  have htokens : (∃ w ∈ pySplit (lowered q), ¬FoundToken t w) ↔
      ¬∀ w ∈ pySplit (lowered q), FoundToken t w := by
    push Not
    rfl
  have hclauses : (∃ w ∈ pySplit (lowered q), ¬TokenInDatabase t w) ↔
      ¬∀ w ∈ pySplit (lowered q), TokenInDatabase t w := by
    push Not
    rfl
  rw [sqlalchemyContainsQuery_iff, textMatchesQuery_iff]
  unfold WildcardHit DroppedHit WholeInDatabase
  rw [htokens, hclauses]
  generalize (∀ w ∈ pySplit (lowered q), FoundToken t w) = inMemory
  generalize (∀ w ∈ pySplit (lowered q), TokenInDatabase t w) = inDatabase
  generalize (2 ≤ (wordChars (lowered q)).length ∧
    wordChars (lowered q) <:+: sqlCompact (lowered t)) = compact at hcompact
  generalize (1 < (pySplit (lowered q)).length) = several
  generalize (sqlLike (containsPattern (normalizeSearchText asciiSearch q)) (lowered t) = true) = pattern
  generalize FoundWhole t q = whole at hcompact
  clear htokens hclauses
  grind

lemma plain_lowered {q : Text} (hq : PlainPattern q) : PlainPattern (lowered q) := by
  intro c hc
  obtain ⟨d, hd, rfl⟩ := List.mem_map.mp hc
  have hd' := hq d hd
  unfold asciiLower
  split
  · next hcodes =>
    obtain ⟨hlow, hhigh⟩ := hcodes
    generalize d.toNat = n at hlow hhigh
    interval_cases n <;> decide
  · exact hd'

/-- A query without the characters that `LIKE` treats in another way makes no hit of the first kind. -/
lemma not_wildcardHit {q : Text} (hq : PlainPattern q) (t : Text) : ¬WildcardHit t q := by
  have hchars := plain_lowered hq
  have hwithin : ∀ w ∈ pySplit (lowered q), w <:+: lowered q := fun w hw =>
    (infix_iff_word (isToken_pySplit _ w hw) _).mpr ⟨w, hw, List.infix_refl w⟩
  rintro ⟨hhit, hwhole, w, hw, hnot⟩
  apply hnot
  obtain hlike | ⟨-, hall⟩ := hhit
  · have hplain : PlainPattern (normalizeSearchText asciiSearch q) := by
      intro c hc
      cases hspace : pyIsSpace c with
      | true =>
        refine ⟨?_, ?_, ?_⟩
        · rintro rfl
          revert hspace
          decide
        · rintro rfl
          revert hspace
          decide
        · rintro rfl
          revert hspace
          decide
      | false =>
        rw [normalizeSearchText_eq] at hc
        have hkept : c ∈ ([' '].intercalate (pySplit (lowered q))).filter (fun d => !pyIsSpace d) := by
          rw [List.mem_filter, hspace]
          exact ⟨hc, rfl⟩
        rw [filter_joined (fun d => !pyIsSpace d) (fun d hd => by simp [hd])] at hkept
        exact hchars c (List.mem_filter.mp hkept).1
    rw [sqlLike_containsPattern hplain] at hlike
    apply foundToken_of_infix
    have hpart : w <:+: normalizeSearchText asciiSearch q := (token_in_normalized hw q).mpr (hwithin w hw)
    exact hpart.trans hlike
  · obtain hlike | ⟨hne, -, hcompact⟩ := hall w hw
    · have hplain : PlainPattern w := fun c hc => hchars c ((hwithin w hw).subset hc)
      rw [sqlLike_containsPattern hplain] at hlike
      exact foundToken_of_infix hlike
    · exact .inl ⟨hne, infix_wordChars_of_sqlCompact hcompact⟩

/-- The query has no wildcard, and if it has one word character only it is that character. Where the word
characters of a token stand in a row among those of the text, they do so already when the six characters
are taken out, and those of a token without other characters in the text itself. For a query of one token,
or with a token without word characters, the word characters of the query count instead. -/
structure FoundAlike (t q : Text) : Prop where
  plain : PlainPattern q
  short : (wordChars (lowered q)).length = 1 → pySplit (lowered q) = [wordChars (lowered q)]
  whole : (1 < (pySplit (lowered q)).length → ∃ w ∈ pySplit (lowered q), wordChars w = []) →
    wordChars (lowered q) <:+: wordChars (lowered t) →
      wordChars (lowered q) <:+: sqlCompact (lowered t)
  token : 1 < (pySplit (lowered q)).length → ∀ w ∈ pySplit (lowered q),
    wordChars w <:+: wordChars (lowered t) →
      if wordChars w = w then w <:+: lowered t else wordChars w <:+: sqlCompact (lowered t)

lemma plain_token {q w : Text} (hq : PlainPattern q) (hw : w ∈ pySplit (lowered q)) : PlainPattern w := by
  have hwithin : w <:+: lowered q :=
    (infix_iff_word (isToken_pySplit _ w hw) _).mpr ⟨w, hw, List.infix_refl w⟩
  exact fun c hc => plain_lowered hq c (hwithin.subset hc)

/-- A token found in memory is found in the database. -/
lemma FoundAlike.tokenInDatabase {t q w : Text} (h : FoundAlike t q)
    (hseveral : 1 < (pySplit (lowered q)).length) (hw : w ∈ pySplit (lowered q))
    (hfound : FoundToken t w) : TokenInDatabase t w := by
  have hliteral : w <:+: lowered t → TokenInDatabase t w := fun hin =>
    .inl ((sqlLike_containsPattern (plain_token h.plain hw) _).mpr hin)
  rcases hfound with ⟨hne, hin⟩ | ⟨-, hin⟩
  · have hrow := h.token hseveral w hw hin
    split at hrow
    · exact hliteral hrow
    · next hmore => exact .inr ⟨hne, hmore, hrow⟩
  · exact hliteral hin

/-- A query of one token that is found in memory is found in the database. -/
lemma FoundAlike.wholeInDatabase {t q w : Text} (h : FoundAlike t q)
    (hone : pySplit (lowered q) = [w]) (hfound : FoundToken t w) : WholeInDatabase t q := by
  have hquery : normalizeSearchText asciiSearch q = w := by
    rw [normalizeSearchText_eq, hone, List.intercalate_singleton]
  have hwords : wordChars (lowered q) = wordChars w := by
    rw [← wordChars_joined, hone, List.intercalate_singleton]
  have hplain : PlainPattern w := plain_token h.plain (by rw [hone]; exact List.mem_singleton_self w)
  have hliteral : w <:+: lowered t → WholeInDatabase t q := fun hin =>
    .inl (by rw [hquery]; exact (sqlLike_containsPattern hplain _).mpr hin)
  rcases hfound with ⟨hne, hin⟩ | ⟨-, hin⟩
  · have hrow := h.whole (by simp [hone]) (by rw [hwords]; exact hin)
    rcases Nat.lt_or_eq_of_le (List.length_pos_iff.mpr hne) with hlong | hshort
    · exact .inr ⟨by rw [hwords]; exact hlong, hrow⟩
    · -- the query is the one word character
      have hself : wordChars w = w := by
        have hsplit := h.short (by rw [hwords]; exact hshort.symm)
        rw [hone, hwords, List.cons.injEq] at hsplit
        exact hsplit.1.symm
      obtain ⟨c, hc⟩ := List.length_eq_one_iff.mp hshort.symm
      rw [hc] at hself hin
      rw [← hself] at hliteral
      refine hliteral (List.singleton_infix_iff _ _ |>.mpr ?_)
      exact (List.mem_filter.mp (hin.subset (List.mem_singleton_self c))).1
  · exact hliteral hin

lemma FoundAlike.not_droppedHit {t q : Text} (h : FoundAlike t q) : ¬DroppedHit t q := by
  rintro ⟨hfound, hwhole, hclause⟩
  have htokens : ¬∀ w ∈ pySplit (lowered q), FoundToken t w := by
    intro hall
    match hsplit : pySplit (lowered q) with
    | [] =>
      apply hwhole
      left
      rw [normalizeSearchText_eq, hsplit, List.intercalate_nil]
      exact (sqlLike_containsPattern (fun c hc => by cases hc) _).mpr List.nil_infix
    | [w] => exact hwhole (h.wholeInDatabase hsplit (hall w (by rw [hsplit]; exact List.mem_singleton_self w)))
    | v :: w :: ws =>
      have hseveral : 1 < (pySplit (lowered q)).length := by
        rw [hsplit]
        simp
      obtain ⟨x, hx, hnot⟩ := hclause hseveral
      exact hnot (h.tokenInDatabase hseveral hx (hall x hx))
  rcases hfound with ⟨hne, hin⟩ | hall
  · rcases Nat.lt_or_eq_of_le (List.length_pos_iff.mpr hne) with hlong | hshort
    · by_cases hwords : 1 < (pySplit (lowered q)).length → ∃ w ∈ pySplit (lowered q), wordChars w = []
      · exact hwhole (.inr ⟨hlong, h.whole hwords hin⟩)
      · -- every token has word characters, and they are a part of those of the query
        push Not at hwords
        refine htokens (fun w hw => .inl ⟨hwords.2 w hw, ?_⟩)
        have hpart : w <:+: lowered q :=
          (infix_iff_word (isToken_pySplit _ w hw) _).mpr ⟨w, hw, List.infix_refl w⟩
        exact (hpart.filter _).trans hin
    · have hone := h.short hshort.symm
      refine htokens (fun w hw => .inl ?_)
      rw [hone, List.mem_singleton] at hw
      rw [hw, wordChars_wordChars]
      exact ⟨hne, hin⟩
  · exact htokens hall

instance (t q : Text) : Decidable (FoundAlike t q) :=
  decidable_of_iff (PlainPattern q ∧
      ((wordChars (lowered q)).length = 1 → pySplit (lowered q) = [wordChars (lowered q)]) ∧
      ((1 < (pySplit (lowered q)).length → ∃ w ∈ pySplit (lowered q), wordChars w = []) →
        wordChars (lowered q) <:+: wordChars (lowered t) →
          wordChars (lowered q) <:+: sqlCompact (lowered t)) ∧
      (1 < (pySplit (lowered q)).length → ∀ w ∈ pySplit (lowered q),
        wordChars w <:+: wordChars (lowered t) →
          if wordChars w = w then w <:+: lowered t else wordChars w <:+: sqlCompact (lowered t)))
    ⟨fun ⟨hplain, hshort, hwhole, htoken⟩ => ⟨hplain, hshort, hwhole, htoken⟩,
      fun h => ⟨h.plain, h.short, h.whole, h.token⟩⟩

/-- Without the conditions: tokens that stand across a separator only, characters that the database
keeps, and a lone word character. -/
example : ¬FoundAlike "a-b cd".toList "cd ab".toList ∧ ¬FoundAlike "foo(bar)".toList "foobar".toList ∧
    ¬FoundAlike "a".toList "-a".toList := by decide +kernel

end IpDocket.Search
