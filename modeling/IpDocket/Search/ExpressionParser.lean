import IpDocket.Search.Expression
import Mathlib.Data.List.TakeWhile

/-!
# Parsing search expressions

`parse_search_expression` reads the tokens of a query one after the other: each is an operator, a term,
the name of a field, or the value of the name before it. What a round of its loop reads depends on the
tokens and on a `NOT` before them only, so that the uses of the tokens come first and the groups are
made of them.
-/

namespace IpDocket.Search
open IpDocket.Lib

/-- The states of `shlex.read_token` for `posix=True`. In a quotation and after a backslash there is a
word already. -/
inductive Shlex
  | between
  | word
  | single
  | double
  | escaped
  | escapedInDouble

def isShlexSpace (c : Char) : Bool := c = ' ' || c = '\t' || c = '\r' || c = '\n'

/-- `shlex.split`; `token` is what has been read of a word, backwards, and `quoted` says that a part of
it was in quotation marks. `none` stands for `ValueError`. -/
def shlexFrom : Shlex → (quoted : Bool) → (token : Text) → Text → Option (List Text)
  | .between, _, _, [] => some []
  | .between, _, _, c :: t =>
    if isShlexSpace c then shlexFrom .between false [] t
    else if c = '\\' then shlexFrom .escaped false [] t
    else if c = '\'' then shlexFrom .single true [] t
    else if c = '"' then shlexFrom .double true [] t
    else shlexFrom .word false [c] t
  | .word, quoted, token, [] => some (if quoted ∨ token ≠ [] then [token.reverse] else [])
  | .word, quoted, token, c :: t =>
    if isShlexSpace c then
      if quoted ∨ token ≠ [] then (shlexFrom .between false [] t).map (token.reverse :: ·)
      else shlexFrom .between false [] t
    else if c = '\\' then shlexFrom .escaped quoted token t
    else if c = '\'' then shlexFrom .single true token t
    else if c = '"' then shlexFrom .double true token t
    else shlexFrom .word quoted (c :: token) t
  | .single, _, _, [] => none
  | .single, quoted, token, c :: t =>
    if c = '\'' then shlexFrom .word quoted token t else shlexFrom .single quoted (c :: token) t
  | .double, _, _, [] => none
  | .double, quoted, token, c :: t =>
    if c = '"' then shlexFrom .word quoted token t
    else if c = '\\' then shlexFrom .escapedInDouble quoted token t
    else shlexFrom .double quoted (c :: token) t
  | .escaped, _, _, [] => none
  | .escaped, quoted, token, c :: t => shlexFrom .word quoted (c :: token) t
  | .escapedInDouble, _, _, [] => none
  | .escapedInDouble, quoted, token, c :: t =>
    -- within quotation marks only the mark and the backslash lose their backslash
    shlexFrom .double quoted (if c = '\\' ∨ c = '"' then c :: token else c :: '\\' :: token) t

/-- The match of `_FALLBACK_TOKEN_RE` at the beginning of a text: its token, and its length. -/
def fallbackMatch (t : Text) : Option (Text × Nat) :=
  let quotation (mark : Char) : Option (Text × Nat) :=
    if t.head? = some mark ∧ mark ∈ t.tail then
      some (t.tail.takeWhile (· ≠ mark), (t.tail.takeWhile (· ≠ mark)).length + 2)
    else none
  let word := t.takeWhile (fun c => !pyIsSpace c)
  quotation '"' <|> quotation '\'' <|> if word = [] then none else some (word, word.length)

/-- `_FALLBACK_TOKEN_RE.findall`; `skip` characters belong to the last match. -/
def fallbackFrom : (skip : Nat) → Text → List Text
  | _, [] => []
  | skip + 1, _ :: t => fallbackFrom skip t
  | 0, c :: t =>
    match fallbackMatch (c :: t) with
    | none => fallbackFrom 0 t
    | some (token, length) => token :: fallbackFrom (length - 1) t

def tokenizeSearchExpression (raw : Text) : List Text :=
  let text := pyStrip raw
  match shlexFrom .between false [] text with
  | some tokens => tokens
  | none => ((fallbackFrom 0 text).map pyStrip).filter (· ≠ [])

section Parser

variable (T : SearchTables) (U : UpperTable)

/-- The aliases as `parse_search_expression` keeps them; of two for one key the last one counts. -/
def aliasTable (fieldAliases : List (Text × Text)) (key : Text) : Option Text :=
  ((fieldAliases.filter (fun entry => pyStrip entry.1 ≠ [] ∧ pyStrip entry.2 ≠ [])).reverse.find?
    (fun entry => (pyStrip entry.1).flatMap T.casefold = key)).map (fun entry => pyStrip entry.2)

variable (aliases : Text → Option Text)

/-- The field with the name, if the name is known. -/
def knownField (name : Text) : Option Text :=
  if name = [] then none else aliases (name.flatMap T.casefold)

/-- The name and the value at a separator, and whether the value is the next token. -/
def trySeparator (sep : Char) (token : Text) (next : Option Text) : Text × Text × Bool :=
  if token.getLast? = some sep then (pyStrip token.dropLast, (next.map pyStrip).getD [], next.isSome)
  else if sep ∈ token then
    (pyStrip (token.takeWhile (· ≠ sep)), pyStrip ((token.dropWhile (· ≠ sep)).drop 1), false)
  else ([], [], false)

/-- A field with its value, and whether the value is the next token. -/
structure ReadField where
  name : Text
  value : Text
  fromNext : Bool

/-- The loop over the separators: the field that is read, and whether the next token was passed. -/
def readField (token : Text) (next : Option Text) : Option ReadField × Bool :=
  let colon := trySeparator ':' token next
  match knownField T aliases colon.1 with
  | some name => (some ⟨name, colon.2.1, colon.2.2⟩, colon.2.2)
  | none =>
    let equals := trySeparator '=' token next
    match knownField T aliases equals.1 with
    | some name => (some ⟨name, equals.2.1, equals.2.2⟩, colon.2.2 || equals.2.2)
    | none => (none, colon.2.2 || equals.2.2)

/-- The token without its sign, and whether the sign negates. -/
def unsigned : Text → Bool × Text
  | '+' :: c :: t => (false, pyStrip (c :: t))
  | '-' :: c :: t => (true, pyStrip (c :: t))
  | token => (false, token)

/-- What a round of the loop makes of the tokens that it reads. -/
inductive Use
  | nothing
  | alternative (token : Text)
  | negation (token : Text)
  | term (negated : Bool) (text token : Text)
  | field (negated : Bool) (name value : Text) (tokens : List Text)

/-- The tokens that a use is made of. -/
def Use.tokens : Use → List Text
  | .nothing => []
  | .alternative token => [token]
  | .negation token => [token]
  | .term _ _ token => [token]
  | .field _ _ _ tokens => tokens

def isAlternative (token : Text) : Bool :=
  pyUpper U (pyStrip token) = "OR".toList || pyUpper U (pyStrip token) = "|".toList

def isNegation (token : Text) : Bool := pyUpper U (pyStrip token) = "NOT".toList

/-- A round of the loop: the use, whether a `NOT` waits for the next term, and whether the next token
was passed. -/
def readToken (pendingNot : Bool) (token : Text) (next : Option Text) : Use × Bool × Bool :=
  let stripped := pyStrip token
  if stripped = [] then (.nothing, pendingNot, false)
  else if isAlternative U token then (.alternative token, false, false)
  else if isNegation U token then (.negation token, true, false)
  else
    let negate := pendingNot || (unsigned stripped).1
    let plain := (unsigned stripped).2
    if plain = [] then (.nothing, false, false)
    else match readField T aliases plain next with
      | (some field, passed) =>
        (.field negate field.name field.value (token :: if field.fromNext then next.toList else []),
          false, passed)
      | (none, passed) => (.term negate plain token, false, passed)

/-- The loop over the tokens. -/
def readTokens (pendingNot : Bool) : List Text → List Use
  | [] => []
  | token :: rest =>
    match readToken T U aliases pendingNot token rest.head? with
    | (use, pending, false) => use :: readTokens pending rest
    | (use, pending, true) =>
      match rest with
      | [] => [use]
      | _ :: rest => use :: readTokens pending rest

def hasContent (g : SearchExpressionGroup) : Bool :=
  g.terms ≠ [] || g.notTerms ≠ [] || g.fields ≠ [] || g.notFields ≠ []

def emptyGroup : SearchExpressionGroup := ⟨[], [], [], []⟩

/-- `target.setdefault(key, []).append(value)`. -/
def appendToKey (key : String) (value : Text) : List (String × List Text) → List (String × List Text)
  | [] => [(key, [value])]
  | (name, values) :: items =>
    if name = key then (name, values ++ [value]) :: items
    else (name, values) :: appendToKey key value items

/-- `_append_search_value`. -/
def appendSearchValue (key value : Text) (target : List (String × List Text)) :
    List (String × List Text) :=
  if pyStrip key = [] ∨ pyStrip value = [] then target
  else appendToKey (String.ofList (pyStrip key)) (pyStrip value) target

/-- The groups that are complete, and the current one. -/
def applyUse : List SearchExpressionGroup × SearchExpressionGroup → Use →
    List SearchExpressionGroup × SearchExpressionGroup
  | (groups, current), .alternative _ =>
    if hasContent current then (groups ++ [current], emptyGroup) else (groups, current)
  | (groups, current), .term true text _ =>
    (groups, { current with notTerms := current.notTerms ++ [text] })
  | (groups, current), .term false text _ =>
    (groups, { current with terms := current.terms ++ [text] })
  | (groups, current), .field true name value _ =>
    (groups, { current with notFields := appendSearchValue name value current.notFields })
  | (groups, current), .field false name value _ =>
    (groups, { current with fields := appendSearchValue name value current.fields })
  | state, _ => state

/-- The groups that are made of the uses. -/
def assemble (uses : List Use) : List SearchExpressionGroup :=
  let state := uses.foldl applyUse ([], emptyGroup)
  if hasContent state.2 then state.1 ++ [state.2] else state.1

/-- A query without a group is one term. -/
def groupsOf (text : Text) (uses : List Use) : List SearchExpressionGroup :=
  if assemble uses = [] ∧ text ≠ [] then [⟨[text], [], [], []⟩] else assemble uses

/-- The uses of the tokens of a query. -/
def usesOf (fieldAliases : List (Text × Text)) (raw : Text) : List Use :=
  readTokens T U (aliasTable T fieldAliases) false (tokenizeSearchExpression (pyStrip raw))

def parseSearchExpression (fieldAliases : List (Text × Text)) (raw : Text) : SearchExpression :=
  if tokenizeSearchExpression (pyStrip raw) = [] then ⟨pyStrip raw, []⟩
  else ⟨pyStrip raw, groupsOf (pyStrip raw) (usesOf T U fieldAliases raw)⟩

/-- A token that is not blank. -/
def isWord (token : Text) : Bool := pyStrip token ≠ []

/-- The name and the value of a field that is in one token, or the name that takes the next token. -/
def FieldAt (name value : Text) (tokens : List Text) : Prop :=
  ∃ sep ∈ [':', '='], ∃ token key, knownField T aliases key = some name ∧
    ((tokens = [token] ∧ value = [] ∧ (unsigned (pyStrip token)).2.getLast? = some sep ∧
        key = pyStrip (unsigned (pyStrip token)).2.dropLast) ∨
      (tokens = [token] ∧ sep ∈ (unsigned (pyStrip token)).2 ∧
        key = pyStrip ((unsigned (pyStrip token)).2.takeWhile (· ≠ sep)) ∧
        value = pyStrip (((unsigned (pyStrip token)).2.dropWhile (· ≠ sep)).drop 1)) ∨
      ∃ next, tokens = [token, next] ∧ value = pyStrip next ∧
        (unsigned (pyStrip token)).2.getLast? = some sep ∧
        key = pyStrip (unsigned (pyStrip token)).2.dropLast)

/-- The use is one that its tokens can have. -/
def Use.Valid : Use → Prop
  | .nothing => True
  | .alternative token => isAlternative U token = true
  | .negation token => isNegation U token = true
  | .term _ text token => text = (unsigned (pyStrip token)).2
  | .field _ name value tokens => FieldAt T aliases name value tokens

/-- The token is a name to which the next token belongs: it ends in a separator. A field that is named
before a colon within the token comes first. -/
def takesNext (plain : Text) : Bool :=
  plain.getLast? = some ':' ||
    (plain.getLast? = some '=' &&
      !(':' ∈ plain && (knownField T aliases (pyStrip (plain.takeWhile (· ≠ ':')))).isSome))

/-- Every token in the place of a name is the name of a known field, unless no word comes after it. -/
def namesKnown : List Text → Bool
  | [] => true
  | token :: rest =>
    if isWord token && !isAlternative U token && !isNegation U token &&
        takesNext T aliases (unsigned (pyStrip token)).2 then
      match rest with
      | [] => true
      | next :: rest =>
        ((knownField T aliases (pyStrip (unsigned (pyStrip token)).2.dropLast)).isSome ||
          !isWord next) && namesKnown rest
    else namesKnown rest

/-! ### A round of the loop -/

variable {T U aliases}

lemma knownField_nil : knownField T aliases [] = none := if_pos rfl

lemma trySeparator_ends {sep : Char} {token : Text} (h : token.getLast? = some sep) (next : Option Text) :
    trySeparator sep token next = (pyStrip token.dropLast, (next.map pyStrip).getD [], next.isSome) :=
  if_pos h

lemma trySeparator_within {sep : Char} {token : Text} (h : token.getLast? ≠ some sep) (hmem : sep ∈ token)
    (next : Option Text) : trySeparator sep token next =
      (pyStrip (token.takeWhile (· ≠ sep)), pyStrip ((token.dropWhile (· ≠ sep)).drop 1), false) := by
  unfold trySeparator
  rw [if_neg h, if_pos hmem]

lemma trySeparator_without {sep : Char} {token : Text} (h : token.getLast? ≠ some sep) (hmem : sep ∉ token)
    (next : Option Text) : trySeparator sep token next = ([], [], false) := by
  unfold trySeparator
  rw [if_neg h, if_neg hmem]

variable (T aliases) in
/-- The next token is passed exactly if the token takes it, and then belongs to a field exactly if the
name is known. -/
lemma readField_next (plain : Text) (next : Option Text) :
    (readField T aliases plain next).2 = (takesNext T aliases plain && next.isSome) ∧
      ((readField T aliases plain next).2 = true →
        (((readField T aliases plain next).1.any (·.fromNext)) =
          (knownField T aliases (pyStrip plain.dropLast)).isSome)) ∧
      ((readField T aliases plain next).2 = false →
        ∀ field, (readField T aliases plain next).1 = some field → field.fromNext = false) := by
  unfold readField takesNext
  by_cases hcolon : plain.getLast? = some ':'
  · have hequals : plain.getLast? ≠ some '=' := by
      rw [hcolon]
      decide
    rw [trySeparator_ends hcolon]
    dsimp only
    have hpassed : (trySeparator '=' plain next).2.2 = false := by
      by_cases hmem : '=' ∈ plain
      · rw [trySeparator_within hequals hmem]
      · rw [trySeparator_without hequals hmem]
    cases hknown : knownField T aliases (pyStrip plain.dropLast) with
    | some name => simp [hcolon]
    | none =>
      cases hother : knownField T aliases (trySeparator '=' plain next).1 with
      | some name => simp [hcolon, hpassed]
      | none => simp [hcolon, hpassed]
  · have hfirst : (trySeparator ':' plain next).2.2 = false ∧
        (knownField T aliases (trySeparator ':' plain next).1).isSome =
          (decide (':' ∈ plain) &&
            (knownField T aliases (pyStrip (plain.takeWhile (· ≠ ':')))).isSome) := by
      by_cases hmem : ':' ∈ plain
      · rw [trySeparator_within hcolon hmem]
        simp [hmem]
      · rw [trySeparator_without hcolon hmem]
        simp [hmem, knownField_nil]
    obtain ⟨hpassed, hnamed⟩ := hfirst
    dsimp only
    rw [hpassed, ← hnamed]
    cases hknown : knownField T aliases (trySeparator ':' plain next).1 with
    | some name => simp [hcolon]
    | none =>
      by_cases hequals : plain.getLast? = some '='
      · rw [trySeparator_ends hequals]
        cases hother : knownField T aliases (pyStrip plain.dropLast) with
        | some name => simp [hequals]
        | none => simp [hequals]
      · have hnot : (trySeparator '=' plain next).2.2 = false := by
          by_cases hmem : '=' ∈ plain
          · rw [trySeparator_within hequals hmem]
          · rw [trySeparator_without hequals hmem]
        cases hother : knownField T aliases (trySeparator '=' plain next).1 with
        | some name => simp [hcolon, hequals, hnot]
        | none => simp [hcolon, hequals, hnot]

lemma fieldAt_trySeparator {sep : Char} (hsep : sep ∈ [':', '=']) {token : Text} {next : Option Text}
    {name : Text} (h : knownField T aliases
      (trySeparator sep (unsigned (pyStrip token)).2 next).1 = some name) :
    FieldAt T aliases name (trySeparator sep (unsigned (pyStrip token)).2 next).2.1
      (token :: if (trySeparator sep (unsigned (pyStrip token)).2 next).2.2 then next.toList else []) := by
  by_cases hends : (unsigned (pyStrip token)).2.getLast? = some sep
  · rw [trySeparator_ends hends] at h ⊢
    refine ⟨sep, hsep, token, _, h, ?_⟩
    cases next with
    | none => exact .inl ⟨rfl, rfl, hends, rfl⟩
    | some next => exact .inr (.inr ⟨next, rfl, rfl, hends, rfl⟩)
  · by_cases hmem : sep ∈ (unsigned (pyStrip token)).2
    · rw [trySeparator_within hends hmem] at h ⊢
      exact ⟨sep, hsep, token, _, h, .inr (.inl ⟨rfl, hmem, rfl, rfl⟩)⟩
    · rw [trySeparator_without hends hmem] at h
      rw [knownField_nil] at h
      cases h

lemma fieldAt_readField {token : Text} {next : Option Text} {field : ReadField} {passed : Bool}
    (h : readField T aliases (unsigned (pyStrip token)).2 next = (some field, passed)) :
    FieldAt T aliases field.name field.value
      (token :: if field.fromNext then next.toList else []) := by
  unfold readField at h
  dsimp only at h
  split at h
  · next name hname =>
    rw [← Option.some_inj.mp (congrArg Prod.fst h)]
    exact fieldAt_trySeparator (by simp) hname
  · split at h
    · next name hname =>
      rw [← Option.some_inj.mp (congrArg Prod.fst h)]
      exact fieldAt_trySeparator (by simp) hname
    · cases h

lemma unsigned_ne_nil {t : Text} (hstripped : Stripped t) (h : t ≠ []) : (unsigned t).2 ≠ [] := by
  have hrest : ∀ sign c rest, t = sign :: c :: rest → pyStrip (c :: rest) ≠ [] := by
    intro sign c rest heq hnil
    have hlast := hstripped.2
    rw [heq, List.getLast?_cons_cons] at hlast
    cases hend : (c :: rest).getLast? with
    | none => simp at hend
    | some d =>
      have hspace := hlast d hend
      have hdrop : (c :: rest).dropWhile pyIsSpace = [] := by
        unfold pyStrip at hnil
        have hnil' := List.reverse_eq_nil_iff.mp hnil
        by_contra hne
        have hhead := head?_dropWhile_isSpace (c :: rest)
        rw [List.dropWhile_eq_nil_iff] at hnil'
        obtain ⟨e, hcons⟩ := Option.isSome_iff_exists.mp (List.isSome_head?.mpr hne)
        have he := hnil' e (List.mem_reverse.mpr (List.mem_of_mem_head? hcons))
        rw [hhead e hcons] at he
        cases he
      rw [List.dropWhile_eq_nil_iff] at hdrop
      have hd := hdrop d (List.mem_of_mem_getLast? hend)
      rw [hspace] at hd
      cases hd
  unfold unsigned
  split
  · next c rest => exact hrest '+' c rest rfl
  · next c rest => exact hrest '-' c rest rfl
  · exact h

variable (T U aliases) in
/-- What a round makes of its token, when the next one is not passed and when it is. -/
lemma readToken_spec (pendingNot : Bool) (token : Text) (next : Option Text) :
    (readToken T U aliases pendingNot token next).1.Valid T U aliases ∧
      (readToken T U aliases pendingNot token next).2.2 =
        (isWord token && !isAlternative U token && !isNegation U token &&
          takesNext T aliases (unsigned (pyStrip token)).2 && next.isSome) ∧
      (readToken T U aliases pendingNot token next).1.tokens.filter isWord =
        (if isWord token then [token] else []) ++
          (if (readToken T U aliases pendingNot token next).2.2 ∧
              (knownField T aliases (pyStrip (unsigned (pyStrip token)).2.dropLast)).isSome then
            next.toList.filter isWord else []) := by
  unfold readToken
  dsimp only
  by_cases hblank : pyStrip token = []
  · rw [if_pos hblank]
    have hword : isWord token = false := by simp [isWord, hblank]
    simp [Use.Valid, Use.tokens, hword]
  · have hword : isWord token = true := by simp [isWord, hblank]
    rw [if_neg hblank]
    by_cases halternative : isAlternative U token = true
    · rw [if_pos halternative]
      simp [Use.Valid, Use.tokens, hword, halternative]
    · rw [if_neg halternative]
      by_cases hnegation : isNegation U token = true
      · rw [if_pos hnegation]
        simp [Use.Valid, Use.tokens, hword, hnegation]
      · rw [if_neg hnegation, if_neg (unsigned_ne_nil (stripped_pyStrip token) hblank)]
        obtain ⟨hpassed, hnamed, hkept⟩ :=
          readField_next T aliases (unsigned (pyStrip token)).2 next
        rw [Bool.not_eq_true] at halternative hnegation
        split
        · next field passed heq =>
          rw [heq] at hpassed hnamed hkept
          dsimp only at hpassed hnamed hkept ⊢
          refine ⟨fieldAt_readField heq, by simp [hword, halternative, hnegation, hpassed], ?_⟩
          cases hpass : passed with
          | false =>
            rw [hkept hpass field rfl]
            simp [Use.tokens, hword]
          | true =>
            have hsame := hnamed hpass
            rw [Option.any_some] at hsame
            rw [Use.tokens, hsame]
            cases (knownField T aliases (pyStrip (unsigned (pyStrip token)).2.dropLast)).isSome with
            | false => simp [hword]
            | true => simp [hword]
        · next passed heq =>
          rw [heq] at hpassed hnamed
          dsimp only at hpassed hnamed ⊢
          refine ⟨rfl, by simp [hword, halternative, hnegation, hpassed], ?_⟩
          cases hpass : passed with
          | false => simp [Use.tokens, hword]
          | true =>
            have hsame := hnamed hpass
            rw [Option.any_none] at hsame
            simp [Use.tokens, hword, ← hsame]

variable (T U aliases) in
lemma readTokens_cons (pendingNot : Bool) (token : Text) (rest : List Text) :
    readTokens T U aliases pendingNot (token :: rest) =
      (readToken T U aliases pendingNot token rest.head?).1 ::
        readTokens T U aliases (readToken T U aliases pendingNot token rest.head?).2.1
          (if (readToken T U aliases pendingNot token rest.head?).2.2 then rest.tail else rest) := by
  rw [readTokens]
  generalize readToken T U aliases pendingNot token rest.head? = reading
  obtain ⟨use, pending, passed⟩ := reading
  cases passed with
  | false => rfl
  | true =>
    cases rest with
    | nil => rfl
    | cons next rest => rfl

lemma valid_readTokens (pendingNot : Bool) (tokens : List Text) :
    ∀ use ∈ readTokens T U aliases pendingNot tokens, use.Valid T U aliases := by
  match tokens with
  | [] =>
    intro use huse
    cases huse
  | token :: rest =>
    intro use huse
    rw [readTokens_cons, List.mem_cons] at huse
    obtain rfl | huse := huse
    · exact (readToken_spec T U aliases pendingNot token rest.head?).1
    · have hshorter : (if (readToken T U aliases pendingNot token rest.head?).2.2 then rest.tail
          else rest).length ≤ rest.length := by
        split <;> simp
      exact valid_readTokens _ _ use huse
termination_by tokens.length
decreasing_by simp only [List.length_cons]; omega

/-- The words that are used, in order. -/
def usedWords (uses : List Use) : List Text := (uses.flatMap Use.tokens).filter isWord

variable (T U aliases) in
/-- A round that passes the next token has a name in its token, and uses the next token exactly if the
name is known. -/
lemma usedWords_cons (pendingNot : Bool) (token : Text) (rest : List Text) :
    ∃ pending, usedWords (readTokens T U aliases pendingNot (token :: rest)) =
      if isWord token && !isAlternative U token && !isNegation U token &&
          takesNext T aliases (unsigned (pyStrip token)).2 then
        token :: ((if (knownField T aliases (pyStrip (unsigned (pyStrip token)).2.dropLast)).isSome then
          rest.head?.toList.filter isWord else []) ++
            usedWords (readTokens T U aliases pending rest.tail))
      else (if isWord token then [token] else []) ++
        usedWords (readTokens T U aliases pending rest) := by
  obtain ⟨-, hpassed, htokens⟩ :=
    readToken_spec T U aliases pendingNot token rest.head?
  refine ⟨(readToken T U aliases pendingNot token rest.head?).2.1, ?_⟩
  unfold usedWords
  rw [readTokens_cons, List.flatMap_cons, List.filter_append, htokens, hpassed]
  by_cases htakes : (isWord token && !isAlternative U token && !isNegation U token &&
      takesNext T aliases (unsigned (pyStrip token)).2) = true
  · have hword : isWord token = true := by
      simp only [Bool.and_eq_true] at htakes
      exact htakes.1.1.1
    rw [if_pos htakes, htakes, Bool.true_and]
    cases rest with
    | nil => simp [hword]
    | cons next rest => simp [hword]
  · rw [if_neg htakes, Bool.not_eq_true] at *
    simp [htakes]

variable (T U aliases) in
/-- The words that are used are words of the query, in its order. -/
lemma usedWords_sublist (pendingNot : Bool) (tokens : List Text) :
    (usedWords (readTokens T U aliases pendingNot tokens)).Sublist (tokens.filter isWord) := by
  match tokens with
  | [] => exact List.Sublist.refl _
  | token :: rest =>
    obtain ⟨pending, hused⟩ :=
      usedWords_cons T U aliases pendingNot token rest
    rw [hused]
    split
    · next htakes =>
      have hword : isWord token = true := by
        simp only [Bool.and_eq_true] at htakes
        exact htakes.1.1.1
      rw [List.filter_cons_of_pos hword]
      apply List.Sublist.cons_cons
      cases rest with
      | nil => simp [usedWords, readTokens]
      | cons next rest =>
        have ih := usedWords_sublist pending rest
        have hsplit : (next :: rest).filter isWord = [next].filter isWord ++ rest.filter isWord := by
          rw [← List.filter_append, List.singleton_append]
        rw [hsplit]
        apply List.Sublist.append _ ih
        split
        · exact List.Sublist.refl _
        · exact List.nil_sublist _
    · have ih := usedWords_sublist pending rest
      have hsplit : (token :: rest).filter isWord =
          (if isWord token then [token] else []) ++ rest.filter isWord := by
        rw [List.filter_cons]
        split <;> rfl
      rw [hsplit]
      exact List.Sublist.append (List.Sublist.refl _) ih
termination_by tokens.length
decreasing_by all_goals (simp only [List.length_cons]; omega)

/-- The words that are used are all exactly if no word is passed after an unknown name. -/
lemma usedWords_eq_iff (pendingNot : Bool) (tokens : List Text) :
    usedWords (readTokens T U aliases pendingNot tokens) = tokens.filter isWord ↔
      namesKnown T U aliases tokens = true := by
  match tokens with
  | [] => exact iff_of_true rfl rfl
  | token :: rest =>
    obtain ⟨pending, hused⟩ := usedWords_cons T U aliases pendingNot token rest
    rw [hused]
    unfold namesKnown
    split
    · next htakes =>
      have hword : isWord token = true := by
        simp only [Bool.and_eq_true] at htakes
        exact htakes.1.1.1
      rw [List.filter_cons_of_pos hword, List.cons_inj_right]
      cases rest with
      | nil => simp [usedWords, readTokens]
      | cons next rest =>
        have ih := usedWords_eq_iff pending rest
        have hle := (usedWords_sublist T U aliases pending rest).length_le
        dsimp only
        rw [Bool.and_eq_true, ← ih]
        cases hknown : (knownField T aliases
            (pyStrip (unsigned (pyStrip token)).2.dropLast)).isSome with
        | true =>
          cases hnext : isWord next with
          | true => simp [hnext]
          | false => simp [hnext]
        | false =>
          cases hnext : isWord next with
          | false => simp [hnext]
          | true =>
            -- the word after the name is missing
            refine iff_of_false (fun heq => ?_) (by simp)
            have hlength := congrArg List.length heq
            simp only [List.filter_cons_of_pos hnext, List.tail_cons, Bool.false_eq_true, if_false,
              List.nil_append, List.length_cons] at hlength
            omega
    · have ih := usedWords_eq_iff pending rest
      have hsplit : (token :: rest).filter isWord =
          (if isWord token then [token] else []) ++ rest.filter isWord := by
        rw [List.filter_cons]
        split <;> rfl
      rw [hsplit, List.append_cancel_left_eq, ih]
termination_by tokens.length
decreasing_by all_goals (simp only [List.length_cons]; omega)

/-- A term or a value of a field, negated or not. -/
inductive Entry
  | term (negated : Bool) (text : Text)
  | field (negated : Bool) (name : String) (value : Text)

def fieldEntries (negated : Bool) (items : List (String × List Text)) : List Entry :=
  items.flatMap (fun item => item.2.map (Entry.field negated item.1))

def entries (g : SearchExpressionGroup) : List Entry :=
  g.terms.map (.term false) ++ g.notTerms.map (.term true) ++ fieldEntries false g.fields ++
    fieldEntries true g.notFields

/-- What a use adds to the expression: a name without a value adds nothing. -/
def Use.entries : Use → List Entry
  | .term negated text _ => [.term negated text]
  | .field negated name value _ =>
    if pyStrip name = [] ∨ pyStrip value = [] then []
    else [.field negated (String.ofList (pyStrip name)) (pyStrip value)]
  | _ => []

lemma fieldEntries_appendToKey (negated : Bool) (key : String) (value : Text)
    (items : List (String × List Text)) :
    (fieldEntries negated (appendToKey key value items)).Perm
      (fieldEntries negated items ++ [.field negated key value]) := by
  unfold fieldEntries
  induction items with
  | nil => exact List.Perm.refl _
  | cons item items ih =>
    obtain ⟨name, values⟩ := item
    rw [appendToKey]
    split
    · next heq =>
      subst heq
      rw [List.flatMap_cons, List.flatMap_cons, List.map_append, List.append_assoc, List.append_assoc]
      apply List.Perm.append_left
      exact List.perm_append_comm
    · rw [List.flatMap_cons, List.flatMap_cons, List.append_assoc]
      exact List.Perm.append_left _ ih

lemma fieldEntries_appendSearchValue (negated : Bool) (name value : Text) (tokens : List Text)
    (items : List (String × List Text)) :
    (fieldEntries negated (appendSearchValue name value items)).Perm
      (fieldEntries negated items ++ (Use.field negated name value tokens).entries) := by
  unfold appendSearchValue
  simp only [Use.entries]
  split
  · rw [List.append_nil]
  · exact fieldEntries_appendToKey negated _ _ items

/-- What the complete groups and the current one hold. -/
def stateEntries (state : List SearchExpressionGroup × SearchExpressionGroup) : List Entry :=
  state.1.flatMap entries ++ entries state.2

lemma entries_of_not_hasContent {g : SearchExpressionGroup} (h : hasContent g = false) :
    entries g = [] := by
  unfold hasContent at h
  simp only [Bool.or_eq_false_iff, decide_eq_false_iff_not, not_not] at h
  obtain ⟨⟨⟨hterms, hnot⟩, hfields⟩, hnotFields⟩ := h
  simp [entries, fieldEntries, hterms, hnot, hfields, hnotFields]

lemma stateEntries_applyUse (state : List SearchExpressionGroup × SearchExpressionGroup) (use : Use) :
    (stateEntries (applyUse state use)).Perm (stateEntries state ++ use.entries) := by
  obtain ⟨groups, current⟩ := state
  have hcurrent : ∀ (changed : SearchExpressionGroup),
      (entries changed).Perm (entries current ++ use.entries) →
        (stateEntries (groups, changed)).Perm (stateEntries (groups, current) ++ use.entries) := by
    intro changed h
    unfold stateEntries
    rw [List.append_assoc]
    exact List.Perm.append_left _ h
  cases use with
  | nothing => simp [applyUse, Use.entries]
  | negation token => simp [applyUse, Use.entries]
  | alternative token =>
    simp only [applyUse, Use.entries, List.append_nil]
    split
    · simp [stateEntries, entries, emptyGroup, fieldEntries]
    · exact List.Perm.refl _
  | term negated text token =>
    cases negated with
    | true =>
      apply hcurrent
      simp only [entries, Use.entries, List.map_append, List.map_cons, List.map_nil, List.append_assoc]
      apply List.Perm.append_left
      apply List.Perm.append_left
      exact List.perm_append_comm.trans (by simp)
    | false =>
      apply hcurrent
      simp only [entries, Use.entries, List.map_append, List.map_cons, List.map_nil, List.append_assoc]
      apply List.Perm.append_left
      exact List.perm_append_comm.trans (by simp)
  | field negated name value tokens =>
    have hfield := fieldEntries_appendSearchValue negated name value tokens
    cases negated with
    | true =>
      apply hcurrent
      unfold entries
      rw [List.append_assoc _ (fieldEntries true current.notFields)]
      exact List.Perm.append_left _ (hfield current.notFields)
    | false =>
      apply hcurrent
      unfold entries
      refine (List.Perm.append_right _ (List.Perm.append_left _ (hfield current.fields))).trans ?_
      simp only [List.append_assoc]
      apply List.Perm.append_left
      apply List.Perm.append_left
      apply List.Perm.append_left
      exact List.perm_append_comm

/-- The groups hold what the uses add, and nothing else. -/
lemma entries_assemble (uses : List Use) :
    ((assemble uses).flatMap entries).Perm (uses.flatMap Use.entries) := by
  have hrun : ∀ state, (stateEntries (uses.foldl applyUse state)).Perm
      (stateEntries state ++ uses.flatMap Use.entries) := by
    induction uses with
    | nil =>
      intro state
      simp
    | cons use uses ih =>
      intro state
      rw [List.foldl_cons, List.flatMap_cons, ← List.append_assoc]
      exact (ih _).trans (List.Perm.append_right _ (stateEntries_applyUse state use))
  have hstate := hrun ([], emptyGroup)
  have hempty : stateEntries ([], emptyGroup) = [] := rfl
  rw [hempty, List.nil_append] at hstate
  refine List.Perm.trans ?_ hstate
  unfold assemble
  dsimp only
  generalize uses.foldl applyUse ([], emptyGroup) = state
  cases hcontent : hasContent state.2 with
  | true => simp [stateEntries]
  | false => simp [stateEntries, entries_of_not_hasContent hcontent]

variable (T U) in
/-- Each word of a query is used exactly once, for what it can be, exactly if no word stands after the
name of an unknown field that ends in a separator. The groups hold what the uses add. -/
theorem words_used_iff (fieldAliases : List (Text × Text)) (raw : Text) :
    ((∀ use ∈ usesOf T U fieldAliases raw, use.Valid T U (aliasTable T fieldAliases)) ∧
        usedWords (usesOf T U fieldAliases raw) =
          (tokenizeSearchExpression (pyStrip raw)).filter isWord ∧
        (assemble (usesOf T U fieldAliases raw) ≠ [] →
          ((parseSearchExpression T U fieldAliases raw).groups.flatMap entries).Perm
            ((usesOf T U fieldAliases raw).flatMap Use.entries))) ↔
      namesKnown T U (aliasTable T fieldAliases) (tokenizeSearchExpression (pyStrip raw)) = true := by
  have hvalid : ∀ use ∈ usesOf T U fieldAliases raw, use.Valid T U (aliasTable T fieldAliases) :=
    valid_readTokens false _
  have hgroups : assemble (usesOf T U fieldAliases raw) ≠ [] →
      ((parseSearchExpression T U fieldAliases raw).groups.flatMap entries).Perm
        ((usesOf T U fieldAliases raw).flatMap Use.entries) := by
    intro hne
    have htokens : tokenizeSearchExpression (pyStrip raw) ≠ [] := by
      intro hnil
      apply hne
      unfold usesOf
      rw [hnil]
      rfl
    unfold parseSearchExpression groupsOf
    rw [if_neg htokens, if_neg (fun h => hne h.1)]
    exact entries_assemble _
  rw [and_iff_right hvalid, and_iff_left hgroups]
  exact usedWords_eq_iff false _

end Parser

/-- The word after an unknown name is in no group. -/
theorem word_after_unknown_name :
    ¬((∀ use ∈ usesOf asciiSearch asciiTable [("client".toList, "client".toList)] "foo: bar".toList,
          use.Valid asciiSearch asciiTable
            (aliasTable asciiSearch [("client".toList, "client".toList)])) ∧
        usedWords (usesOf asciiSearch asciiTable [("client".toList, "client".toList)]
            "foo: bar".toList) =
          (tokenizeSearchExpression (pyStrip "foo: bar".toList)).filter isWord ∧
        (assemble (usesOf asciiSearch asciiTable [("client".toList, "client".toList)]
            "foo: bar".toList) ≠ [] →
          ((parseSearchExpression asciiSearch asciiTable [("client".toList, "client".toList)]
              "foo: bar".toList).groups.flatMap entries).Perm
            ((usesOf asciiSearch asciiTable [("client".toList, "client".toList)]
              "foo: bar".toList).flatMap Use.entries))) := by
  rintro ⟨-, hwords, -⟩
  revert hwords
  decide

end IpDocket.Search
