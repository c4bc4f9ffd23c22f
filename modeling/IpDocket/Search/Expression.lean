import IpDocket.Lib.Text

/-!
# Search expressions

A search expression is a disjunction of groups of terms, negated terms, field clauses and
negated field clauses. `matchesSearchExpression` judges a text and the values of its fields in
memory; `buildSqlalchemySearchFilter` builds the condition of a `SELECT` from builders for the
single clauses. A condition is its truth value on each row, which is `none` for `NULL`.
-/

namespace IpDocket.Search
open IpDocket.Lib

/-- `str.casefold` of a character, and the characters that match `\w`. -/
structure SearchTables where
  casefold : Char → Text
  isWord : Char → Bool

/-- The tables for texts of ASCII characters. -/
def asciiSearch : SearchTables where
  casefold c := [if 65 ≤ c.toNat ∧ c.toNat ≤ 90 then Char.ofNat (c.toNat + 32) else c]
  isWord c := c.isAlphanum || c = '_'

/-- `str.split()`; `word` is what has been read of a word, backwards. -/
def splitAux (word : Text) : Text → List Text
  | [] => if word = [] then [] else [word.reverse]
  | c :: t =>
    if pyIsSpace c then
      if word = [] then splitAux [] t else word.reverse :: splitAux [] t
    else splitAux (c :: word) t

def pySplit (t : Text) : List Text := splitAux [] t

section Texts

variable (T : SearchTables)

def normalizeSearchText (t : Text) : Text := [' '].intercalate (pySplit (t.flatMap T.casefold))

/-- `_COMPACT_RE.sub("", …)` takes out what is not a word character, and `_`. -/
def compactSearchText (t : Text) : Text :=
  (normalizeSearchText T t).filter (fun c => T.isWord c ∧ c ≠ '_')

def textMatchesQuery (searchText searchQuery : Text) : Bool :=
  let query := normalizeSearchText T searchQuery
  let haystack := normalizeSearchText T searchText
  if query = [] then true
  else if haystack = [] then false
  else if query <:+: haystack then true
  else
    let haystackCompact := compactSearchText T haystack
    let queryCompact := compactSearchText T query
    if queryCompact ≠ [] ∧ queryCompact <:+: haystackCompact then true
    else
      let tokens := pySplit query
      if tokens.length > 1 then
        tokens.all (fun token => normalizeSearchText T token <:+: haystack ∨
          (compactSearchText T token ≠ [] ∧ compactSearchText T token <:+: haystackCompact))
      else false

end Texts

/-- The `dict`s are lists of their items. -/
structure SearchExpressionGroup where
  terms : List Text
  notTerms : List Text
  fields : List (String × List Text)
  notFields : List (String × List Text)

structure SearchExpression where
  raw : Text
  groups : List SearchExpressionGroup

/-- A value of `field_values`; the texts are `str(v or "")`. -/
inductive FieldValue
  | absent
  | one (t : Text)
  | many (items : List Text)

section Memory

variable (T : SearchTables) (searchText : Text) (fieldValues : String → Option FieldValue)

/-- `_values_for`. -/
def valuesFor (name : String) : List Text :=
  match fieldValues name with
  | none => []
  | some .absent => []
  | some (.many items) => (items.map pyStrip).filter (· ≠ [])
  | some (.one t) => [pyStrip t].filter (· ≠ [])

/-- Some value of the field matches. -/
def fieldMatches (name : String) (value : Text) : Bool :=
  (valuesFor fieldValues name).any (fun haystack => textMatchesQuery T haystack value)

def matchesGroup (g : SearchExpressionGroup) : Bool :=
  g.terms.all (textMatchesQuery T searchText) &&
  g.notTerms.all (fun term => !textMatchesQuery T searchText term) &&
  g.fields.all (fun item => valuesFor fieldValues item.1 ≠ [] &&
    item.2.all (fieldMatches T fieldValues item.1)) &&
  g.notFields.all (fun item => valuesFor fieldValues item.1 = [] ||
    !item.2.any (fieldMatches T fieldValues item.1))

def matchesSearchExpression (e : SearchExpression) : Bool :=
  if e.groups = [] then textMatchesQuery T searchText e.raw
  else e.groups.any (matchesGroup T searchText fieldValues)

end Memory

/-- A condition of SQL. -/
abbrev Sql (ρ : Type) := ρ → Option Bool

section Filter

variable {ρ : Type}

def sqlNot (c : Sql ρ) : Sql ρ := fun row => (c row).map not

def sqlAnd (cs : List (Sql ρ)) : Sql ρ := fun row =>
  if cs.any (fun c => c row = some false) then some false
  else if cs.all (fun c => c row = some true) then some true
  else none

def sqlOr (cs : List (Sql ρ)) : Sql ρ := fun row =>
  if cs.any (fun c => c row = some true) then some true
  else if cs.all (fun c => c row = some false) then some false
  else none

/-- A `WHERE` keeps the row. -/
def selects (c : Sql ρ) (row : ρ) : Prop := c row = some true

instance (c : Sql ρ) (row : ρ) : Decidable (selects c row) :=
  inferInstanceAs (Decidable (c row = some true))

variable (general : Option (Text → Option (Sql ρ)))
  (fieldBuilders : String → Option (Text → Option (Sql ρ)))

/-- The clause of a term; there is none without a builder. -/
def termClause (term : Text) : Option (Sql ρ) := general.bind (fun builder => builder term)

/-- The clauses of the values up to the first one without a clause, and whether there is one. -/
def valueClauses (builder : Text → Option (Sql ρ)) : List Text → List (Sql ρ) × Bool
  | [] => ([], false)
  | value :: values =>
    match builder value with
    | none => ([], true)
    | some clause =>
      let (clauses, stopped) := valueClauses builder values
      (clause :: clauses, stopped)

/-- The clauses of the negated fields. The loop ends at the first field without a builder or
value without a clause; unlike in the other loops the group stays valid. -/
def notFieldClauses : List (String × List Text) → List (Sql ρ)
  | [] => []
  | (name, values) :: rest =>
    match fieldBuilders name with
    | none => []
    | some builder =>
      let (clauses, stopped) := valueClauses builder values
      clauses.map sqlNot ++ if stopped then [] else notFieldClauses rest

/-- The clauses of a group, if it is valid. -/
def groupClauses (g : SearchExpressionGroup) : Option (List (Sql ρ)) := do
  let terms ← g.terms.mapM (termClause general)
  let notTerms ← g.notTerms.mapM (termClause general)
  let fields ← g.fields.mapM (fun item =>
    (fieldBuilders item.1).bind (fun builder => item.2.mapM builder))
  return terms ++ notTerms.map sqlNot ++ fields.flatten ++ notFieldClauses fieldBuilders g.notFields

def buildSqlalchemySearchFilter (e : SearchExpression) : Option (Sql ρ) :=
  if e.groups = [] then termClause general e.raw
  else
    let groups := (e.groups.filterMap (groupClauses general fieldBuilders)).filter (· ≠ [])
    if groups = [] then none else some (sqlOr (groups.map sqlAnd))

/-- `None` selects nothing. -/
def filterSelects (e : SearchExpression) (row : ρ) : Bool :=
  (buildSqlalchemySearchFilter general fieldBuilders e).any (fun c => selects c row)

end Filter

end IpDocket.Search
