import IpDocket.Lib.Json
import IpDocket.Lib.Numerals

/-!
# Rules for the distribution of tasks

The rules are a JSON file that users edit. It is read into rules that are sorted by priority, and the
first rule that a task matches decides who gets it. What raises leaves the function.
-/

namespace IpDocket.Tasks
open IpDocket.Lib

/-- The exceptions that nothing here catches. -/
inductive Raised
  | attributeError
  | typeError
  | overflowError
  deriving DecidableEq

/-- What `re.compile` does: `invalid` is `re.error`, which is caught. -/
inductive Compiled
  | pattern (search : Text → Bool)
  | invalid
  | raises (e : Raised)

/-- What `int` of a float is. -/
inductive FloatInt
  | value (n : ℤ)
  | notANumber
  | infinite

/-- With `str.lower`, `int` of a float and `re.compile` with `re.IGNORECASE`. -/
structure RuleHost (T : UnicodeTables) extends PyHost T where
  lower : Text → Text
  truncated : floats.carrier → FloatInt
  compile : Text → Compiled

structure Action where
  distributeTo : Text
  roles : List Text

/-- The field `match` of a rule. -/
structure Pattern where
  category : List Text
  source : List Text
  nameRefExact : List Text
  nameRefPrefix : List Text
  nameRefContains : List Text
  nameRefRegex : List (Text → Bool)
  nameFreeContains : List Text
  nameFreeRegex : List (Text → Bool)

structure Rule where
  id : Text
  enabled : Bool
  priority : ℤ
  action : Action
  pattern : Pattern

structure Task where
  category : Option Text
  nameRef : Option Text
  nameFree : Option Text
  source : Option Text

structure Decision where
  distributeTo : Text
  roleCodes : List Text
  ruleId : Option Text
  priority : Option ℤ

def allowedDistributeTo : List Text :=
  ["owner".toList, "role_set".toList, "all_staff".toList, "none".toList]

def allowedMatchFields : List Text :=
  ["category".toList, "source".toList, "name_ref_exact".toList, "name_ref_prefix".toList,
    "name_ref_contains".toList, "name_ref_regex".toList, "name_free_contains".toList,
    "name_free_regex".toList]

section Normalize

variable {T : UnicodeTables} (H : RuleHost T)

def asList : Json H.floats.carrier → List Text
  | .null => []
  | .str t => [t]
  | .arr items => (items.filter (fun v => match v with | .null => false | _ => true)).map (pyStr H.toPyHost)
  | v => [pyStr H.toPyHost v]

def asBool (default : Bool) : Json H.floats.carrier → Bool
  | .null => default
  | .bool b => b
  | .int n => n ≠ 0
  | .float x => !H.floats.isZero x
  | v =>
    let lowered := H.lower (pyStrip (pyStr H.toPyHost v))
    if lowered ∈ ["1".toList, "true".toList, "yes".toList, "y".toList, "on".toList] then true
    else if lowered ∈ ["0".toList, "false".toList, "no".toList, "n".toList, "off".toList] then false
    else default

/-- `_normalize_list` with the change of case that is asked for. -/
def normalizeList (case : Text → Text) (v : Json H.floats.carrier) : List Text :=
  (((asList H v).map pyStrip).filter (· ≠ [])).map case

def upper (t : Text) : Text := pyUpper T.toUpperTable t

/-- The patterns that compile, and the texts that do not. -/
def compileFrom : List Text → Except Raised (List (Text → Bool) × List Text)
  | [] => .ok ([], [])
  | raw :: rest =>
    if pyStrip raw = [] then compileFrom rest
    else match H.compile (pyStrip raw) with
      | .raises e => .error e
      | .invalid => (compileFrom rest).map (fun found => (found.1, pyStrip raw :: found.2))
      | .pattern search => (compileFrom rest).map (fun found => (search :: found.1, found.2))

def compileRegexList (v : Json H.floats.carrier) : Except Raised (List (Text → Bool) × List Text) :=
  compileFrom H (asList H v)

/-- `re.sub(r"\s+", "", value)`. -/
def compactText (t : Text) : Text := t.filter (fun c => !pyIsSpace c)

/-- `int(value or 0)`, and 0 where that is no number. -/
def priorityOf (v : Json H.floats.carrier) : Except Raised ℤ :=
  match pyOr H.toPyHost v (.int 0) with
  | .bool b => .ok b.toInt
  | .int n => .ok n
  | .float x => match H.truncated x with
    | .value n => .ok n
    | .notANumber => .ok 0
    | .infinite => .error .overflowError
  | .str t => .ok ((pyIntOf T t).getD 0)
  | _ => .ok 0

/-- The fields of `value or {}`; a method call on anything else raises. -/
def fieldsOf (v : Json H.floats.carrier) : Except Raised (List (Text × Json H.floats.carrier)) :=
  if pyTruthy H.toPyHost v then
    match v with
    | .obj fields => .ok fields
    | _ => .error .attributeError
  else .ok []

def actionOf (fields : List (Text × Json H.floats.carrier)) : Action where
  distributeTo := H.lower (pyStrip (pyStr H.toPyHost
    (pyOr H.toPyHost (field fields "distribute_to".toList) (.str "owner".toList))))
  roles := normalizeList H H.lower (field fields "roles".toList)

def normalizeAction (v : Json H.floats.carrier) : Except Raised Action := (fieldsOf H v).map (actionOf H)

def validateAction (action : Action) : Bool :=
  let distributeTo := H.lower (pyStrip action.distributeTo)
  distributeTo ∈ allowedDistributeTo ∧ ¬(distributeTo = "role_set".toList ∧ action.roles = [])

def ruleIdOf (fields : List (Text × Json H.floats.carrier)) : Text :=
  pyStrip (pyStr H.toPyHost (pyOr H.toPyHost (field fields "id".toList) (.str [])))

/-- `raw.get("match") or {}`, and `{}` for what is no `dict`. -/
def matchFieldsOf (fields : List (Text × Json H.floats.carrier)) : List (Text × Json H.floats.carrier) :=
  match field fields "match".toList with
  | .obj found => found
  | _ => []

def unknownMatchKeys (found : List (Text × Json H.floats.carrier)) : List Text :=
  (found.map Prod.fst).filter (· ∉ allowedMatchFields)

def ruleOf (fields found : List (Text × Json H.floats.carrier)) (action : Action) (priority : ℤ)
    (nameRefRegex nameFreeRegex : List (Text → Bool)) : Rule where
  id := ruleIdOf H fields
  enabled := asBool H true (field fields "enabled".toList)
  priority := priority
  action := action
  pattern :=
    { category := normalizeList H (upper (T := T)) (field found "category".toList)
      source := normalizeList H H.lower (field found "source".toList)
      nameRefExact := normalizeList H (upper (T := T)) (field found "name_ref_exact".toList)
      nameRefPrefix := normalizeList H (upper (T := T)) (field found "name_ref_prefix".toList)
      nameRefContains := normalizeList H (upper (T := T)) (field found "name_ref_contains".toList)
      nameRefRegex := nameRefRegex
      nameFreeContains := normalizeList H (upper (T := T)) (field found "name_free_contains".toList)
      nameFreeRegex := nameFreeRegex }

/-- `none` for an invalid rule. -/
def normalizeRule : Json H.floats.carrier → Except Raised (Option Rule)
  | .obj fields =>
    let found := matchFieldsOf H fields
    if ruleIdOf H fields = [] then .ok none
    else if unknownMatchKeys H found ≠ [] then .ok none
    else do
      let action ← normalizeAction H (field fields "action".toList)
      if validateAction H action = false then .ok none
      else do
        let priority ← priorityOf H (field fields "priority".toList)
        let (refPatterns, refInvalid) ← compileRegexList H (field found "name_ref_regex".toList)
        let (freePatterns, freeInvalid) ← compileRegexList H (field found "name_free_regex".toList)
        if refInvalid ≠ [] ∨ freeInvalid ≠ [] then .ok none
        else .ok (some (ruleOf H fields found action priority refPatterns freePatterns))
  | _ => .ok none

/-- What the loop over `data.get("rules", [])` goes through; a `dict` gives its keys, a text its
characters. -/
def ruleItems : Option (Json H.floats.carrier) → Except Raised (List (Json H.floats.carrier))
  | some (.obj fields) =>
    match fields.lookup "rules".toList with
    | none => .ok []
    | some (.arr items) => .ok items
    | some (.str t) => .ok (t.map (fun c => .str [c]))
    | some (.obj inner) => .ok (inner.map (fun kv => .str kv.1))
    | some _ => .error .typeError
  | _ => .ok []

def loadFrom : List Text → List (Json H.floats.carrier) → Except Raised (List Rule)
  | _, [] => .ok []
  | seen, raw :: rest => do
    match ← normalizeRule H raw with
    | none => loadFrom seen rest
    | some rule =>
      if rule.enabled = false then loadFrom seen rest
      else if rule.id ∈ seen then loadFrom seen rest
      else do
        let rules ← loadFrom (rule.id :: seen) rest
        .ok (rule :: rules)

def defaultField : Option (Json H.floats.carrier) → Json H.floats.carrier
  | some (.obj fields) => field fields "default_action".toList
  | _ => .obj []

def higher (r s : Rule) : Bool := s.priority ≤ r.priority

/-- The rules of a file, and `none` for a file that is missing or no JSON. -/
def loadDistributionRules (data : Option (Json H.floats.carrier)) : Except Raised (List Rule × Action) := do
  let items ← ruleItems H data
  let rules ← loadFrom H [] items
  let action ← normalizeAction H (defaultField H data)
  .ok (rules.mergeSort higher, if validateAction H action then action else actionOf H [])

/-- The loop body: none of the tests of the rule skips it. -/
def matchesTask (rule : Rule) (task : Task) : Bool :=
  let cat := upper (T := T) (pyStrip (task.category.getD []))
  let ref := pyStrip (task.nameRef.getD [])
  let refUpper := upper (T := T) ref
  let free := pyStrip (task.nameFree.getD [])
  let freeUpper := upper (T := T) free
  let src := H.lower (pyStrip (task.source.getD []))
  let pattern := rule.pattern
  ((pattern.category = [] ∨ cat ∈ pattern.category) ∧
    (pattern.source = [] ∨ src ∈ pattern.source) ∧
    (pattern.nameRefExact = [] ∨ refUpper ∈ pattern.nameRefExact) ∧
    (pattern.nameRefPrefix = [] ∨ pattern.nameRefPrefix.any (fun p =>
      p.isPrefixOf refUpper || (compactText p).isPrefixOf (compactText refUpper))) ∧
    (pattern.nameRefContains = [] ∨ pattern.nameRefContains.any (fun k =>
      k <:+: refUpper ∨ compactText k <:+: compactText refUpper)) ∧
    (pattern.nameRefRegex.isEmpty ∨ pattern.nameRefRegex.any (fun search => search ref)) ∧
    (pattern.nameFreeContains = [] ∨ pattern.nameFreeContains.any (fun k =>
      k <:+: freeUpper ∨ compactText k <:+: compactText freeUpper)) ∧
    (pattern.nameFreeRegex.isEmpty ∨ pattern.nameFreeRegex.any (fun search => search free)))

def Rule.decision (rule : Rule) : Decision where
  distributeTo := rule.action.distributeTo
  roleCodes := rule.action.roles
  ruleId := some rule.id
  priority := some rule.priority

def Action.decision (action : Action) : Decision where
  distributeTo := action.distributeTo
  roleCodes := action.roles
  ruleId := none
  priority := none

def resolveDistributionDecision (data : Option (Json H.floats.carrier)) (task : Task) :
    Except Raised Decision := do
  let (rules, default) ← loadDistributionRules H data
  match rules.find? (fun rule => matchesTask H rule task) with
  | some rule => .ok rule.decision
  | none => .ok default.decision

end Normalize
end IpDocket.Tasks
