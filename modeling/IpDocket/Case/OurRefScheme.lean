import IpDocket.Case.OurRefTemplate

/-!
# Numbering schemes

`_build_our_ref_scheme` turns the division, type and country of a matter and the numbering
configuration into a scheme: the template with its values, the pattern of the references it
has to count, and the key of the counter that hands out the numbers.
-/

namespace IpDocket.Case
open IpDocket.Lib

/-- A JSON value. Of a number or an array only its truth value and its `str` are ever read. -/
inductive Json
  | null
  | bool (b : Bool)
  | str (t : Text)
  | other (truth : Bool) (repr : Text)
  | obj (repr : Text) (fields : List (Text × Json))

abbrev JsonObject := List (Text × Json)

/-- `object.get(key)`. -/
def getField (o : JsonObject) (key : String) : Option Json :=
  (o.find? (fun field => field.1 = key.toList)).map Prod.snd

def getText (o : JsonObject) (key : Text) : Option Json :=
  (o.find? (fun field => field.1 = key)).map Prod.snd

/-- `str(value or "")`. -/
def textOf : Option Json → Text
  | none => []
  | some .null => []
  | some (.bool b) => if b then "True".toList else []
  | some (.str t) => t
  | some (.other truth repr) => if truth then repr else []
  | some (.obj repr fields) => if fields.isEmpty then [] else repr

/-- The fields of a value that is an object. -/
def asObject : Option Json → Option JsonObject
  | some (.obj _ fields) => some fields
  | _ => none

def coerceBool (value : Option Json) (default : Bool) : Bool :=
  match value with
  | some (.bool b) => b
  | value =>
    let raw := (pyStrip (textOf value)).map asciiLower
    if raw ∈ ["1", "true", "yes", "y", "on"].map String.toList then true
    else if raw ∈ ["0", "false", "no", "n", "off"].map String.toList then false
    else default

def isCodeChar (c : Char) : Bool :=
  let n := c.toNat
  (65 ≤ n && n ≤ 90) || (48 ≤ n && n ≤ 57)

section Scheme

variable (T : UnicodeTables)

/-- `strip().upper()` if it has between one and `limit` letters and digits. -/
def cleanUpper (limit : Nat) (value : Text) (default : Text) : Text :=
  let raw := stripUpper T.toUpperTable value
  if raw ≠ [] ∧ raw.length ≤ limit ∧ raw.all isCodeChar then raw else default

def cleanCode (value : Text) : Text := cleanUpper T 12 value []

def cleanCountry (value : Text) (default : Text) : Text := cleanUpper T 8 value default

inductive CounterScope
  | prefixScope
  | countryScope
  deriving DecidableEq

def parseCounterScope (value : Option Json) : Option CounterScope :=
  let raw := (pyStrip (textOf value)).map asciiLower
  if raw = "prefix".toList then some .prefixScope
  else if raw = "country".toList then some .countryScope
  else none

def normalizeCaseDivision (value : Text) : Text :=
  let raw := pyStrip value
  let upper := pyUpper T.toUpperTable raw
  if raw = [] then []
  else if upper ∈ ["DOM", "INC", "OUT", "ETC"].map String.toList then upper
  else if upper ∈ ["INCOMING", "INBOUND"].map String.toList then "INC".toList
  else if upper ∈ ["OUTGOING", "OUTBOUND", "FOREIGN"].map String.toList then "OUT".toList
  else if upper = "DOMESTIC".toList then "DOM".toList
  else if upper ∈ ["MISC", "OTHER"].map String.toList then "ETC".toList
  else if raw = "Domestic".toList then "DOM".toList
  else if raw = "Matter".toList then "INC".toList
  else if raw = "Foreign".toList then "OUT".toList
  else if raw ∈ ["Other", "OtherMatter"].map String.toList then "ETC".toList
  else []

/-- `needle in text`. -/
def pyContains (text needle : Text) : Bool := text.tails.any (fun t => t.take needle.length = needle)

def normalizeCaseType (value : Text) : Text :=
  let raw := pyStrip value
  let upper := pyUpper T.toUpperTable raw
  let compact := upper.filter (fun c => !pyIsSpace c)
  let compactRaw := raw.filter (fun c => !pyIsSpace c)
  if upper ∈ ["PATENT", "DESIGN", "TRADEMARK", "LITIGATION", "UTILITY", "MISC", "PCT", "MADRID",
      "HAGUE", "COPYRIGHT"].map String.toList then upper
  else if upper ∈ ["OTHER", "ETC"].map String.toList then "MISC".toList
  else if compact ∈ ["UTILITYMODEL", "UM"].map String.toList then "UTILITY".toList
  else if pyContains compact "PCT".toList ∨ pyContains raw "Filing".toList then "PCT".toList
  else if raw = "Patent".toList then "PATENT".toList
  else if raw ∈ ["Utility model", "Utility modelRegistration"].map String.toList then
    "UTILITY".toList
  else if raw = "Design".toList then "DESIGN".toList
  else if raw ∈ ["Trademark", "Servicetable", "table", "Tasktable", "Display table"].map
      String.toList then "TRADEMARK".toList
  else if raw ∈ ["", "Litigation", "/Litigation"].map String.toList then "LITIGATION".toList
  else if compactRaw = "//Litigation".toList then "LITIGATION".toList
  else if raw ∈ ["Other", "OtherMatter", "OtherItem"].map String.toList then "MISC".toList
  else []

def resolveProfileCaseKind (division caseType : Text) : Text × Text :=
  let div := normalizeCaseDivision T division
  let typ := normalizeCaseType T caseType
  if typ = "MADRID".toList then ("OUT".toList, "TRADEMARK".toList)
  else if typ = "HAGUE".toList then ("OUT".toList, "DESIGN".toList)
  else if typ = "COPYRIGHT".toList then ([], "MISC".toList)
  else if typ = "LITIGATION".toList then ([], "LITIGATION".toList)
  else if typ = "MISC".toList then ([], "MISC".toList)
  else if div = "ETC".toList ∧ typ = "PCT".toList then ("OUT".toList, "PCT".toList)
  else (div, typ)

structure DefaultOurRefRule where
  code : Text
  country : Text
  template : Text
  counterScope : CounterScope
  sequenceCountryWildcard : Bool
  deriving DecidableEq

/-- `_US_DEFAULT_CODE_MAP`. -/
def defaultCodeMap : List ((String × String) × String) :=
  [(("DOM", "PATENT"), "P"), (("DOM", "UTILITY"), "U"), (("DOM", "DESIGN"), "D"),
    (("DOM", "TRADEMARK"), "T"), (("INC", "PATENT"), "IP"), (("INC", "UTILITY"), "IU"),
    (("INC", "DESIGN"), "ID"), (("INC", "TRADEMARK"), "IT"), (("OUT", "PATENT"), "FP"),
    (("OUT", "UTILITY"), "FU"), (("OUT", "DESIGN"), "FD"), (("OUT", "TRADEMARK"), "FT")]

/-- The rule of a special type: the code before the year and the number. -/
def specialRule (code country : String) (scope : CounterScope) : DefaultOurRefRule :=
  ⟨code.toList, country.toList, "\x7bcode\x7dYY\x7bseq:0000\x7d".toList, scope, false⟩

def specialRules : List (String × DefaultOurRefRule) :=
  [("PCT", specialRule "PCT" "PCT" .countryScope), ("MADRID", specialRule "MAD" "" .prefixScope),
    ("HAGUE", specialRule "HAG" "" .prefixScope), ("LITIGATION", specialRule "L" "" .prefixScope),
    ("COPYRIGHT", specialRule "CR" "" .prefixScope), ("MISC", specialRule "M" "" .prefixScope)]

def normalRuleConfig (div typ country : Text) : Except String DefaultOurRefRule :=
  let kind := resolveProfileCaseKind T div typ
  match defaultCodeMap.find? (fun p => (p.1.1.toList, p.1.2.toList) = kind) with
  | none => .error "Unsupported matter division/type."
  | some (_, code) =>
    .ok ⟨code.toList, if country = [] then "US".toList else country,
      "\x7bcountry\x7d\x7bcode\x7dYY\x7bseq:0000\x7d".toList, .countryScope, false⟩

def defaultRuleConfig (div typ country : Text) :
    Except String (Text × Text × DefaultOurRefRule) :=
  match specialRules.find? (fun p => p.1.toList = typ) with
  | some (_, rule) => .ok (div, typ, rule)
  | none => do
    let (div, typ) := resolveProfileCaseKind T div typ
    let rule ← normalRuleConfig T div typ country
    return (div, typ, rule)

def ruleCandidates (div typ : Text) : List Text :=
  (if div ≠ [] ∧ typ ≠ [] then [div ++ ':' :: typ] else []) ++
    (if typ ≠ [] then [typ] else []) ++ ["*".toList]

def selectRuleConfig (config : JsonObject) (div typ : Text) : JsonObject :=
  match asObject (getField config "rules") with
  | none => []
  | some rules => ((ruleCandidates div typ).findSome? (fun key => asObject (getText rules key))).getD []

def configuredCode (config rule : JsonObject) (div typ default : Text) : Text :=
  let own := cleanCode T (textOf (getField rule "code"))
  if own ≠ [] then own
  else match asObject (getField config "codes") with
    | none => default
    | some codes =>
      let cleaned := (ruleCandidates div typ).map (fun key => cleanCode T (textOf (getText codes key)))
      (cleaned.find? (· ≠ [])).getD default

structure Date where
  year : Nat
  month : Nat
  day : Nat
  deriving DecidableEq

structure OurRefScheme where
  pre : Text
  pattern : List PatternPart
  sequencePattern : Option (List PatternPart)
  counterKey : Text
  template : Template
  values : TemplateValues
  deriving DecidableEq

/-- The reference with the number `seq`. -/
def OurRefScheme.build (scheme : OurRefScheme) (seq : Nat) : Option Text :=
  renderTemplate T scheme.template.parts scheme.values seq

def buildTemplateOurRefScheme (today : Date) (template code country : Text)
    (scope : CounterScope) (sequenceCountryWildcard : Bool) : Except String OurRefScheme := do
  let values : TemplateValues :=
    { code := code, country := country, yyyy := padLeft '0' 4 (pyDigits today.year),
      yy := padLeft '0' 2 (pyDigits (today.year % 100)), mm := padLeft '0' 2 (pyDigits today.month),
      dd := padLeft '0' 2 (pyDigits today.day) }
  let template ← parseRefTemplate T template
  let exact := compileTemplatePattern T template.parts values false
  let sequence := compileTemplatePattern T template.parts values sequenceCountryWildcard
  let pre := if sequence.1 = [] then exact.1 else sequence.1
  let key := "our_ref_counter:".toList ++ if pre = [] then "global".toList else pre
  let counterKey := if scope = .countryScope ∧ country ≠ [] then key ++ ':' :: country else key
  return ⟨pre, exact.2, if sequenceCountryWildcard then some sequence.2 else none, counterKey,
    template, values⟩

/-- `value or fallback` for texts. -/
def orText (value fallback : Text) : Text := if value = [] then fallback else value

/-- `_build_our_ref_scheme`. -/
def buildOurRefScheme (config : JsonObject) (today : Date) (division matterType country : Text) :
    Except String OurRefScheme := do
  let div := stripUpper T.toUpperTable division
  let typ := stripUpper T.toUpperTable matterType
  let ctry := cleanCountry T country []
  let (div, typ, rule) ← defaultRuleConfig T div typ ctry
  let ruleConfig := selectRuleConfig config div typ
  let code := configuredCode T config ruleConfig div typ rule.code
  let countryValue :=
    orText ctry (cleanCountry T (textOf (getField ruleConfig "country")) rule.country)
  let special := (specialRules.find? (fun p => p.1.toList = typ)).isSome
  let shared := if special then [] else textOf (getField config "template")
  let template := pyStrip
    (orText (textOf (getField ruleConfig "template")) (orText shared rule.template))
  let scopeField := match getField ruleConfig "counter_scope" with
    | some value => some value
    | none => getField config "counter_scope"
  let scope := (parseCounterScope scopeField).getD rule.counterScope
  let wildcard := match getField config "sequence_country_wildcard" with
    | some value => coerceBool (some value) rule.sequenceCountryWildcard
    | none => rule.sequenceCountryWildcard
  let wildcard := match getField ruleConfig "sequence_country_wildcard" with
    | some value => coerceBool (some value) wildcard
    | none => wildcard
  buildTemplateOurRefScheme T today template code countryValue scope wildcard

def templateErrors (path : String) (value : Option Json) : List String :=
  match parseRefTemplate T (textOf value) with
  | .ok _ => []
  | .error text => [path ++ ": " ++ text]

def scopeErrors (path : String) (o : JsonObject) : List String :=
  match getField o "counter_scope" with
  | none => []
  | some value =>
    if (parseCounterScope (some value)).isSome then [] else [path ++ ": use prefix or country"]

def codeErrors (path : String) (value : Option Json) : List String :=
  if cleanCode T (textOf value) ≠ [] then []
  else [path ++ ": code must be 1-12 uppercase letters or digits"]

def codesErrors (payload : JsonObject) : List String :=
  match getField payload "codes" with
  | none => []
  | some .null => []
  | some (.obj _ codes) =>
    codes.flatMap (fun field => codeErrors T ("codes." ++ String.ofList field.1) (some field.2))
  | some _ => ["codes must be an object"]

def ruleErrors (path : String) (rule : JsonObject) : List String :=
  (match getField rule "template" with
    | some value => templateErrors T (path ++ ".template") (some value)
    | none => []) ++
  (match getField rule "code" with
    | some value => codeErrors T (path ++ ".code") (some value)
    | none => []) ++
  (match getField rule "country" with
    | some value =>
      if cleanCountry T (textOf (some value)) [] ≠ [] then []
      else [path ++ ".country: country must be 1-8 letters or digits"]
    | none => []) ++
  scopeErrors (path ++ ".counter_scope") rule

def rulesErrors (payload : JsonObject) : List String :=
  match getField payload "rules" with
  | none => []
  | some .null => []
  | some (.obj _ rules) =>
    rules.flatMap (fun field =>
      let path := "rules." ++ String.ofList field.1
      match field.2 with
      | .obj _ rule => ruleErrors T path rule
      | _ => [path ++ ": rule must be an object"])
  | some _ => ["rules must be an object"]

/-- The errors of `validate_our_ref_numbering_config_payload`; a configuration without errors
is accepted. -/
def validateOurRefNumberingConfigPayload (payload : JsonObject) : List String :=
  (match getField payload "template" with
    | some value => templateErrors T "template" (some value)
    | none => []) ++
  codesErrors T payload ++ scopeErrors "counter_scope" payload ++ rulesErrors T payload

end Scheme

end IpDocket.Case
