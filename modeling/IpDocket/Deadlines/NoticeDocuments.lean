import Mathlib.Data.Finset.Card
import IpDocket.Lib.Text

/-!
# Documents of a notice

Whether the document of a communication is the one that a notice task is about. Names are compared by
their ASCII letters and digits only, loosely: by containment, by their pairs of characters, by groups
of aliases. The text of an email counts more strictly than a name. Empty hints, which every comparison
passes over, are left out.
-/

namespace IpDocket.Deadlines
open IpDocket.Lib

def responseDocHints : List Text := ["response".toList, "amendment".toList, "opinion".toList]

def noticeDocHints : List Text := ["Notice".toList, "Publication".toList, "Guidance".toList]

def genericTaskHints : List Text := ["    Communication".toList, "    Communication".toList]

def genericNoticeDocHints : List Text :=
  ["Notice".toList, "Publication".toList, "Communication".toList]

def unrelatedDocHints : List Text :=
  ["Tax".toList, "invoice".toList, "Payment".toList, "Deposit".toList, "payment".toList]

/-- Names of documents that share too few letters with the titles of their tasks. -/
def docMatchAliases : List (Text × List Text) :=
  [("gazette_decision".toList, ["Publication decision notice".toList,
      "Publication decision".toList, "publicationdecision".toList]),
    ("registration_decision".toList, ["Notice of allowance".toList,
      "DesignNotice of allowance".toList, "decisiontoregister".toList,
      "registrationdecision".toList]),
    ("refund_notice".toList, ["FeeGuidance".toList, "FeeGuidance".toList,
      "Official feeGuidance".toList, "Official feeGuidance".toList, "Guidance".toList,
      "Process".toList, "refundnotice".toList, "refund".toList]),
    ("refusal_decision".toList, ["Final rejection".toList, "noticeofrefusal".toList,
      "refusaldecision".toList, "refusal".toList])]

/-- `_compact`. -/
def compactText (t : Text) : Text := t.filter (fun c => !pyIsSpace c)

def normalizeDocKey (t : Text) : Text :=
  pyStrip ((t.filter (fun c => c.isAlphanum || c = '-')).map asciiLower)

def normalizedHintKeys (values : List Text) : List Text :=
  (values.map normalizeDocKey).filter (· ≠ [])

/-- `any(h in key for h in _normalized_hint_keys(hints))`. -/
def hasHint (hints : List Text) (key : Text) : Bool := (normalizedHintKeys hints).any (· <:+: key)

def charNgrams (n : Nat) (value : Text) : Finset Text :=
  let s := pyStrip value
  if s = [] then ∅
  else if s.length ≤ n then {s}
  else ((List.range (s.length - n + 1)).map (fun i => (s.drop i).take n)).toFinset

/-- `_approx_doc_match`. The quotients are compared as fractions: a key has at most 37² pairs, so none
is close enough to 0.55, 0.28 or 0.72 to be rounded to it. -/
def approxDocMatch (hintKey docKey : Text) : Bool :=
  let h := pyStrip hintKey
  let d := pyStrip docKey
  if h = [] ∨ d = [] then false
  else if h <:+: d ∨ d <:+: h then true
  else
    let h2 := charNgrams 2 h
    let d2 := charNgrams 2 d
    if h2 = ∅ ∨ d2 = ∅ then false
    else
      let inter := (h2 ∩ d2).card
      let union := (h2 ∪ d2).card
      if inter = 0 then false
      else
        (55 * max 1 h2.card ≤ 100 * inter ∧ 28 * max 1 union ≤ 100 * inter) ∨
          72 * max 1 h2.card ≤ 100 * inter

def docMatchAliasGroups (value : Text) : List Text :=
  let key := normalizeDocKey value
  if key = [] then []
  else (docMatchAliases.filter (fun group => hasHint group.2 key)).map Prod.fst

def aliasDocMatch (taskHint docName : Text) : Bool :=
  (docMatchAliasGroups taskHint).any (· ∈ docMatchAliasGroups docName)

/-- No letter but those of ASCII becomes lower case with a hint in it: that of `İ` has a combining dot
after its `i`. -/
def isResponseLikeDoc (docName : Text) : Bool :=
  let normalized := (pyStrip docName).map asciiLower
  normalized ≠ [] && responseDocHints.any (· <:+: normalized)

def isNoticeRelatedDoc (docName : Text) : Bool :=
  let key := normalizeDocKey docName
  if key = [] then false
  else if hasHint unrelatedDocHints key then false
  else hasHint noticeDocHints key

def isGenericTaskHint (hint : Text) : Bool :=
  let key := normalizeDocKey hint
  if key = [] then false else hasHint genericTaskHints key

def isGenericNoticeDoc (docName : Text) : Bool :=
  let key := normalizeDocKey docName
  if key = [] then false
  else if hasHint unrelatedDocHints key then false
  else hasHint genericNoticeDocHints key

def sourceTextMatchesTask (taskHint sourceText : Text) : Bool :=
  let hintKey := normalizeDocKey taskHint
  let sourceKey := normalizeDocKey sourceText
  if sourceKey = [] then false
  else if hintKey ≠ [] then
    if hintKey <:+: sourceKey then true
    else if aliasDocMatch taskHint sourceText then true
    else if isGenericTaskHint taskHint then isGenericNoticeDoc sourceText
    else false
  else false

/-- `_is_relevant_doc_for_task`, for a task with the document hint `taskHint`. -/
def isRelevantDocForHint (docName taskHint sourceText : Text) : Bool :=
  let docKey := normalizeDocKey docName
  let hintKey := normalizeDocKey taskHint
  let bySource := if hintKey ≠ [] then sourceTextMatchesTask taskHint sourceText else false
  if docKey ≠ [] then
    if hintKey ≠ [] then
      if approxDocMatch hintKey docKey then true
      else if aliasDocMatch taskHint docName then true
      else if isGenericTaskHint taskHint then
        isGenericNoticeDoc docName || sourceTextMatchesTask taskHint sourceText
      else bySource
    else if isNoticeRelatedDoc docName then true
    else bySource
  else bySource

/-- The text after the first place at which `sep` stands in it. -/
def afterFirst (sep : Text) : Text → Option Text
  | [] => if sep = [] then some [] else none
  | c :: t => if sep <+: c :: t then some ((c :: t).drop sep.length) else afterFirst sep t

/-- The document that a title names after `·`, else after a dash. -/
def titleDocument (title : Text) : Option Text :=
  ["·".toList, " - ".toList].findSome? (fun sep =>
    (afterFirst sep (pyStrip title)).bind (fun tail =>
      if pyStrip tail ≠ [] then some (pyStrip tail) else none))

example : titleDocument "Notice Client · Final rejection".toList =
    some "Final rejection".toList := by decide

end IpDocket.Deadlines
