import Mathlib.Data.List.Sort
import IpDocket.Deadlines.NoticeDocuments
import IpDocket.Deletion.DocketDates
import IpDocket.Lib.JsonEquality

/-!
# Candidates for closing a notice task

An open notice-send task is recommended for closing when a letter of its matter has gone out.
`refresh_notice_send_candidates_for_matter` finds the last letter that is about the document of the
task and keeps it in the memo; `mark_notice_send_candidates` does so for a letter that is just being
written, and `ack_notice_send_prompt` records the answer to the recommendation.
-/

namespace IpDocket.Deadlines
open IpDocket.Lib IpDocket.Deletion

/-- The fields of a memo that is read as a `dict`, else its text, which is empty for `NULL`. -/
inductive Memo (F : Type)
  | text (t : Text)
  | dict (fields : List (Text × Json F))

structure NoticeItem (F : Type) where
  docketId : Text
  matterId : Text
  category : Text
  nameRef : Option Text
  nameFree : Option Text
  doneDate : Option Text := none
  isDeleted : Bool := false
  memo : Memo F

/-- A row of `communication`. -/
structure CommunicationRow where
  commId : Text
  matterId : Text
  commType : Option Text
  sentDate : Option Text
  note : Option Text
  deriving DecidableEq

/-- A communication as the matching reads it; a field that its source does not give is empty. -/
structure Communication where
  commId : Text
  commType : Text
  sentDate : Text
  docName : Text := []
  note : Text
  subject : Text := []
  direction : Text := []
  action : Text := []
  sourceText : Text
  bodyText : Text := []
  deriving DecidableEq

/-- The texts of the emails are those of the rows that link one to a communication. -/
structure NoticeDb (F : Type) where
  items : List (NoticeItem F)
  communications : List CommunicationRow
  emailTexts : List (Text × Text)

def semiAutoKey : Text := "notice_send_semi_auto".toList

/-- `first or second or …` of texts. -/
def firstNonempty (ts : List Text) : Text := (ts.find? (· ≠ [])).getD []

section Tasks

variable (T : LetterTables) {F : Type}

def isNoticeSendTask (item : NoticeItem F) : Bool :=
  let nameRef := pyUpper T.toUpperTable (pyStrip (item.nameRef.getD []))
  if "MGMT:NOTICE_SEND_3D".toList <+: nameRef then true
  else
    let merged := compactText
      (item.nameFree.getD "None".toList ++ item.nameRef.getD "None".toList ++ item.category)
    ["Notice Client".toList, "Notice".toList].any (fun hint => compactText hint <:+: merged)

/-- The rows that a query for open rows of a matter gives, if they are notice-send tasks. -/
def isOpenTask (matterId : Text) (item : NoticeItem F) : Bool :=
  item.matterId = matterId && (item.doneDate.getD [] = [] && (!item.isDeleted && isNoticeSendTask T item))

/-- The tasks that a refresh of the matter reads. -/
def openTasks (matterId : Text) (items : List (NoticeItem F)) : List (NoticeItem F) :=
  if pyStrip matterId = [] then [] else items.filter (isOpenTask T (pyStrip matterId))

end Tasks

section Memo

variable {T : UnicodeTables} (H : PyHost T)

/-- `str(v or "").strip()`. -/
def strippedStr (v : Json H.floats.carrier) : Text := pyStrip (pyStr H (pyOr H v (.str [])))

def parseMemoPayload {F : Type} : Memo F → List (Text × Json F) × Text
  | .text t => ([], pyStrip t)
  | .dict fields => (fields, [])

def dumpMemoPayload (payload : List (Text × Json H.floats.carrier)) (legacyNote : Text) :
    Memo H.floats.carrier :=
  let note := pyStrip legacyNote
  if note ≠ [] ∧ strippedStr H (field payload "legacy_note".toList) = [] then
    .dict (setField "legacy_note".toList (.str note) payload)
  else .dict payload

def stateFromPayload {F : Type} (payload : List (Text × Json F)) : List (Text × Json F) :=
  match field payload semiAutoKey with
  | .obj fields => fields
  | _ => []

def taskDocHint (item : NoticeItem H.floats.carrier) (state : List (Text × Json H.floats.carrier)) :
    Text :=
  (titleDocument (item.nameFree.getD [])).getD
    (strippedStr H (field state "trigger_doc_name".toList))

/-- `^\d{4}-\d{2}-\d{2}$`. -/
def isIsoDate (T : UnicodeTables) : Text → Bool
  | [a, b, c, d, '-', e, f, '-', g, h] => [a, b, c, d, e, f, g, h].all (isDecimalDigit T)
  | _ => false

def normalizeIsoDate (T : UnicodeTables) (value : Text) : Text :=
  let candidate := (pyStrip value).take 10
  if isIsoDate T candidate then candidate else []

def taskAnchorDate (payload : List (Text × Json H.floats.carrier)) : Text :=
  firstNonempty (["received_date".toList, "notified_date".toList, "trigger_date".toList,
    "candidate_at".toList].map (fun key => normalizeIsoDate T (strippedStr H (field payload key))))

def isRelevantDocForTask (docName : Text) (item : NoticeItem H.floats.carrier)
    (state : List (Text × Json H.floats.carrier)) (sourceText : Text) : Bool :=
  isRelevantDocForHint docName (taskDocHint H item state) sourceText

end Memo

/-- `"\n\n".join` of the texts that `_append_comm_source_text` collects for the id. -/
def commSourceText (emailTexts : List (Text × Text)) (commId : Text) : Text :=
  if commId = [] then []
  else "\n\n".toList.intercalate
    (((emailTexts.filter (·.1 = commId)).map (pyStrip ·.2)).filter (· ≠ [])).eraseDups

/-- The rows are given in the order of the query. -/
def loadNoticeSendCommunicationsForMatter {F : Type} (db : NoticeDb F) (matterId : Text) :
    List Communication :=
  if pyStrip matterId = [] then []
  else (db.communications.filter (fun row => row.matterId = pyStrip matterId ∧ row.sentDate.isSome)).map
    (fun row => {
      commId := pyStrip row.commId
      commType := pyStrip (row.commType.getD [])
      sentDate := pyStrip (row.sentDate.getD [])
      note := pyStrip (row.note.getD [])
      sourceText := commSourceText db.emailTexts (pyStrip row.commId) })

/-- `communications` that a matter has at the time of a match: `sent_date`, `doc_name`, `comm_id`. -/
structure MatchedCommunication where
  sentDate : Text
  docName : Text
  commId : Text

section Matching

variable (T : LetterTables)

def sortKey (comm : Communication) : Text × Text :=
  (normalizeIsoDate T.toUnicodeTables (pyStrip comm.sentDate), pyStrip comm.commId)

def sortKeyLe (k l : Text × Text) : Prop := k.1 < l.1 ∨ (k.1 = l.1 ∧ ¬l.2 < k.2)

instance (k l : Text × Text) : Decidable (sortKeyLe k l) :=
  inferInstanceAs (Decidable (k.1 < l.1 ∨ (k.1 = l.1 ∧ ¬l.2 < k.2)))

/-- `sorted` with `reverse=True`, which leaves equal rows in their order. -/
def sortedCommunications (rows : List Communication) : List Communication :=
  rows.insertionSort (fun a b => sortKeyLe (sortKey T b) (sortKey T a))

def communicationDocName (comm : Communication) : Text :=
  pyStrip (firstNonempty [comm.docName, comm.note, comm.subject])

def communicationSourceText (comm : Communication) : Text :=
  pyStrip (firstNonempty [comm.sourceText, comm.bodyText])

/-- One round of the loop of `_matching_communication_for_task`, for a task with the anchor date and the
document hint. -/
def matchCommunication (anchorDate taskHint : Text) (comm : Communication) :
    Option MatchedCommunication :=
  let sentDate := normalizeIsoDate T.toUnicodeTables (pyStrip comm.sentDate)
  let commType := pyUpper T.toUpperTable (pyStrip comm.commType)
  let docName := communicationDocName comm
  let sourceText := communicationSourceText comm
  if sentDate = [] ∧ pyStrip comm.direction ≠ "Send".toList ∧ pyStrip comm.action ≠ "Send".toList then
    none
  else if sentDate ≠ [] ∧ anchorDate ≠ [] ∧ sentDate < anchorDate then none
  else if commType ≠ [] ∧ commType ≠ "M".toList then none
  else if docName ≠ [] ∧ isResponseLikeDoc docName = true then none
  else if isRelevantDocForHint docName taskHint sourceText = false then none
  else some ⟨sentDate, firstNonempty [docName, pyStrip taskHint], pyStrip comm.commId⟩

def matchingCommunication (anchorDate taskHint : Text) (communications : List Communication) :
    Option MatchedCommunication :=
  (sortedCommunications T communications).findSome? (matchCommunication T anchorDate taskHint)

variable (H : PyHost T.toUnicodeTables)

def matchingCommunicationForTask (item : NoticeItem H.floats.carrier)
    (payload state : List (Text × Json H.floats.carrier)) (communications : List Communication) :
    Option MatchedCommunication :=
  matchingCommunication T (taskAnchorDate H payload) (taskDocHint H item state) communications

end Matching

section Writers

variable (T : LetterTables) (H : PyHost T.toUnicodeTables)

def setDefault {F : Type} (key : Text) (v : Json F) (fields : List (Text × Json F)) :
    List (Text × Json F) :=
  if (fields.lookup key).isSome then fields else setField key v fields

def preserveNoticeSendHistory (state : List (Text × Json H.floats.carrier)) :
    List (Text × Json H.floats.carrier) :=
  (if pyTruthy H (field state "prompted".toList) then [("prompted".toList, .bool true)] else []) ++
    ["decision".toList, "prompted_at".toList, "prompted_by".toList].filterMap (fun key =>
      if strippedStr H (field state key) ≠ [] then some (key, field state key) else none)

/-- Who refreshes or marks and when; a source or an actor that is not given is empty. -/
structure NoticeCall where
  source : Text
  actorUserId : Text
  today : Text

/-- `next_state` for a communication that was matched. -/
def matchedState (call : NoticeCall) (m : MatchedCommunication)
    (kept : List (Text × Json H.floats.carrier)) : List (Text × Json H.floats.carrier) :=
  let s := setDefault "prompted".toList (.bool false) (setField "candidate".toList (.bool true) kept)
  let s := setField "candidate_at".toList (.str (firstNonempty [m.sentDate, call.today])) s
  let s := setField "trigger_doc_name".toList (.str ((pyStrip m.docName).take 200)) s
  let s :=
    if call.source ≠ [] then setField "source".toList (.str call.source) s
    else if strippedStr H (field s "source".toList) = [] then popField "source".toList s
    else s
  if call.actorUserId ≠ [] then setField "candidate_by".toList (.str call.actorUserId) s else s

/-- The payload of the memo after a refresh. -/
def refreshedPayload (call : NoticeCall) (communications : List Communication)
    (item : NoticeItem H.floats.carrier) : List (Text × Json H.floats.carrier) :=
  let payload := (parseMemoPayload item.memo).1
  let state := stateFromPayload payload
  let kept := preserveNoticeSendHistory T H state
  match matchingCommunicationForTask T H item payload state communications with
  | some m => setField semiAutoKey (.obj (matchedState T H call m kept)) payload
  | none =>
    if kept ≠ [] then
      setField semiAutoKey (.obj (setField "candidate".toList (.bool false) kept)) payload
    else popField semiAutoKey payload

variable (E : FloatEquality H)

/-- The memo that a call writes if the payload has changed. -/
def writtenMemo (item : NoticeItem H.floats.carrier) (payload : List (Text × Json H.floats.carrier)) :
    Option (Memo H.floats.carrier) :=
  let (before, legacyNote) := parseMemoPayload item.memo
  if pyEq E (.obj payload) (.obj before) then none else some (dumpMemoPayload H payload legacyNote)

def writePayload (item : NoticeItem H.floats.carrier) (payload : List (Text × Json H.floats.carrier)) :
    NoticeItem H.floats.carrier :=
  { item with memo := (writtenMemo T H E item payload).getD item.memo }

/-- `refresh_notice_send_candidates_for_matter`: the rows afterwards and the number of those that it
has written. -/
def refreshNoticeSendCandidatesForMatter (call : NoticeCall) (matterId : Text)
    (db : NoticeDb H.floats.carrier) : NoticeDb H.floats.carrier × Nat :=
  let mid := pyStrip matterId
  if mid = [] then (db, 0)
  else
    let communications := loadNoticeSendCommunicationsForMatter db mid
    let refreshed := refreshedPayload T H call communications
    ({ db with items := db.items.map (fun item =>
        if isOpenTask T mid item then writePayload T H E item (refreshed item) else item) },
      ((db.items.filter (isOpenTask T mid)).filter
        (fun item => (writtenMemo T H E item (refreshed item)).isSome)).length)

/-- The letter for which `mark_notice_send_candidates` is called; what is not given is empty. -/
structure MarkRequest where
  matterId : Text
  direction : Text
  docName : Text
  sourceText : Text
  sentDate : Text
  commType : Text
  candidateDate : Text

def markedPayload (call : NoticeCall) (m : MarkRequest) (item : NoticeItem H.floats.carrier) :
    Option (List (Text × Json H.floats.carrier)) :=
  let sentYmd := normalizeIsoDate T.toUnicodeTables m.sentDate
  let payload := (parseMemoPayload item.memo).1
  let state := stateFromPayload payload
  let anchorDate := taskAnchorDate H payload
  if sentYmd ≠ [] ∧ anchorDate ≠ [] ∧ sentYmd < anchorDate then none
  else if isRelevantDocForTask H m.docName item state m.sourceText = false then none
  else
    let s := setDefault "prompted".toList (.bool false) (setField "candidate".toList (.bool true) state)
    let s := setField "candidate_at".toList
      (.str (firstNonempty [sentYmd, pyStrip m.candidateDate, call.today])) s
    let s := if call.source ≠ [] then setField "source".toList (.str call.source) s else s
    let s :=
      if m.docName ≠ [] then
        setField "trigger_doc_name".toList (.str ((pyStrip m.docName).take 200)) s
      else s
    let s :=
      if call.actorUserId ≠ [] then setField "candidate_by".toList (.str call.actorUserId) s else s
    some (setField semiAutoKey (.obj s) payload)

def markNoticeSendCandidates (call : NoticeCall) (m : MarkRequest) (db : NoticeDb H.floats.carrier) :
    NoticeDb H.floats.carrier :=
  let commType := pyUpper T.toUpperTable (pyStrip m.commType)
  if pyStrip m.direction ≠ "Send".toList then db
  else if commType ≠ [] ∧ commType ≠ "M".toList then db
  else if isResponseLikeDoc m.docName then db
  else
    { db with items := db.items.map (fun item =>
        if isOpenTask T m.matterId item then
          match markedPayload T H call m item with
          | some payload => writePayload T H E item payload
          | none => item
        else item) }

/-- The answer to a recommendation; what is not given is empty. -/
structure AckRequest where
  matterId : Text
  docketId : Text
  decision : Text
  actorUserId : Text
  promptedDate : Text

def ackedPayload (today : Text) (a : AckRequest) (communications : List Communication)
    (item : NoticeItem H.floats.carrier) : List (Text × Json H.floats.carrier) :=
  let payload := (parseMemoPayload item.memo).1
  let state := stateFromPayload payload
  let s :=
    if pyTruthy H (field state "candidate".toList) then state
    else match matchingCommunicationForTask T H item payload state communications with
      | some m =>
        let s := setField "candidate".toList (.bool true) state
        let s :=
          if m.sentDate ≠ [] then setField "candidate_at".toList (.str (pyStrip m.sentDate)) s else s
        if m.docName ≠ [] then
          setField "trigger_doc_name".toList (.str ((pyStrip m.docName).take 200)) s
        else s
      | none => setField "candidate".toList (.bool false) state
  let s := setField "prompted".toList (.bool true) s
  let s := setField "decision".toList (.str ((pyStrip a.decision).map asciiLower)) s
  let s := setField "prompted_at".toList (.str (firstNonempty [pyStrip a.promptedDate, today])) s
  let s := if a.actorUserId ≠ [] then setField "prompted_by".toList (.str a.actorUserId) s else s
  setField semiAutoKey (.obj s) payload

def ackItem (today : Text) (a : AckRequest) (communications : List Communication)
    (item : NoticeItem H.floats.carrier) : NoticeItem H.floats.carrier :=
  let (payload, legacyNote) := parseMemoPayload item.memo
  if pyTruthy H (field (stateFromPayload payload) "prompted".toList) then item
  else
    { item with
      memo := dumpMemoPayload H (ackedPayload T H today a communications item) legacyNote }

/-- The docket id is the key of its table. -/
def ackNoticeSendPrompt (today : Text) (a : AckRequest) (db : NoticeDb H.floats.carrier) :
    NoticeDb H.floats.carrier :=
  let mid := pyStrip a.matterId
  let did := pyStrip a.docketId
  let decision := (pyStrip a.decision).map asciiLower
  if mid = [] ∨ did = [] ∨ decision ∉ ["yes".toList, "no".toList] then db
  else
    let communications := loadNoticeSendCommunicationsForMatter db mid
    { db with items := db.items.map (fun item =>
        if item.matterId = mid ∧ item.docketId = did ∧ isNoticeSendTask T item = true then
          ackItem T H today a communications item
        else item) }

end Writers
end IpDocket.Deadlines
