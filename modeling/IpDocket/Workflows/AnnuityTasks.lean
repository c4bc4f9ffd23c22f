import IpDocket.Annuity.Policy
import IpDocket.Lib.Table
import Mathlib.Data.List.Sort

/-!
# Workflows of annuity rows

`sync_annuity_workflows_for_matter` rebuilds the workflows of the annuity rows of a matter. A
workflow belongs to an annuity row by its business code `ANNUITY:<matter>:<cycle>`. The pass picks
the annuity rows whose workflows are to be open, writes these workflows, and closes the other
workflows that it finds with `LIKE 'ANNUITY:<matter>:%'`.

An `INSERT` with a business code of more than fifty characters fails, and so does one for a matter
without a row, as `case_id` is a foreign key. The flush swallows the exception, the next query
raises, and the transaction is rolled back: the pass gives `none`.
-/

namespace IpDocket.Workflows.AnnuityTasks
open IpDocket.Lib IpDocket.Annuity

/-- A row of `workflows`. The ids come from a sequence that starts at one, so that no row is
skipped by `if not wf_id`. -/
structure Workflow where
  id : Nat
  caseId : Option Text := none
  businessCode : Option Text
  /-- the column is a `String(50)` -/
  code_fits : ∀ bc ∈ businessCode, bc.length ≤ 50 := by decide
  name : Text := []
  category : Option Text := none
  status : Option Text := some "Pending".toList
  legalDueDate : Option PyDate := none
  dueDate : Option PyDate := none
  completedDate : Option PyDate := none
  note : Option Text := none
  assigneeId : Option Nat := none
  snapshotAttorney : Option Text := none
  snapshotHandler : Option Text := none
  snapshotManager : Option Text := none
  deriving DecidableEq

abbrev WorkflowTable := Table Workflow.id

/-- The constraint `ux_workflows_business_code`. -/
def UniqueCodes (t : WorkflowTable) : Prop :=
  t.rows.Pairwise (fun w v => w.businessCode = v.businessCode → w.businessCode = none)

def isClosed (status : Text) : Bool := status ∈ ["Completed", "Abandoned"].map String.toList

def autoNoteTags : List Text :=
  ["[Renewal Auto]", "[Renewal Delete]", "[Renewal Management Disabled]", "[Renewal  ]"].map String.toList

def keepsNoteLine (line : Text) : Bool :=
  line ≠ [] && line ∉ autoNoteTags &&
    !("[Matter Status Change:".toList <+: line && "Task ".toList <:+: line)

def stripAnnuityAutoNoteTags (note : Option Text) : Option Text :=
  let lines := (splitLines (note.getD [])).map pyStrip
  let kept := (lines.filter keepsNoteLine).foldl (keepFirst id) []
  if kept = [] then none else some (joinLines kept)

/-- `note` in the `UPDATE` of `_abandon_annuity_workflows`. -/
def tagNote (tag : Text) (note : Option Text) : Option Text :=
  match note with
  | none => some tag
  | some n =>
    if sqlTrim n = [] then some tag
    else if sqlLike ('%' :: tag ++ ['%']) n then some n
    else some (n ++ '\n' :: tag)

def appendNoteMarker (note : Option Text) (marker : Text) : Option Text :=
  let marker := pyStrip marker
  let textNote := pyStrip (note.getD [])
  if marker = [] ∨ marker <:+: textNote then (if textNote = [] then none else some textNote)
  else some (pyStrip (textNote ++ ' ' :: marker))

/-- What the pass reads besides the workflows. `terminalStatus` is the result of
`_terminal_case_status_for_matter`; names and staff come from the matter. -/
structure SyncInput where
  today : PyDate
  visibleN : Nat
  terminalStatus : Text := []
  managementDisabled : Bool := false
  matterExists : Bool := true
  items : List AnnuityItem
  workflowName : AnnuityItem → Text
  assignee : AnnuityItem → Option Nat
  snapshotAttorney : Text := []
  snapshotHandler : Text := []
  snapshotManager : Text := []

/-- The constraint `uq_annuity_matter_cycle`. -/
def DistinctCycles (inp : SyncInput) : Prop :=
  inp.items.Pairwise (fun ai bi => (ai.matterId, ai.cycleNo) ≠ (bi.matterId, bi.cycleNo))

def annuityBusinessCode (matterId : Text) (cycleNo : Int) : Option Text :=
  let mid := pyStrip matterId
  if mid = [] ∨ cycleNo ≤ 0 then none
  else some ("ANNUITY:".toList ++ mid ++ ':' :: pyDigits cycleNo.toNat)

def codeOf (ai : AnnuityItem) : Option Text := annuityBusinessCode ai.matterId ai.cycleNo

/-- `business_code LIKE 'ANNUITY:<mid>:%'`. -/
def codeLike (mid : Text) (w : Workflow) : Bool :=
  w.businessCode.any (sqlLike ("ANNUITY:".toList ++ mid ++ ":%".toList))

section Pass

variable (T : UnicodeTables) (inp : SyncInput)

/-- The fields `_upsert_workflow_for_annuity` writes. -/
def writeItem (ai : AnnuityItem) (w : Workflow) : Workflow :=
  let legalDue := parseDate T ai.dueDate
  let st := computeStatus T inp.today ai
  { w with
    name := inp.workflowName ai
    category := if w.category.getD [] = [] then some "MGMT".toList else w.category
    legalDueDate := legalDue
    dueDate := (parseDate T (effectiveDueDateStr T ai)).or legalDue
    status := match st with
      | .paid => some "Completed".toList
      | .giveup => some "Abandoned".toList
      | _ => some "Pending".toList
    completedDate := match st with
      | .paid => some ((parseDate T ai.paidDate).getD inp.today)
      | .giveup => some inp.today
      | _ => none
    note := match st with
      | .paid | .giveup => w.note
      | _ => stripAnnuityAutoNoteTags w.note
    assigneeId := if (inp.assignee ai).isSome ∨ w.assigneeId = none then inp.assignee ai else w.assigneeId
    snapshotAttorney := if inp.snapshotAttorney = [] then w.snapshotAttorney else some inp.snapshotAttorney
    snapshotHandler := if inp.snapshotHandler = [] then w.snapshotHandler else some inp.snapshotHandler
    snapshotManager := if inp.snapshotManager = [] then w.snapshotManager else some inp.snapshotManager }

def hasCode (bc : Text) (w : Workflow) : Bool := w.businessCode = some bc

/-- `_upsert_workflow_for_annuity`. -/
def upsertWorkflow (ai : AnnuityItem) (t : WorkflowTable) : Option WorkflowTable :=
  match codeOf ai with
  | none => some t
  | some bc =>
    if t.rows.any (hasCode bc) then
      some (t.update (onRows (hasCode bc) (writeItem T inp ai)) (key_onRows (fun _ => rfl)))
    else if h : bc.length ≤ 50 ∧ inp.matterExists = true then
      some (t.insert (fun id => writeItem T inp ai
        { id := id, caseId := some ai.matterId, businessCode := some bc, code_fits := by simpa using h.1 })
        (fun _ => rfl))
    else none

def upsertAll (ais : List AnnuityItem) (t : WorkflowTable) : Option WorkflowTable :=
  ais.foldlM (fun t ai => upsertWorkflow T inp ai t) t

/-- `_abandon_annuity_workflows`. -/
def abandonRow (tag : Text) (w : Workflow) : Workflow :=
  { w with
    status := some "Abandoned".toList
    completedDate := some inp.today
    note := tagNote tag w.note }

def abandonAnnuityWorkflows (ids : List Nat) (tag : Text) (t : WorkflowTable) : WorkflowTable :=
  t.update (onRows (fun w => w.id ∈ ids && w.status.any (!isClosed ·)) (abandonRow inp tag))
    (key_onRows (fun _ => rfl))

variable (mid : Text)

/-- The annuity rows of the matter that are not deleted. -/
def itemsOf : List AnnuityItem := inp.items.filter (fun ai => ai.matterId = mid && !ai.isDeleted)

/-- `by_bc.get(bc)`. -/
def itemOfCode (bc : Text) : Option AnnuityItem :=
  (itemsOf inp mid).reverse.find? (fun ai => codeOf ai = some bc)

structure Candidate where
  effDue : PyDate
  cycleNo : Int
  code : Text

def candidateOf (ai : AnnuityItem) : Option Candidate := do
  let bc ← codeOf ai
  match computeStatus T inp.today ai with
  | .pending | .overdue =>
    let effDue ← parseDate T (effectiveDueDateStr T ai)
    return ⟨effDue, ai.cycleNo, bc⟩
  | _ => none

def candidates : List Candidate := (itemsOf inp mid).filterMap (candidateOf T inp)

def dueBefore (a b : Candidate) : Prop :=
  a.effDue.key < b.effDue.key ∨ (a.effDue.key = b.effDue.key ∧ a.cycleNo ≤ b.cycleNo)

def cycleBefore (a b : Candidate) : Prop :=
  a.cycleNo < b.cycleNo ∨ (a.cycleNo = b.cycleNo ∧ a.effDue.key ≤ b.effDue.key)

instance : DecidableRel dueBefore := fun _ _ => inferInstanceAs (Decidable (_ ∨ _))

instance : DecidableRel cycleBefore := fun _ _ => inferInstanceAs (Decidable (_ ∨ _))

/-- The cycles from the next one that is due, or the last ones if none is still to come. -/
def selected : List Candidate :=
  let candidates := candidates T inp mid
  let upcoming := candidates.filter (fun c => inp.today.key ≤ c.effDue.key)
  match upcoming.insertionSort dueBefore with
  | anchor :: _ =>
    ((candidates.filter (fun c => anchor.cycleNo ≤ c.cycleNo)).insertionSort cycleBefore).take inp.visibleN
  | [] => (candidates.insertionSort (fun a b => dueBefore b a)).take inp.visibleN

def orderedOpenBcs : List Text := (selected T inp mid).map Candidate.code

def isStale (w : Workflow) : Bool :=
  let bc := pyStrip (w.businessCode.getD [])
  codeLike mid w && bc ≠ [] && !isClosed (pyStrip (w.status.getD [])) && bc ∉ orderedOpenBcs T inp mid

/-- The annuity row of a workflow, if it is paid or given up. -/
def settledItem (w : Workflow) : Option AnnuityItem :=
  (itemOfCode inp mid (pyStrip (w.businessCode.getD []))).filter (fun ai =>
    computeStatus T inp.today ai = .paid || computeStatus T inp.today ai = .giveup)

def settledItems (t : WorkflowTable) : List AnnuityItem :=
  (t.rows.filter (isStale T inp mid)).filterMap (settledItem T inp mid)

def isHidden (w : Workflow) : Bool := isStale T inp mid w && (settledItem T inp mid w).isNone

/-- `hide_auto_ids` and `hide_deleted_ids`. -/
def hideIds (deleted : Bool) (t : WorkflowTable) : List Nat :=
  (t.rows.filter (fun w => isHidden T inp mid w &&
    (itemOfCode inp mid (pyStrip (w.businessCode.getD []))).isNone = deleted)).map Workflow.id

def syncManaged (t : WorkflowTable) : Option WorkflowTable := do
  let opened ← upsertAll T inp ((orderedOpenBcs T inp mid).filterMap (itemOfCode inp mid)) t
  let settled ← upsertAll T inp (settledItems T inp mid opened) opened
  let pruned := abandonAnnuityWorkflows inp (hideIds T inp mid false opened) "[Renewal Auto]".toList settled
  return abandonAnnuityWorkflows inp (hideIds T inp mid true opened) "[Renewal Delete]".toList pruned

def closeRow (w : Workflow) : Workflow :=
  { w with
    status := some "Abandoned".toList
    completedDate := some inp.today
    note := appendNoteMarker w.note
      ("[Matter Status Change:".toList ++ inp.terminalStatus ++ "] Task closed".toList) }

def syncTerminal (t : WorkflowTable) : WorkflowTable :=
  t.update (onRows (fun w => codeLike mid w && !w.status.any isClosed) (closeRow inp))
    (key_onRows (fun _ => rfl))

def syncDisabled (t : WorkflowTable) : WorkflowTable :=
  let ids := (t.rows.filter (fun w => codeLike mid w && w.status.any (!isClosed ·))).map Workflow.id
  abandonAnnuityWorkflows inp ids "[Renewal Management Disabled]".toList t

end Pass

inductive Mode
  | blank
  | terminal
  | disabled
  | managed
  deriving DecidableEq

def modeOf (inp : SyncInput) (matterId : Text) : Mode :=
  if pyStrip matterId = [] then .blank
  else if inp.terminalStatus ≠ [] then .terminal
  else if inp.managementDisabled then .disabled
  else .managed

/-- `sync_annuity_workflows_for_matter`. -/
def syncAnnuityWorkflowsForMatter (T : UnicodeTables) (inp : SyncInput) (matterId : Text)
    (t : WorkflowTable) : Option WorkflowTable :=
  match modeOf inp matterId with
  | .blank => some t
  | .terminal => some (syncTerminal inp (pyStrip matterId) t)
  | .disabled => some (syncDisabled inp (pyStrip matterId) t)
  | .managed => syncManaged T inp (pyStrip matterId) t

end IpDocket.Workflows.AnnuityTasks
