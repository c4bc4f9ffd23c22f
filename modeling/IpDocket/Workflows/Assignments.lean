import IpDocket.Lib.Run
import IpDocket.Lib.Table

/-!
# Assignment requests

Whoever gives a role of a workflow to somebody asks that person for a confirmation. A new
request replaces the pending one of the role, a listener before every flush closes the pending
requests that no longer fit their workflow, and a rejection gives the role back to the previous
user.
-/

namespace IpDocket.Workflows.Assignments
open IpDocket.Lib

inductive RoleCode
  | handler
  | attorney
  | manager
  deriving DecidableEq

inductive WorkflowStatus
  | pending
  | inProgress
  | completed
  | abandoned
  | other (raw : String)
  deriving DecidableEq

/-- `Workflow.TERMINAL_STATUSES`. -/
def WorkflowStatus.terminal : WorkflowStatus → Bool
  | .completed => true
  | .abandoned => true
  | _ => false

/-- The columns of a workflow that assignments are about. User ids are positive, so that
`_coerce_int` leaves them as they are. -/
structure Workflow where
  id : Nat
  status : WorkflowStatus
  assigneeId : Option Nat
  attorneyAssigneeId : Option Nat
  inspectorId : Option Nat
  deriving DecidableEq

/-- The column of a role, `ROLE_FIELDS`. -/
def Workflow.field (w : Workflow) : RoleCode → Option Nat
  | .handler => w.assigneeId
  | .attorney => w.attorneyAssigneeId
  | .manager => w.inspectorId

def Workflow.setField (w : Workflow) (user : Option Nat) : RoleCode → Workflow
  | .handler => { w with assigneeId := user }
  | .attorney => { w with attorneyAssigneeId := user }
  | .manager => { w with inspectorId := user }

inductive RequestStatus
  | pending
  | accepted
  | rejected
  | cancelled
  deriving DecidableEq

structure AssignmentRequest where
  id : Nat
  workflowId : Nat
  roleCode : RoleCode
  previousUserId : Option Nat
  targetUserId : Nat
  requestedById : Option Nat
  status : RequestStatus
  source : Option String
  requestedAt : Nat
  respondedAt : Option Nat
  responseNote : Option String
  deriving DecidableEq

abbrev Requests := Table AssignmentRequest.id

/-- `_terminal_assignment_request_resolution`. -/
def terminalResolution : WorkflowStatus → Option (RequestStatus × String)
  | .completed => some (.accepted, "workflow-completed")
  | .abandoned => some (.cancelled, "workflow-abandoned")
  | _ => none

def AssignmentRequest.close (r : AssignmentRequest) (status : RequestStatus) (note : String)
    (now : Nat) : AssignmentRequest :=
  { r with status := status, respondedAt := some now, responseNote := some note }

/-- `_close_pending_assignment_request`. -/
def AssignmentRequest.closePending (r : AssignmentRequest) (status : RequestStatus) (note : String)
    (now : Nat) : AssignmentRequest :=
  if r.status = .pending then r.close status note now else r

/-- `_finalize_assignment_request_for_workflow`. -/
def finalizeRequest (now : Nat) (w : Workflow) (r : AssignmentRequest) : AssignmentRequest :=
  match terminalResolution w.status with
  | some (status, note) => r.closePending status note now
  | none =>
    if w.field r.roleCode = some r.targetUserId then r
    else r.closePending .cancelled "workflow-assignment-changed" now

def finalizeRow (now : Nat) (w : Workflow) (r : AssignmentRequest) : AssignmentRequest :=
  if r.workflowId = w.id then finalizeRequest now w r else r

lemma id_closePending (r : AssignmentRequest) (status : RequestStatus) (note : String) (now : Nat) :
    (r.closePending status note now).id = r.id := by
  unfold AssignmentRequest.closePending
  split
  · rfl
  · rfl

lemma id_finalizeRequest (now : Nat) (w : Workflow) (r : AssignmentRequest) :
    (finalizeRequest now w r).id = r.id := by
  unfold finalizeRequest
  split
  · exact id_closePending _ _ _ _
  · split
    · rfl
    · exact id_closePending _ _ _ _

lemma id_finalizeRow (now : Nat) (w : Workflow) (r : AssignmentRequest) :
    (finalizeRow now w r).id = r.id := by
  unfold finalizeRow
  split
  · exact id_finalizeRequest now w r
  · rfl

/-- `_finalize_stale_assignment_requests_for_workflows` for a workflow that is flushed. -/
def finalizeStale (now : Nat) (w : Workflow) (requests : Requests) : Requests :=
  requests.update (finalizeRow now w) (id_finalizeRow now w)

def cancelRow (now workflowId : Nat) (role : RoleCode) (reason : String) (r : AssignmentRequest) :
    AssignmentRequest :=
  if r.workflowId = workflowId ∧ r.roleCode = role then r.closePending .cancelled reason now else r

lemma id_cancelRow (now workflowId : Nat) (role : RoleCode) (reason : String)
    (r : AssignmentRequest) : (cancelRow now workflowId role reason r).id = r.id := by
  unfold cancelRow
  split
  · exact id_closePending _ _ _ _
  · rfl

def cancelPendingAssignmentRequests (now workflowId : Nat) (role : RoleCode) (reason : String)
    (requests : Requests) : Requests :=
  requests.update (cancelRow now workflowId role reason) (id_cancelRow now workflowId role reason)

/-- The status of a new request, with its note. -/
def newStatus (w : Workflow) (target : Nat) (requestedBy : Option Nat) :
    RequestStatus × Option String :=
  match w.status with
  | .completed => (.accepted, some "workflow-completed")
  | .abandoned => (.cancelled, some "workflow-abandoned")
  | _ => if requestedBy = some target then (.accepted, some "self-assignment") else (.pending, none)

def newRequest (now : Nat) (w : Workflow) (role : RoleCode) (target : Nat)
    (requestedBy : Option Nat) (source : Option String) (previous : Option Nat) (id : Nat) :
    AssignmentRequest :=
  let status := newStatus w target requestedBy
  { id := id, workflowId := w.id, roleCode := role, previousUserId := previous,
    targetUserId := target, requestedById := requestedBy, status := status.1, source := source,
    requestedAt := now, respondedAt := if status.1 = .pending then none else some now,
    responseNote := status.2 }

/-- `request_assignment_confirmation`; the listener sees the new request as well. -/
def requestAssignmentConfirmation (now : Nat) (w : Workflow) (role : RoleCode)
    (target requestedBy : Option Nat) (source : Option String) (previous : Option Nat)
    (requests : Requests) : Requests :=
  let requests := cancelPendingAssignmentRequests now w.id role "reassigned" requests
  match target with
  | none => requests
  | some target =>
    requests.insert
      (fun id => finalizeRequest now w (newRequest now w role target requestedBy source previous id))
      (fun id => id_finalizeRequest now w
        (newRequest now w role target requestedBy source previous id))

def syncRole (now : Nat) (w before : Workflow) (requestedBy : Option Nat) (source : Option String)
    (requests : Requests) (role : RoleCode) : Requests :=
  if before.field role = w.field role then requests
  else requestAssignmentConfirmation now w role (w.field role) requestedBy source
    (before.field role) requests

/-- `sync_assignment_requests_for_changed_roles`. -/
def syncAssignmentRequestsForChangedRoles (now : Nat) (w before : Workflow)
    (requestedBy : Option Nat) (source : Option String) (requests : Requests) : Requests :=
  [RoleCode.handler, .attorney, .manager].foldl (syncRole now w before requestedBy source) requests

structure AssignmentState where
  workflows : Table Workflow.id
  requests : Requests

def AssignmentState.initial : AssignmentState := ⟨.empty _, .empty _⟩

inductive ResponseAction
  | accept
  | reject
  | other (text : String)
  deriving DecidableEq

inductive AssignmentRequestError
  | notFound
  | forbidden
  | invalidAction
  deriving DecidableEq

/-- The status and the three assignees of a workflow. -/
structure Assignees where
  status : WorkflowStatus
  assigneeId : Option Nat
  attorneyAssigneeId : Option Nat
  inspectorId : Option Nat

def Assignees.at (e : Assignees) (id : Nat) : Workflow :=
  ⟨id, e.status, e.assigneeId, e.attorneyAssigneeId, e.inspectorId⟩

inductive AssignmentAction
  | create (now : Nat) (new : Assignees) (requestedBy : Option Nat) (source : Option String)
  | edit (now workflowId : Nat) (new : Assignees) (requestedBy : Option Nat) (source : Option String)
  | respond (now requestId : Nat) (actor : Option Nat) (action : ResponseAction)
      (reason : Option String) (allowPrivileged : Bool)

section Transactions

-- an active user who may assign staff in the matter of the workflow
variable (mayAssign : Nat → Nat → Bool)

/-- `_actor_can_respond`. -/
def actorCanRespond (r : AssignmentRequest) (actor : Option Nat) (action : ResponseAction)
    (allowPrivileged : Bool) : Bool :=
  match actor with
  | none => false
  | some actor =>
    actor = r.targetUserId || (allowPrivileged && action = .accept && mayAssign actor r.workflowId)

def answerRow (now requestId : Nat) (status : RequestStatus) (reason : Option String)
    (r : AssignmentRequest) : AssignmentRequest :=
  if r.id = requestId then
    { r with status := status, respondedAt := some now, responseNote := reason }
  else r

lemma id_answerRow (now requestId : Nat) (status : RequestStatus) (reason : Option String)
    (r : AssignmentRequest) : (answerRow now requestId status reason r).id = r.id := by
  unfold answerRow
  split
  · rfl
  · rfl

def Requests.answer (requests : Requests) (now requestId : Nat) (status : RequestStatus)
    (reason : Option String) : Requests :=
  requests.update (answerRow now requestId status reason)
    (id_answerRow now requestId status reason)

lemma id_setField (w : Workflow) (user : Option Nat) (role : RoleCode) :
    (w.setField user role).id = w.id := by
  cases role with
  | handler => rfl
  | attorney => rfl
  | manager => rfl

/-- The role goes back to the previous user. -/
def putBackRow (r : AssignmentRequest) (w : Workflow) : Workflow :=
  if w.id = r.workflowId then w.setField r.previousUserId r.roleCode else w

lemma id_putBackRow (r : AssignmentRequest) (w : Workflow) : (putBackRow r w).id = w.id := by
  unfold putBackRow
  split
  · exact id_setField w _ _
  · rfl

/-- A rejection changes the workflow if the target still has the role; the listener then sees
the workflow. -/
def rejectRequest (s : AssignmentState) (now : Nat) (reason : Option String)
    (r : AssignmentRequest) : AssignmentState :=
  let requests := s.requests.answer now r.id .rejected reason
  match s.workflows.find r.workflowId with
  | none => { s with requests := requests }
  | some w =>
    if w.field r.roleCode = some r.targetUserId then
      ⟨s.workflows.update (putBackRow r) (id_putBackRow r),
        finalizeStale now (w.setField r.previousUserId r.roleCode) requests⟩
    else { s with requests := requests }

/-- `respond_assignment_request`, with the flush after it. -/
def respondAssignmentRequest (s : AssignmentState) (now requestId : Nat) (actor : Option Nat)
    (action : ResponseAction) (reason : Option String) (allowPrivileged : Bool) :
    Except AssignmentRequestError AssignmentState :=
  match s.requests.find requestId with
  | none => .error .notFound
  | some r =>
    if actorCanRespond mayAssign r actor action allowPrivileged then
      if r.status ≠ .pending then .ok s
      else match action with
        | .accept => .ok { s with requests := s.requests.answer now r.id .accepted reason }
        | .reject => .ok (rejectRequest s now reason r)
        | .other _ => .error .invalidAction
    else .error .forbidden

def editRow (workflowId : Nat) (new : Assignees) (w : Workflow) : Workflow :=
  if w.id = workflowId then new.at w.id else w

lemma id_editRow (workflowId : Nat) (new : Assignees) (w : Workflow) :
    (editRow workflowId new w).id = w.id := by
  unfold editRow
  split
  · rfl
  · rfl

/-- One transaction: the workflow is created or edited and flushed, and the requests follow. -/
def assignmentStep (s : AssignmentState) : AssignmentAction → Option AssignmentState
  | .create now new requestedBy source =>
    let w := new.at s.workflows.next
    let before : Workflow := ⟨w.id, w.status, none, none, none⟩
    some ⟨s.workflows.insert new.at (fun _ => rfl),
      syncAssignmentRequestsForChangedRoles now w before requestedBy source
        (finalizeStale now w s.requests)⟩
  | .edit now workflowId new requestedBy source =>
    match s.workflows.find workflowId with
    | none => none
    | some before =>
      let w := new.at workflowId
      some ⟨s.workflows.update (editRow workflowId new) (id_editRow workflowId new),
        syncAssignmentRequestsForChangedRoles now w before requestedBy source
          (finalizeStale now w s.requests)⟩
  | .respond now requestId actor action reason allowPrivileged =>
    (respondAssignmentRequest mayAssign s now requestId actor action reason
      allowPrivileged).toOption

end Transactions

end IpDocket.Workflows.Assignments
