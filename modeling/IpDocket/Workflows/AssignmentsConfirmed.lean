import IpDocket.Workflows.Assignments

/-!
# Requests and assignees stay in step

At most one request of a role is pending, and a pending request is for the current assignee of
an open workflow. Whoever has a role of an open workflow has confirmed it or is being asked,
unless a rejection has given it back to somebody who was never heard.
-/

namespace IpDocket.Workflows.Assignments
open IpDocket.Lib

/-- The workflow, the role and the user that a request is about. -/
def AssignmentRequest.subject (r : AssignmentRequest) : Nat × RoleCode × Nat :=
  (r.workflowId, r.roleCode, r.targetUserId)

/-- The request from when the user was last given the role. -/
def Requests.latest (requests : Requests) (subject : Nat × RoleCode × Nat) :
    Option AssignmentRequest :=
  (requests.rows.filter (fun r => r.subject = subject)).getLast?

/-- The user has confirmed or is being asked. -/
def AssignmentRequest.Standing (r : AssignmentRequest) : Prop :=
  r.status = .accepted ∨ r.status = .pending

instance (r : AssignmentRequest) : Decidable r.Standing :=
  inferInstanceAs (Decidable (_ ∨ _))

lemma latest_update {requests : Requests} {f : AssignmentRequest → AssignmentRequest}
    {hf : ∀ r, (f r).id = r.id} (hsubject : ∀ r, (f r).subject = r.subject)
    (subject : Nat × RoleCode × Nat) :
    Requests.latest (requests.update f hf) subject = (requests.latest subject).map f := by
  unfold Requests.latest
  rw [Table.rows_update, List.filter_map, List.getLast?_map]
  congr 2
  apply List.filter_congr
  intro r _
  rw [Function.comp_apply, hsubject]

lemma latest_insert {requests : Requests} {make : Nat → AssignmentRequest}
    {hm : ∀ k, (make k).id = k} (subject : Nat × RoleCode × Nat) :
    Requests.latest (requests.insert make hm) subject =
      if (make requests.next).subject = subject then some (make requests.next)
      else requests.latest subject := by
  unfold Requests.latest
  change ((requests.rows ++ [make requests.next]).filter _).getLast? = _
  rw [List.filter_append]
  by_cases h : (make requests.next).subject = subject
  · rw [if_pos h, List.filter_cons_of_pos (by simpa using h), List.filter_nil]
    simp
  · rw [if_neg h, List.filter_cons_of_neg (by simpa using h), List.filter_nil, List.append_nil]

lemma latest_mem {requests : Requests} {subject : Nat × RoleCode × Nat} {r : AssignmentRequest}
    (h : requests.latest subject = some r) : r ∈ requests.rows ∧ r.subject = subject := by
  have hmem := List.mem_of_mem_getLast? h
  have hfilter := List.mem_filter.mp hmem
  exact ⟨hfilter.1, by simpa using hfilter.2⟩

lemma subject_closePending (r : AssignmentRequest) (status : RequestStatus) (note : String)
    (now : Nat) : (r.closePending status note now).subject = r.subject := by
  unfold AssignmentRequest.closePending
  split
  · rfl
  · rfl

lemma closePending_eq {r : AssignmentRequest} {status : RequestStatus} {note : String} {now : Nat}
    (hstatus : status ≠ .pending) (h : (r.closePending status note now).status = .pending) :
    False := by
  unfold AssignmentRequest.closePending at h
  split at h
  · exact hstatus h
  · next hnot => exact hnot h

lemma terminalResolution_none {status : WorkflowStatus} :
    terminalResolution status = none ↔ status.terminal = false := by
  cases status <;> simp [terminalResolution, WorkflowStatus.terminal]

lemma terminalResolution_ne_pending {status : WorkflowStatus} {p : RequestStatus × String}
    (h : terminalResolution status = some p) : p.1 ≠ .pending := by
  cases status <;> simp [terminalResolution] at h <;> subst h <;> simp

/-- A request that is open after the listener was open before and fits its workflow. -/
lemma finalizeRequest_pending {now : Nat} {w : Workflow} {r : AssignmentRequest}
    (h : (finalizeRequest now w r).status = .pending) :
    finalizeRequest now w r = r ∧ w.status.terminal = false ∧
      w.field r.roleCode = some r.targetUserId := by
  unfold finalizeRequest at h ⊢
  cases hres : terminalResolution w.status with
  | some p =>
    rw [hres] at h
    exact (closePending_eq (terminalResolution_ne_pending hres) h).elim
  | none =>
    rw [hres] at h
    dsimp only at h ⊢
    split at h
    · next hfield => exact ⟨if_pos hfield, terminalResolution_none.mp hres, hfield⟩
    · exact (closePending_eq (by decide) h).elim

/-- The listener leaves a request alone that fits its open workflow or is answered. -/
lemma finalizeRequest_of_fits {now : Nat} {w : Workflow} {r : AssignmentRequest}
    (hopen : w.status.terminal = false)
    (h : r.status = .pending → w.field r.roleCode = some r.targetUserId) :
    finalizeRequest now w r = r := by
  unfold finalizeRequest
  rw [terminalResolution_none.mpr hopen]
  dsimp only
  split
  · rfl
  · next hfield =>
    unfold AssignmentRequest.closePending
    rw [if_neg (fun hpending => hfield (h hpending))]

lemma subject_finalizeRequest (now : Nat) (w : Workflow) (r : AssignmentRequest) :
    (finalizeRequest now w r).subject = r.subject := by
  unfold finalizeRequest
  split
  · exact subject_closePending _ _ _ _
  · split
    · rfl
    · exact subject_closePending _ _ _ _

lemma subject_finalizeRow (now : Nat) (w : Workflow) (r : AssignmentRequest) :
    (finalizeRow now w r).subject = r.subject := by
  unfold finalizeRow
  split
  · exact subject_finalizeRequest now w r
  · rfl

lemma finalizeRow_pending {now : Nat} {w : Workflow} {r : AssignmentRequest}
    (h : (finalizeRow now w r).status = .pending) :
    finalizeRow now w r = r ∧ (r.workflowId = w.id → w.status.terminal = false ∧
      w.field r.roleCode = some r.targetUserId) := by
  unfold finalizeRow at h ⊢
  split at h
  · next hid =>
    rw [if_pos hid]
    exact ⟨(finalizeRequest_pending h).1, fun _ => (finalizeRequest_pending h).2⟩
  · next hid =>
    rw [if_neg hid]
    exact ⟨rfl, fun heq => absurd heq hid⟩

lemma subject_cancelRow (now workflowId : Nat) (role : RoleCode) (reason : String)
    (r : AssignmentRequest) : (cancelRow now workflowId role reason r).subject = r.subject := by
  unfold cancelRow
  split
  · exact subject_closePending _ _ _ _
  · rfl

lemma cancelRow_pending {now workflowId : Nat} {role : RoleCode} {reason : String}
    {r : AssignmentRequest} (h : (cancelRow now workflowId role reason r).status = .pending) :
    cancelRow now workflowId role reason r = r ∧
      ¬(r.workflowId = workflowId ∧ r.roleCode = role) := by
  unfold cancelRow at h ⊢
  split at h
  · exact (closePending_eq (by decide) h).elim
  · next hnot => exact ⟨if_neg hnot, hnot⟩

/-- A new request of a role that its workflow has given to the target. -/
lemma newRequest_standing {now : Nat} {w : Workflow} {role : RoleCode} {target : Nat}
    {requestedBy : Option Nat} {source : Option String} {previous : Option Nat} {id : Nat}
    (hopen : w.status.terminal = false) (hfield : w.field role = some target) :
    finalizeRequest now w (newRequest now w role target requestedBy source previous id) =
        newRequest now w role target requestedBy source previous id ∧
      (newRequest now w role target requestedBy source previous id).Standing := by
  refine ⟨finalizeRequest_of_fits hopen (fun _ => hfield), ?_⟩
  change (newStatus w target requestedBy).1 = .accepted ∨
    (newStatus w target requestedBy).1 = .pending
  unfold newStatus
  split
  · next hstatus =>
    rw [hstatus] at hopen
    cases hopen
  · next hstatus =>
    rw [hstatus] at hopen
    cases hopen
  · split
    · exact .inl rfl
    · exact .inr rfl

/-! ### What holds after every transaction -/

/-- No two pending requests for one role of a workflow. -/
def OnePending (requests : Requests) : Prop :=
  ∀ r ∈ requests.rows, ∀ q ∈ requests.rows, r.status = .pending → q.status = .pending →
    r.workflowId = q.workflowId → r.roleCode = q.roleCode → r = q

/-- Whoever has a role of the workflow has confirmed or is being asked. -/
def RoleConfirmed (requests : Requests) (w : Workflow) (role : RoleCode) : Prop :=
  ∀ user, w.field role = some user →
    ∃ r, requests.latest (w.id, role, user) = some r ∧ r.Standing

structure Confirmed (s : AssignmentState) : Prop where
  one_pending : OnePending s.requests
  pending_current : ∀ r ∈ s.requests.rows, r.status = .pending →
    ∃ w, s.workflows.find r.workflowId = some w ∧ w.status.terminal = false ∧
      w.field r.roleCode = some r.targetUserId
  confirmed : ∀ w ∈ s.workflows.rows, w.status.terminal = false → ∀ role,
    RoleConfirmed s.requests w role

/-- The requests of the other workflows are as they were. -/
def SameOthers (workflowId : Nat) (before after : Requests) : Prop :=
  after.rows.filter (fun r => r.workflowId ≠ workflowId) =
    before.rows.filter (fun r => r.workflowId ≠ workflowId)

/-- The requests of a workflow while its roles are followed up; `todo` are the roles that are
still to come. -/
structure FollowedUp (w : Workflow) (todo : RoleCode → Prop) (before requests : Requests) :
    Prop where
  one_pending : OnePending requests
  current : ∀ r ∈ requests.rows, r.status = .pending → r.workflowId = w.id →
    w.status.terminal = false ∧ w.field r.roleCode = some r.targetUserId
  confirmed : w.status.terminal = false → ∀ role, ¬todo role → RoleConfirmed requests w role
  others : SameOthers w.id before requests

lemma sameOthers_update {workflowId : Nat} {before requests : Requests}
    {f : AssignmentRequest → AssignmentRequest} {hf : ∀ r, (f r).id = r.id}
    (hsubject : ∀ r, (f r).subject = r.subject)
    (hother : ∀ r ∈ requests.rows, r.workflowId ≠ workflowId → f r = r) (h : SameOthers workflowId before requests) :
    SameOthers workflowId before (requests.update f hf) := by
  unfold SameOthers at h ⊢
  rw [← h, Table.rows_update, List.filter_map]
  have hkeep : (fun r : AssignmentRequest => decide (r.workflowId ≠ workflowId)) ∘ f =
      fun r => decide (r.workflowId ≠ workflowId) := by
    funext r
    have hid : (f r).workflowId = r.workflowId := congrArg Prod.fst (hsubject r)
    rw [Function.comp_apply, hid]
  rw [hkeep]
  conv_rhs => rw [← List.map_id (requests.rows.filter (fun r => r.workflowId ≠ workflowId))]
  apply List.map_congr_left
  intro r hr
  obtain ⟨hmem, hid⟩ := List.mem_filter.mp hr
  exact hother r hmem (by simpa using hid)

lemma sameOthers_insert {workflowId : Nat} {before requests : Requests}
    {make : Nat → AssignmentRequest} {hm : ∀ k, (make k).id = k}
    (hid : (make requests.next).workflowId = workflowId)
    (h : SameOthers workflowId before requests) :
    SameOthers workflowId before (requests.insert make hm) := by
  unfold SameOthers at h ⊢
  change (requests.rows ++ [make requests.next]).filter _ = _
  rw [List.filter_append, h, List.filter_cons_of_neg (by simpa using hid), List.filter_nil,
    List.append_nil]

lemma mem_iff_of_sameOthers {workflowId : Nat} {before after : Requests}
    (h : SameOthers workflowId before after) {r : AssignmentRequest}
    (hid : r.workflowId ≠ workflowId) : r ∈ after.rows ↔ r ∈ before.rows := by
  have hmem : ∀ requests : Requests, r ∈ requests.rows ↔
      r ∈ requests.rows.filter (fun r => r.workflowId ≠ workflowId) := by
    intro requests
    simp [hid]
  rw [hmem after, hmem before, h]

lemma latest_of_sameOthers {workflowId : Nat} {before after : Requests}
    (h : SameOthers workflowId before after) {subject : Nat × RoleCode × Nat}
    (hid : subject.1 ≠ workflowId) : after.latest subject = before.latest subject := by
  have hfilter : ∀ requests : Requests, requests.rows.filter (fun r => r.subject = subject) =
      (requests.rows.filter (fun r => r.workflowId ≠ workflowId)).filter
        (fun r => r.subject = subject) := by
    intro requests
    rw [List.filter_filter]
    apply List.filter_congr
    intro r _
    by_cases hsubject : r.subject = subject
    · have hne : r.workflowId ≠ workflowId := by
        rw [← hsubject] at hid
        exact hid
      simp [hsubject, hne]
    · simp [hsubject]
  unfold Requests.latest
  rw [hfilter after, hfilter before, h]

/-- Closing requests keeps the pending ones apart. -/
lemma OnePending.update {requests : Requests} (h : OnePending requests)
    {f : AssignmentRequest → AssignmentRequest} {hf : ∀ r, (f r).id = r.id}
    (hpending : ∀ r, (f r).status = .pending → f r = r) : OnePending (requests.update f hf) := by
  intro r hr q hq hrp hqp hid hrole
  obtain ⟨r, hr', rfl⟩ := List.mem_map.mp hr
  obtain ⟨q, hq', rfl⟩ := List.mem_map.mp hq
  have hreq := hpending r hrp
  have hqeq := hpending q hqp
  rw [hreq, hqeq] at hid hrole
  rw [hreq] at hrp ⊢
  rw [hqeq] at hqp ⊢
  exact h r hr' q hq' hrp hqp hid hrole

/-- The listener keeps what stands for a role that has not changed hands. -/
lemma roleConfirmed_finalizeStale {now : Nat} {w : Workflow} {requests : Requests}
    {role : RoleCode} (hopen : w.status.terminal = false) (h : RoleConfirmed requests w role) :
    RoleConfirmed (finalizeStale now w requests) w role := by
  intro user huser
  obtain ⟨r, hlatest, hstanding⟩ := h user huser
  refine ⟨r, ?_, hstanding⟩
  obtain ⟨-, hsubject⟩ := latest_mem hlatest
  have hrole : r.roleCode = role := congrArg (fun p => p.2.1) hsubject
  have htarget : r.targetUserId = user := congrArg (fun p => p.2.2) hsubject
  have hfits : finalizeRow now w r = r := by
    unfold finalizeRow
    split
    · apply finalizeRequest_of_fits hopen
      intro _
      rw [hrole, htarget, huser]
    · rfl
  unfold finalizeStale
  rw [latest_update (subject_finalizeRow now w), hlatest, Option.map_some, hfits]

lemma followedUp_finalizeStale {now : Nat} {w : Workflow} {requests : Requests}
    {todo : RoleCode → Prop} (hone : OnePending requests)
    (hconfirmed : w.status.terminal = false → ∀ role, ¬todo role → RoleConfirmed requests w role) :
    FollowedUp w todo requests (finalizeStale now w requests) := by
  refine ⟨hone.update (fun r h => (finalizeRow_pending h).1), ?_, ?_, ?_⟩
  · intro r hr hpending hid
    obtain ⟨q, hq, rfl⟩ := List.mem_map.mp hr
    obtain ⟨heq, hfits⟩ := finalizeRow_pending hpending
    rw [heq] at hid ⊢
    exact hfits hid
  · intro hopen role htodo
    exact roleConfirmed_finalizeStale hopen (hconfirmed hopen role htodo)
  · apply sameOthers_update (subject_finalizeRow now w)
    · intro r _ hid
      exact if_neg hid
    · rfl

/-- Cancelling the pending request of a role leaves the other roles alone. -/
lemma FollowedUp.cancel {w : Workflow} {todo : RoleCode → Prop} {before requests : Requests}
    (h : FollowedUp w todo before requests) (now : Nat) (role : RoleCode) (reason : String) :
    FollowedUp w (fun other => todo other ∨ other = role) before
      (cancelPendingAssignmentRequests now w.id role reason requests) := by
  refine ⟨h.one_pending.update (fun r hp => (cancelRow_pending hp).1), ?_, ?_, ?_⟩
  · intro r hr hpending hid
    obtain ⟨q, hq, rfl⟩ := List.mem_map.mp hr
    have heq := (cancelRow_pending hpending).1
    rw [heq] at hpending hid ⊢
    exact h.current q hq hpending hid
  · intro hopen other hother user huser
    obtain ⟨r, hlatest, hstanding⟩ := h.confirmed hopen other (fun ht => hother (.inl ht)) user huser
    refine ⟨r, ?_, hstanding⟩
    obtain ⟨-, hsubject⟩ := latest_mem hlatest
    have hrole : r.roleCode ≠ role := by
      intro heq
      have hr : r.roleCode = other := congrArg (fun p => p.2.1) hsubject
      exact hother (.inr (hr ▸ heq))
    have hsame : cancelRow now w.id role reason r = r := if_neg (fun hboth => hrole hboth.2)
    unfold cancelPendingAssignmentRequests
    rw [latest_update (subject_cancelRow now w.id role reason), hlatest, Option.map_some, hsame]
  · apply sameOthers_update (subject_cancelRow now w.id role reason)
    · intro r _ hid
      exact if_neg (fun hboth => hid hboth.1)
    · exact h.others

lemma not_pending_of_cancel {now workflowId : Nat} {role : RoleCode} {reason : String}
    {requests : Requests} {r : AssignmentRequest}
    (hr : r ∈ (cancelPendingAssignmentRequests now workflowId role reason requests).rows)
    (hid : r.workflowId = workflowId) (hrole : r.roleCode = role) : r.status ≠ .pending := by
  intro hpending
  obtain ⟨q, hq, rfl⟩ := List.mem_map.mp hr
  obtain ⟨heq, hnot⟩ := cancelRow_pending hpending
  rw [heq] at hid hrole
  exact hnot ⟨hid, hrole⟩

/-- A request to the new holder of a role. -/
lemma FollowedUp.insert {w : Workflow} {todo : RoleCode → Prop} {before requests : Requests}
    {role : RoleCode} (h : FollowedUp w (fun other => todo other ∨ other = role) before requests)
    (hnone : ∀ r ∈ requests.rows, r.workflowId = w.id → r.roleCode = role → r.status ≠ .pending)
    {make : Nat → AssignmentRequest} {hm : ∀ k, (make k).id = k} {target : Nat}
    (hfield : w.field role = some target) (hsubject : ∀ k, (make k).subject = (w.id, role, target))
    (hstanding : w.status.terminal = false → ∀ k, (make k).Standing)
    (hclosed : ∀ k, (make k).status = .pending → w.status.terminal = false) :
    FollowedUp w (fun other => todo other ∧ other ≠ role) before (requests.insert make hm) := by
  have hid : ∀ k, (make k).workflowId = w.id := fun k => congrArg Prod.fst (hsubject k)
  have hrole : ∀ k, (make k).roleCode = role := fun k => congrArg (fun p => p.2.1) (hsubject k)
  have htarget : ∀ k, (make k).targetUserId = target :=
    fun k => congrArg (fun p => p.2.2) (hsubject k)
  refine ⟨?_, ?_, ?_, sameOthers_insert (hid _) h.others⟩
  · intro r hr q hq hrp hqp hidrq hrolerq
    rcases List.mem_append.mp hr with hr | hr
    · rcases List.mem_append.mp hq with hq | hq
      · exact h.one_pending r hr q hq hrp hqp hidrq hrolerq
      · obtain rfl := List.mem_singleton.mp hq
        exact absurd hrp (hnone r hr (hidrq.trans (hid _)) (hrolerq.trans (hrole _)))
    · obtain rfl := List.mem_singleton.mp hr
      rcases List.mem_append.mp hq with hq | hq
      · exact absurd hqp (hnone q hq (hidrq.symm.trans (hid _)) (hrolerq.symm.trans (hrole _)))
      · exact (List.mem_singleton.mp hq).symm
  · intro r hr hpending hrid
    rcases List.mem_append.mp hr with hr | hr
    · exact h.current r hr hpending hrid
    · obtain rfl := List.mem_singleton.mp hr
      exact ⟨hclosed _ hpending, by rw [hrole, htarget, hfield]⟩
  · intro hopen other hother user huser
    rw [latest_insert, hsubject]
    by_cases hsame : other = role
    · subst hsame
      have huser' : user = target := Option.some.inj (huser.symm.trans hfield)
      rw [huser', if_pos rfl]
      exact ⟨_, rfl, hstanding hopen _⟩
    · have hne : (w.id, role, target) ≠ (w.id, other, user) := by
        intro heq
        exact hsame (congrArg (fun p => p.2.1) heq).symm
      rw [if_neg hne]
      refine h.confirmed hopen other ?_ user huser
      rintro (htodo | heq)
      · exact hother ⟨htodo, hsame⟩
      · exact hsame heq

/-- Following up one role. -/
lemma FollowedUp.request {w : Workflow} {todo : RoleCode → Prop} {before requests : Requests}
    (h : FollowedUp w todo before requests) (now : Nat) (role : RoleCode) (requestedBy : Option Nat)
    (source : Option String) (previous : Option Nat) :
    FollowedUp w (fun other => todo other ∧ other ≠ role) before
      (requestAssignmentConfirmation now w role (w.field role) requestedBy source previous
        requests) := by
  have hcancel := h.cancel now role "reassigned"
  unfold requestAssignmentConfirmation
  cases hfield : w.field role with
  | none =>
    refine ⟨hcancel.one_pending, hcancel.current, ?_, hcancel.others⟩
    intro hopen other hother user huser
    have hne : other ≠ role := by
      rintro rfl
      rw [hfield] at huser
      cases huser
    refine hcancel.confirmed hopen other ?_ user huser
    rintro (htodo | heq)
    · exact hother ⟨htodo, hne⟩
    · exact hne heq
  | some target =>
    apply hcancel.insert (fun r hr hid hrole => not_pending_of_cancel hr hid hrole) hfield
    · exact fun k => subject_finalizeRequest now w _
    · intro hopen k
      obtain ⟨heq, hstanding⟩ := newRequest_standing hopen hfield
      rw [heq]
      exact hstanding
    · intro k hpending
      exact (finalizeRequest_pending hpending).2.1

lemma FollowedUp.mono {w : Workflow} {todo todo' : RoleCode → Prop} {before requests : Requests}
    (h : FollowedUp w todo before requests) (hle : ∀ role, todo role → todo' role) :
    FollowedUp w todo' before requests :=
  ⟨h.one_pending, h.current,
    fun hopen role hnot => h.confirmed hopen role (fun ht => hnot (hle role ht)), h.others⟩

lemma FollowedUp.syncRole {w old : Workflow} {todo : RoleCode → Prop} {before requests : Requests}
    (h : FollowedUp w todo before requests)
    (htodo : ∀ role, todo role → old.field role ≠ w.field role) (now : Nat)
    (requestedBy : Option Nat) (source : Option String) (role : RoleCode) :
    FollowedUp w (fun other => todo other ∧ other ≠ role) before
      (syncRole now w old requestedBy source requests role) := by
  unfold Assignments.syncRole
  split
  · next hsame =>
    apply h.mono
    intro other hother
    refine ⟨hother, ?_⟩
    rintro rfl
    exact htodo other hother hsame
  · exact h.request now role requestedBy source (old.field role)

/-- Following up all roles leaves none to do. -/
lemma FollowedUp.sync {w old : Workflow} {before requests : Requests}
    (h : FollowedUp w (fun role => old.field role ≠ w.field role) before requests) (now : Nat)
    (requestedBy : Option Nat) (source : Option String) :
    FollowedUp w (fun _ => False) before
      (syncAssignmentRequestsForChangedRoles now w old requestedBy source requests) := by
  have hhandler := h.syncRole (fun _ ht => ht) now requestedBy source .handler
  have hattorney := hhandler.syncRole (fun _ ht => ht.1) now requestedBy source .attorney
  have hmanager := hattorney.syncRole (fun _ ht => ht.1.1) now requestedBy source .manager
  apply hmanager.mono
  rintro role ⟨⟨⟨-, hne₁⟩, hne₂⟩, hne₃⟩
  cases role with
  | handler => exact hne₁ rfl
  | attorney => exact hne₂ rfl
  | manager => exact hne₃ rfl

/-- A workflow whose requests were followed up, among the others. -/
lemma confirmed_of_followedUp {s : AssignmentState} (h : Confirmed s) {w : Workflow}
    {workflows : Table Workflow.id} {requests : Requests}
    (hfollowed : FollowedUp w (fun _ => False) s.requests requests)
    (hfind : workflows.find w.id = some w)
    (hothers : ∀ id, id ≠ w.id → workflows.find id = s.workflows.find id) :
    Confirmed ⟨workflows, requests⟩ := by
  refine ⟨hfollowed.one_pending, ?_, ?_⟩
  · intro r hr hpending
    by_cases hid : r.workflowId = w.id
    · exact ⟨w, by rw [hid, hfind], hfollowed.current r hr hpending hid⟩
    · obtain ⟨v, hv, hopen, hfield⟩ := h.pending_current r
        ((mem_iff_of_sameOthers hfollowed.others hid).mp hr) hpending
      exact ⟨v, (hothers _ hid).trans hv, hopen, hfield⟩
  · intro v hv hopen role
    by_cases hid : v.id = w.id
    · have hvw : v = w := by
        have hfound := Table.find_of_mem hv
        rw [hid, hfind] at hfound
        exact (Option.some.inj hfound).symm
      subst hvw
      exact hfollowed.confirmed hopen role not_false
    · have hold : v ∈ s.workflows.rows := by
        have hfound := Table.find_of_mem hv
        rw [hothers _ hid] at hfound
        exact Table.mem_of_find hfound
      intro user huser
      obtain ⟨r, hlatest, hstanding⟩ := h.confirmed v hold hopen role user huser
      have hsame : requests.latest (v.id, role, user) = s.requests.latest (v.id, role, user) :=
        latest_of_sameOthers hfollowed.others hid
      exact ⟨r, hsame.trans hlatest, hstanding⟩

lemma subject_answerRow (now requestId : Nat) (status : RequestStatus) (reason : Option String)
    (r : AssignmentRequest) : (answerRow now requestId status reason r).subject = r.subject := by
  unfold answerRow
  split
  · rfl
  · rfl

lemma answerRow_of_ne {now requestId : Nat} {status : RequestStatus} {reason : Option String}
    {r : AssignmentRequest} (h : r.id ≠ requestId) : answerRow now requestId status reason r = r :=
  if_neg h

lemma answerRow_pending {now requestId : Nat} {status : RequestStatus} {reason : Option String}
    {r : AssignmentRequest} (hstatus : status ≠ .pending)
    (h : (answerRow now requestId status reason r).status = .pending) :
    answerRow now requestId status reason r = r := by
  unfold answerRow at h ⊢
  split at h
  · exact absurd h hstatus
  · next hid => exact if_neg hid

section Answer

variable {s : AssignmentState} {r : AssignmentRequest} {now : Nat} {status : RequestStatus}
  {reason : Option String}

lemma sameOthers_answer (hr : r ∈ s.requests.rows) :
    SameOthers r.workflowId s.requests (s.requests.answer now r.id status reason) := by
  apply sameOthers_update (subject_answerRow now r.id status reason)
  · intro q hq hid
    apply answerRow_of_ne
    intro heq
    exact hid (congrArg AssignmentRequest.workflowId (Table.eq_of_key_eq hq hr heq))
  · rfl

lemma latest_answer_of_ne {subject : Nat × RoleCode × Nat} {q : AssignmentRequest}
    (hlatest : s.requests.latest subject = some q) (hid : q.id ≠ r.id) :
    (s.requests.answer now r.id status reason).latest subject = some q := by
  unfold Requests.answer
  rw [latest_update (subject_answerRow now r.id status reason), hlatest, Option.map_some,
    answerRow_of_ne hid]

/-- An accepted request stands. -/
lemma confirmed_accept (h : Confirmed s) (hr : r ∈ s.requests.rows) (hpending : r.status = .pending) :
    Confirmed { s with requests := s.requests.answer now r.id .accepted reason } := by
  obtain ⟨w, hfind, hopen, hfield⟩ := h.pending_current r hr hpending
  have hwid : w.id = r.workflowId := Table.key_of_find hfind
  refine confirmed_of_followedUp h (?_ : FollowedUp w _ _ _) (hwid ▸ hfind) (fun _ _ => rfl)
  refine ⟨?_, ?_, ?_, ?_⟩
  · exact h.one_pending.update (fun q hq => answerRow_pending (by decide) hq)
  · intro q hq hqp hqid
    obtain ⟨p, hp, rfl⟩ := List.mem_map.mp hq
    have heq := answerRow_pending (by decide) hqp
    rw [heq] at hqp hqid ⊢
    obtain ⟨v, hv, hvopen, hvfield⟩ := h.pending_current p hp hqp
    rw [hqid, hwid, hfind] at hv
    cases hv
    exact ⟨hvopen, hvfield⟩
  · intro _ role _ user huser
    obtain ⟨q, hlatest, hstanding⟩ := h.confirmed w (Table.mem_of_find hfind) hopen role user huser
    by_cases hid : q.id = r.id
    · refine ⟨answerRow now r.id .accepted reason q, ?_, ?_⟩
      · unfold Requests.answer
        rw [latest_update (subject_answerRow now r.id .accepted reason), hlatest, Option.map_some]
      · left
        rw [answerRow, if_pos hid]
    · exact ⟨q, latest_answer_of_ne hlatest hid, hstanding⟩
  · exact hwid ▸ sameOthers_answer hr

lemma field_setField_self (w : Workflow) (user : Option Nat) (role : RoleCode) :
    (w.setField user role).field role = user := by
  cases role with
  | handler => rfl
  | attorney => rfl
  | manager => rfl

lemma field_setField_of_ne (w : Workflow) (user : Option Nat) {role other : RoleCode}
    (h : other ≠ role) : (w.setField user role).field other = w.field other := by
  cases role <;> cases other <;> first | rfl | exact absurd rfl h

/-- A rejection keeps the requests in step if the previous user has accepted the role. -/
lemma confirmed_reject (h : Confirmed s) (hr : r ∈ s.requests.rows) (hpending : r.status = .pending)
    (hheard : ∀ user, r.previousUserId = some user →
      ∃ q, s.requests.latest (r.workflowId, r.roleCode, user) = some q ∧ q.status = .accepted) :
    Confirmed (rejectRequest s now reason r) := by
  obtain ⟨w, hfind, hopen, hfield⟩ := h.pending_current r hr hpending
  have hwid : w.id = r.workflowId := Table.key_of_find hfind
  unfold rejectRequest
  dsimp only
  rw [hfind]
  dsimp only
  rw [if_pos hfield]
  have hid' : (w.setField r.previousUserId r.roleCode).id = w.id := id_setField w _ _
  have hone : OnePending (s.requests.answer now r.id .rejected reason) :=
    h.one_pending.update (fun q hq => answerRow_pending (by decide) hq)
  have hroles : ∀ role, RoleConfirmed (s.requests.answer now r.id .rejected reason)
      (w.setField r.previousUserId r.roleCode) role := by
    intro role user huser
    rw [hid']
    by_cases hrole : role = r.roleCode
    · subst hrole
      rw [field_setField_self] at huser
      obtain ⟨q, hlatest, haccepted⟩ := hheard user huser
      have hne : q.id ≠ r.id := by
        intro heq
        have hqr := Table.eq_of_key_eq (latest_mem hlatest).1 hr heq
        rw [hqr, hpending] at haccepted
        cases haccepted
      exact ⟨q, latest_answer_of_ne (hwid ▸ hlatest) hne, .inl haccepted⟩
    · rw [field_setField_of_ne w _ hrole] at huser
      obtain ⟨q, hlatest, hstanding⟩ := h.confirmed w (Table.mem_of_find hfind) hopen role user huser
      have hne : q.id ≠ r.id := by
        intro heq
        have hqr := Table.eq_of_key_eq (latest_mem hlatest).1 hr heq
        have hqrole : q.roleCode = role := congrArg (fun p => p.2.1) (latest_mem hlatest).2
        exact hrole (by rw [← hqrole, hqr])
      exact ⟨q, latest_answer_of_ne hlatest hne, hstanding⟩
  have hfollowed : FollowedUp (w.setField r.previousUserId r.roleCode) (fun _ => False)
      (s.requests.answer now r.id .rejected reason)
      (finalizeStale now (w.setField r.previousUserId r.roleCode)
        (s.requests.answer now r.id .rejected reason)) :=
    followedUp_finalizeStale hone (fun _ role _ => hroles role)
  have hothers : SameOthers (w.setField r.previousUserId r.roleCode).id s.requests
      (finalizeStale now (w.setField r.previousUserId r.roleCode)
        (s.requests.answer now r.id .rejected reason)) := by
    have hanswer : SameOthers w.id s.requests (s.requests.answer now r.id .rejected reason) :=
      hwid ▸ sameOthers_answer hr
    have hstale := hfollowed.others
    rw [hid'] at hstale ⊢
    exact hstale.trans hanswer
  refine confirmed_of_followedUp h ⟨hfollowed.one_pending, hfollowed.current,
    hfollowed.confirmed, hothers⟩ ?_ ?_
  · rw [hid', Table.find_update, hwid, hfind, Option.map_some, putBackRow, if_pos hwid]
  · intro id hid
    rw [hid'] at hid
    rw [Table.find_update]
    cases hother : s.workflows.find id with
    | none => rfl
    | some v =>
      have hv : v.id ≠ r.workflowId := by
        rw [Table.key_of_find hother, ← hwid]
        exact hid
      rw [Option.map_some, putBackRow, if_neg hv]

end Answer

/-- `RoleConfirmed` as a test. -/
def roleConfirmed (requests : Requests) (w : Workflow) (role : RoleCode) : Bool :=
  (w.field role).all (fun user =>
    (requests.latest (w.id, role, user)).any (fun r => decide r.Standing))

lemma roleConfirmed_iff {requests : Requests} {w : Workflow} {role : RoleCode} :
    roleConfirmed requests w role = true ↔ RoleConfirmed requests w role := by
  unfold roleConfirmed RoleConfirmed
  simp only [Option.all_eq_true, Option.any_eq_true, decide_eq_true_eq]

/-- A rejection gives the role back to a user who has accepted it, and a workflow is reopened
only with assignees who have. -/
def handsBackHeard (s : AssignmentState) : AssignmentAction → Bool
  | .create _ _ _ _ => true
  | .edit _ workflowId new _ _ =>
    (s.workflows.find workflowId).all (fun w =>
      !w.status.terminal || new.status.terminal ||
        [RoleCode.handler, .attorney, .manager].all (fun role =>
          w.field role ≠ (new.at workflowId).field role || roleConfirmed s.requests w role))
  | .respond _ requestId _ action _ _ =>
    (s.requests.find requestId).all (fun r =>
      action ≠ .reject || r.status ≠ .pending || r.previousUserId.all (fun user =>
        (s.requests.latest (r.workflowId, r.roleCode, user)).any (fun q => q.status = .accepted)))

variable {mayAssign : Nat → Nat → Bool} {s s' : AssignmentState}

lemma confirmed_create (h : Confirmed s) (now : Nat) (new : Assignees) (requestedBy : Option Nat)
    (source : Option String) (hstep : assignmentStep mayAssign s
      (.create now new requestedBy source) = some s') : Confirmed s' := by
  cases hstep
  have hstart : FollowedUp (new.at s.workflows.next)
      (fun role => (⟨s.workflows.next, new.status, none, none, none⟩ : Workflow).field role ≠
        (new.at s.workflows.next).field role)
      s.requests (finalizeStale now (new.at s.workflows.next) s.requests) := by
    apply followedUp_finalizeStale h.one_pending
    intro _ role hsame user huser
    -- a role that is the same as nobody's has no holder
    have hnone : (⟨s.workflows.next, new.status, none, none, none⟩ : Workflow).field role = none := by
      cases role with
      | handler => rfl
      | attorney => rfl
      | manager => rfl
    rw [not_not, hnone, huser] at hsame
    cases hsame
  apply confirmed_of_followedUp h (hstart.sync now requestedBy source)
  · exact Table.find_insert_next (fun _ => rfl)
  · exact fun id hid => Table.find_insert_of_ne (fun _ => rfl) hid

lemma confirmed_edit (h : Confirmed s) {now workflowId : Nat} {new : Assignees}
    {requestedBy : Option Nat} {source : Option String}
    (hheard : handsBackHeard s (.edit now workflowId new requestedBy source) = true)
    (hstep : assignmentStep mayAssign s (.edit now workflowId new requestedBy source) = some s') :
    Confirmed s' := by
  simp only [assignmentStep] at hstep
  split at hstep
  · cases hstep
  · next w hfind =>
    cases hstep
    have hwid : w.id = workflowId := Table.key_of_find hfind
    have hstart : FollowedUp (new.at workflowId)
        (fun role => w.field role ≠ (new.at workflowId).field role)
        s.requests (finalizeStale now (new.at workflowId) s.requests) := by
      apply followedUp_finalizeStale h.one_pending
      intro hopen role hsame
      rw [not_not] at hsame
      have hold : RoleConfirmed s.requests w role := by
        cases hterminal : w.status.terminal with
        | false => exact h.confirmed w (Table.mem_of_find hfind) hterminal role
        | true =>
          change new.status.terminal = false at hopen
          simp only [handsBackHeard, hfind, Option.all_some, hterminal, hopen, Bool.not_true,
            Bool.false_or] at hheard
          have hrole := List.all_eq_true.mp hheard role (by cases role <;> simp)
          simp only [hsame, ne_eq, not_true_eq_false, decide_false, Bool.false_or] at hrole
          exact roleConfirmed_iff.mp hrole
      intro user huser
      have hlatest := hold user (hsame.trans huser)
      rw [hwid] at hlatest
      exact hlatest
    have hinto := hstart.sync now requestedBy source
    apply confirmed_of_followedUp h hinto
    · have hedit : editRow workflowId new w = new.at workflowId := by
        rw [editRow, if_pos hwid, hwid]
      change (s.workflows.update _ _).find workflowId = _
      rw [Table.find_update, hfind, Option.map_some, hedit]
    · intro id hid
      rw [Table.find_update]
      cases hother : s.workflows.find id with
      | none => rfl
      | some v =>
        have hv : v.id ≠ workflowId := by
          rw [Table.key_of_find hother]
          exact hid
        rw [Option.map_some, editRow, if_neg hv]

lemma confirmed_respond (h : Confirmed s) {now requestId : Nat} {actor : Option Nat}
    {action : ResponseAction} {reason : Option String} {allowPrivileged : Bool}
    (hheard : handsBackHeard s (.respond now requestId actor action reason allowPrivileged) = true)
    (hstep : assignmentStep mayAssign s
      (.respond now requestId actor action reason allowPrivileged) = some s') : Confirmed s' := by
  simp only [assignmentStep, respondAssignmentRequest] at hstep
  cases hfind : s.requests.find requestId with
  | none =>
    rw [hfind] at hstep
    cases hstep
  | some r =>
    rw [hfind] at hstep
    dsimp only at hstep
    have hr := Table.mem_of_find hfind
    split at hstep
    · split at hstep
      · cases hstep
        exact h
      · next hpending =>
        have hpending : r.status = .pending := not_not.mp hpending
        cases action with
        | accept =>
          cases hstep
          exact confirmed_accept h hr hpending
        | other text => cases hstep
        | reject =>
          cases hstep
          apply confirmed_reject h hr hpending
          intro user huser
          simp only [handsBackHeard, hfind, Option.all_some, hpending, huser] at hheard
          obtain ⟨q, hlatest, hstatus⟩ := (Option.any_eq_true _ _).mp (by simpa using hheard)
          exact ⟨q, hlatest, by simpa using hstatus⟩
    · cases hstep

/-- In every run of transactions in which no rejection gives a role back to somebody who has
not accepted it, the requests and the assignees are in step. -/
theorem assignments_confirmed {as : List AssignmentAction}
    (h : GuardedRun (assignmentStep mayAssign) (fun s a => handsBackHeard s a = true)
      .initial as s) : Confirmed s := by
  apply h.invariant
  · refine ⟨?_, ?_, ?_⟩
    · intro r hr
      cases hr
    · intro r hr
      cases hr
    · intro w hw
      cases hw
  · intro s a s' hs hheard hstep
    cases a with
    | create now new requestedBy source => exact confirmed_create hs now new requestedBy source hstep
    | edit now workflowId new requestedBy source => exact confirmed_edit hs hheard hstep
    | respond now requestId actor action reason allowPrivileged =>
      exact confirmed_respond hs hheard hstep

/-- An open workflow whose handler is the given user. -/
def handledBy (user : Nat) : Assignees := ⟨.pending, some user, none, none⟩

/-- User 9 gives the role to user 1, who accepts, and then to user 2, who rejects it. -/
theorem assignments_confirmed_afterReject :
    ∃ s, GuardedRun (assignmentStep (fun _ _ => false)) (fun s a => handsBackHeard s a = true)
        .initial
        [.create 1 (handledBy 1) (some 9) none, .respond 2 1 (some 1) .accept none false,
          .edit 3 1 (handledBy 2) (some 9) none, .respond 4 2 (some 2) .reject none false] s ∧
      s.workflows.rows.map Workflow.assigneeId = [some 1] ∧ Confirmed s := by
  obtain ⟨s, hrun, hend⟩ := exists_guardedRun_of_any (assignmentStep (fun _ _ => false))
    (fun s a => handsBackHeard s a = true) .initial
    [.create 1 (handledBy 1) (some 9) none, .respond 2 1 (some 1) .accept none false,
      .edit 3 1 (handledBy 2) (some 9) none, .respond 4 2 (some 2) .reject none false]
    (fun s => decide (s.workflows.rows.map Workflow.assigneeId = [some 1])) (by decide +kernel)
  exact ⟨s, hrun, of_decide_eq_true hend, assignments_confirmed hrun⟩

/-- User 9 gives the role to user 1, then to user 2 and, before user 2 has answered, to user 3,
who rejects it. User 2 has the role again, and the only request to user 2 is cancelled. -/
theorem rejected_to_unheard :
    ∃ s, Run (assignmentStep (fun _ _ => false)) .initial
        [.create 1 (handledBy 1) (some 9) none, .respond 2 1 (some 1) .accept none false,
          .edit 3 1 (handledBy 2) (some 9) none, .edit 4 1 (handledBy 3) (some 9) none,
          .respond 5 3 (some 3) .reject none false] s ∧
      (s.workflows.rows.map (fun w => (w.status, w.assigneeId)) = [(.pending, some 2)] ∧
        (s.requests.rows.filter (fun r => r.targetUserId = 2)).map
          (fun r => (r.requestedById, r.status)) = [(some 9, .cancelled)]) ∧
      ¬Confirmed s := by
  obtain ⟨s, hrun, hend⟩ := exists_guardedRun_of_any (assignmentStep (fun _ _ => false))
    (fun _ _ => True) .initial
    [.create 1 (handledBy 1) (some 9) none, .respond 2 1 (some 1) .accept none false,
      .edit 3 1 (handledBy 2) (some 9) none, .edit 4 1 (handledBy 3) (some 9) none,
      .respond 5 3 (some 3) .reject none false]
    (fun s => decide ((s.workflows.rows.map (fun w => (w.status, w.assigneeId)) =
        [(.pending, some 2)] ∧ (s.requests.rows.filter (fun r => r.targetUserId = 2)).map
          (fun r => (r.requestedById, r.status)) = [(some 9, .cancelled)]) ∧
      s.workflows.rows.any (fun w => !w.status.terminal && !roleConfirmed s.requests w .handler)))
    (by decide +kernel)
  obtain ⟨hshown, hbroken⟩ := of_decide_eq_true hend
  refine ⟨s, hrun, hshown, fun hconfirmed => ?_⟩
  obtain ⟨w, hw, hopen⟩ := List.any_eq_true.mp hbroken
  simp only [Bool.and_eq_true, Bool.not_eq_true'] at hopen
  have hrole := roleConfirmed_iff.mpr (hconfirmed.confirmed w hw hopen.1 .handler)
  rw [hopen.2] at hrole
  cases hrole

end IpDocket.Workflows.Assignments
