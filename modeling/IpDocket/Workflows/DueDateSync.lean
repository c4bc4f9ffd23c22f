import IpDocket.Lib.Calendar
import IpDocket.Lib.Run

/-!
# Due dates of a workflow and its docket

A workflow takes its due dates from its docket and can be edited afterwards. The docket dates of
the last run are kept in `source_docket_due_date` and `source_docket_legal_due_date`, so that a
change of the docket can be told from an edit. `NULL` in both columns stands for a docket without
dates as well as for no run at all; what a run does is characterized here over all histories.
-/

namespace IpDocket.Workflows
open IpDocket.Lib

/-- The due date and the legal due date. -/
abbrev DueDates := Option PyDate × Option PyDate

def noDates : DueDates := (none, none)

/-- The columns of a workflow that the synchronization reads and writes. -/
structure Workflow where
  id : Option ℤ
  dueDate : Option PyDate
  legalDueDate : Option PyDate
  sourceDocketDueDate : Option PyDate
  sourceDocketLegalDueDate : Option PyDate
  deriving DecidableEq

def Workflow.dates (w : Workflow) : DueDates := (w.dueDate, w.legalDueDate)

def Workflow.source (w : Workflow) : DueDates := (w.sourceDocketDueDate, w.sourceDocketLegalDueDate)

/-- `should_apply_due_dates`. -/
def shouldApplyDueDates (w : Workflow) (dueDate legalDueDate : Option PyDate) : Bool :=
  let hasSourceSnapshot := w.sourceDocketDueDate.isSome || w.sourceDocketLegalDueDate.isSome
  if w.id.isNone && !hasSourceSnapshot then true
  else if hasSourceSnapshot then
    w.sourceDocketDueDate ≠ dueDate || w.sourceDocketLegalDueDate ≠ legalDueDate
  else if dueDate.isNone && legalDueDate.isNone then true
  else w.dueDate.isNone && w.legalDueDate.isNone

/-- An assignment and whether it changes the column. -/
def assignDate (changed : Bool) (current value : Option PyDate) : Option PyDate × Bool :=
  if current ≠ value then (value, true) else (current, changed)

def syncWorkflowDueDatesFromDocketSource (w : Workflow) (dueDate legalDueDate : Option PyDate) :
    Workflow × Bool :=
  let applied : Workflow × Bool :=
    if shouldApplyDueDates w dueDate legalDueDate then
      let (due, changed) := assignDate false w.dueDate dueDate
      let (legal, changed) := assignDate changed w.legalDueDate legalDueDate
      ({ w with dueDate := due, legalDueDate := legal }, changed)
    else (w, false)
  let (source, changed) := assignDate applied.2 w.sourceDocketDueDate dueDate
  let (sourceLegal, changed) := assignDate changed w.sourceDocketLegalDueDate legalDueDate
  ({ applied.1 with
    sourceDocketDueDate := source
    sourceDocketLegalDueDate := sourceLegal }, changed)

section OneRun

variable (w : Workflow) (d : DueDates)

/-- A run with the derived dates of the docket. -/
abbrev Workflow.sync : Workflow × Bool := syncWorkflowDueDatesFromDocketSource w d.1 d.2

lemma assignDate_fst (changed : Bool) (current value : Option PyDate) :
    (assignDate changed current value).1 = value := by
  unfold assignDate
  split
  · rfl
  · next h => exact not_not.mp h

lemma assignDate_self (changed : Bool) (current : Option PyDate) :
    assignDate changed current current = (current, changed) := by
  unfold assignDate
  rw [if_neg (not_not_intro rfl)]

/-- A run keeps the docket dates. -/
@[simp] lemma sync_source : (w.sync d).1.source = d := by
  unfold Workflow.sync syncWorkflowDueDatesFromDocketSource Workflow.source
  dsimp only
  rw [assignDate_fst, assignDate_fst]

lemma sync_dates : (w.sync d).1.dates =
    if shouldApplyDueDates w d.1 d.2 then d else w.dates := by
  unfold Workflow.sync syncWorkflowDueDatesFromDocketSource Workflow.dates
  dsimp only
  split
  · rw [assignDate_fst, assignDate_fst]
  · rfl

/-- A run that finds its own dates changes nothing. -/
lemma sync_of_source_eq (hsource : w.source = d)
    (happly : shouldApplyDueDates w d.1 d.2 = true → w.dates = d) : w.sync d = (w, false) := by
  obtain ⟨id, due, legal, source, sourceLegal⟩ := w
  obtain ⟨due', legal'⟩ := d
  cases hsource
  unfold Workflow.sync syncWorkflowDueDatesFromDocketSource
  dsimp only
  split
  · next h =>
    cases happly h
    rw [assignDate_self, assignDate_self, assignDate_self, assignDate_self]
  · rw [assignDate_self, assignDate_self]

/-- With a snapshot a run applies the dates if they differ from it. -/
lemma shouldApply_of_snapshot (h : w.source ≠ noDates) :
    shouldApplyDueDates w d.1 d.2 = true ↔ w.source ≠ d := by
  obtain ⟨id, due, legal, source, sourceLegal⟩ := w
  obtain ⟨due', legal'⟩ := d
  have hsnapshot : (source.isSome || sourceLegal.isSome) = true := by
    cases source with
    | some _ => rfl
    | none =>
      cases sourceLegal with
      | some _ => rfl
      | none => exact absurd rfl h
  unfold shouldApplyDueDates Workflow.source
  dsimp only
  rw [hsnapshot]
  simp only [Bool.not_true, Bool.and_false, Bool.false_eq_true, if_false, if_true, Bool.or_eq_true,
    decide_eq_true_eq, ne_eq, Prod.mk.injEq, not_and_or]

/-- Without a snapshot it applies them to a new workflow, or if the docket or the workflow has no
dates. -/
lemma shouldApply_of_noSnapshot (h : w.source = noDates) :
    shouldApplyDueDates w d.1 d.2 = true ↔ w.id = none ∨ d = noDates ∨ w.dates = noDates := by
  obtain ⟨id, due, legal, source, sourceLegal⟩ := w
  obtain ⟨due', legal'⟩ := d
  cases h
  unfold shouldApplyDueDates Workflow.dates noDates
  cases id <;> cases due' <;> cases legal' <;> cases due <;> cases legal <;> simp

/-- A second run changes nothing. -/
lemma sync_settled : (w.sync d).1.sync d = ((w.sync d).1, false) := by
  apply sync_of_source_eq _ _ (sync_source _ _)
  intro happly
  rw [sync_dates]
  split
  · rfl
  next hkept =>
  -- only a run without docket dates is repeated, and the first one has applied them
  exfalso
  by_cases hd : d = noDates
  · apply hkept
    by_cases hsource : w.source = noDates
    · exact (shouldApply_of_noSnapshot _ _ hsource).mpr (.inr (.inl hd))
    · rw [shouldApply_of_snapshot _ _ hsource, hd]
      exact hsource
  · have hsource : (w.sync d).1.source ≠ noDates := by
      rw [sync_source]
      exact hd
    rw [shouldApply_of_snapshot _ _ hsource, sync_source] at happly
    exact happly rfl

end OneRun

/-- `docket` are the dates that the docket gives now, `previous` those of the last run. -/
structure SyncState where
  workflow : Workflow
  docket : DueDates
  previous : Option DueDates

inductive SyncAction
  | docketChanges (d : DueDates)
  | userEdits (d : DueDates)
  | sync
  | insert (id : ℤ)

/-- The workflow gets its id after its first run. -/
def syncStep (s : SyncState) : SyncAction → Option SyncState
  | .docketChanges d => some { s with docket := d }
  | .userEdits d => some { s with workflow := { s.workflow with dueDate := d.1, legalDueDate := d.2 } }
  | .sync => some { s with workflow := (s.workflow.sync s.docket).1, previous := some s.docket }
  | .insert id =>
    if s.previous.isSome then some { s with workflow := { s.workflow with id := some id } } else none

/-- A workflow that is new. -/
def SyncState.start (dates docket : DueDates) : SyncState :=
  ⟨⟨none, dates.1, dates.2, none, none⟩, docket, none⟩

/-- A run now keeps the dates of the workflow if those of the docket are the same as at the last
run, makes them equal if they differ, and leaves nothing to do for a second run. -/
structure SyncFollows (s : SyncState) : Prop where
  kept : s.previous = some s.docket → (s.workflow.sync s.docket).1.dates = s.workflow.dates
  followed : ∀ p, s.previous = some p → p ≠ s.docket → (s.workflow.sync s.docket).1.dates = s.docket
  settled : (s.workflow.sync s.docket).1.sync s.docket = ((s.workflow.sync s.docket).1, false)

/-- After a run without docket dates, the workflow has no dates of its own, unless the docket has
dates now and the workflow is new or has them already. -/
def NothingMistaken (s : SyncState) : Prop :=
  s.previous = some noDates → s.workflow.dates = noDates ∨
    (s.docket ≠ noDates ∧ (s.workflow.id = none ∨ s.workflow.dates = s.docket))

/-- The snapshot is that of the last run. -/
structure SyncInv (s : SyncState) : Prop where
  source : s.workflow.source = s.previous.getD noDates
  new : s.previous = none → s.workflow.id = none

lemma syncInv_step (s : SyncState) (a : SyncAction) (s' : SyncState) (h : SyncInv s)
    (hstep : syncStep s a = some s') : SyncInv s' := by
  cases a with
  | docketChanges d =>
    cases hstep
    exact ⟨h.source, h.new⟩
  | userEdits d =>
    cases hstep
    exact ⟨h.source, h.new⟩
  | sync =>
    cases hstep
    exact ⟨sync_source _ _, nofun⟩
  | insert id =>
    unfold syncStep at hstep
    dsimp only at hstep
    split at hstep
    · next hprevious =>
      cases hstep
      refine ⟨h.source, ?_⟩
      intro hnone
      rw [hnone] at hprevious
      cases hprevious
    · cases hstep

/-- In every history a run does what it should exactly if no `NULL` is mistaken. -/
theorem sync_follows_iff (dates docket : DueDates) (as : List SyncAction) (s : SyncState)
    (hrun : Run syncStep (.start dates docket) as s) : SyncFollows s ↔ NothingMistaken s := by
  have hinv : SyncInv s := by
    apply hrun.invariant
    · exact ⟨rfl, fun _ => rfl⟩
    · intro t a u h _ hstep
      exact syncInv_step t a u h hstep
  cases hp : s.previous with
  | none =>
    constructor
    · intro _ hsome
      rw [hp] at hsome
      cases hsome
    · intro _
      refine ⟨?_, ?_, sync_settled _ _⟩
      · intro hsome
        rw [hp] at hsome
        cases hsome
      · intro p hsome
        rw [hp] at hsome
        cases hsome
  | some p =>
    have hsource : s.workflow.source = p := by
      rw [hinv.source, hp]
      rfl
    by_cases hnone : p = noDates
    · -- the last run has left no snapshot
      have happly := shouldApply_of_noSnapshot s.workflow s.docket (hsource.trans hnone)
      have hdates := sync_dates s.workflow s.docket
      constructor
      · intro h _
        by_cases hd : s.docket = noDates
        · left
          have hkept := h.kept (by rw [hp, hnone, hd])
          rw [hdates, if_pos (happly.mpr (.inr (.inl hd))), hd] at hkept
          exact hkept.symm
        · by_cases hempty : s.workflow.dates = noDates
          · exact .inl hempty
          · refine .inr ⟨hd, ?_⟩
            have hfollowed := h.followed p hp (by rw [hnone]; exact Ne.symm hd)
            rw [hdates] at hfollowed
            split at hfollowed
            · next happlied =>
              obtain hid | hd' | hempty' := happly.mp happlied
              · exact .inl hid
              · exact absurd hd' hd
              · exact absurd hempty' hempty
            · exact .inr hfollowed
      · intro h
        have hcases := h (by rw [hp, hnone])
        refine ⟨?_, ?_, sync_settled _ _⟩
        · intro hsame
          rw [hp, hnone, Option.some.injEq] at hsame
          obtain hempty | ⟨hd, _⟩ := hcases
          · rw [hdates, if_pos (happly.mpr (.inr (.inl hsame.symm))), ← hsame, hempty]
          · exact absurd hsame.symm hd
        · intro q hq hne
          rw [hp, Option.some.injEq] at hq
          rw [hdates]
          obtain hempty | ⟨_, hid | hsame⟩ := hcases
          · rw [if_pos (happly.mpr (.inr (.inr hempty)))]
          · rw [if_pos (happly.mpr (.inl hid))]
          · rw [hsame, ite_self]
    · -- the snapshot says what the docket dates were
      have hsnapshot : s.workflow.source ≠ noDates := by rwa [hsource]
      have happly := shouldApply_of_snapshot s.workflow s.docket hsnapshot
      have hdates := sync_dates s.workflow s.docket
      constructor
      · intro _ hsome
        rw [hp, Option.some.injEq] at hsome
        exact absurd hsome hnone
      · intro _
        refine ⟨?_, ?_, sync_settled _ _⟩
        · intro hsame
          rw [hp, Option.some.injEq] at hsame
          rw [hdates, if_neg]
          rw [happly, hsource]
          exact not_not_intro hsame
        · intro q hq hne
          rw [hp, Option.some.injEq] at hq
          rw [hdates, if_pos]
          rw [happly, hsource, hq]
          exact hne

def may (day : Nat) (h : 1 ≤ day ∧ day ≤ 31) : PyDate := ⟨2026, 5, day, by decide, by decide, h⟩

/-- The workflow is edited after its first run, and then the docket changes. -/
theorem sync_follows_change :
    ∃ s, Run syncStep (.start noDates (some (may 6 (by decide)), none))
      [.sync, .insert 1, .userEdits (some (may 1 (by decide)), none),
        .docketChanges (some (may 9 (by decide)), none)] s ∧ SyncFollows s := by
  obtain ⟨s, hrun, hs⟩ := exists_guardedRun_of_any syncStep (fun _ _ => True)
    (.start noDates (some (may 6 (by decide)), none))
    [.sync, .insert 1, .userEdits (some (may 1 (by decide)), none),
      .docketChanges (some (may 9 (by decide)), none)]
    (fun s => s.previous = some (some (may 6 (by decide)), none)) (by decide +kernel)
  refine ⟨s, hrun, (sync_follows_iff _ _ _ s hrun).mpr ?_⟩
  intro hprevious
  rw [of_decide_eq_true hs] at hprevious
  cases hprevious

/-- The docket has no dates. A run takes away the date that a user has set since the last one. -/
theorem sync_overwrites_edit :
    ∃ s, Run syncStep (.start noDates noDates)
      [.sync, .insert 1, .userEdits (some (may 1 (by decide)), none)] s ∧
      s.previous = some s.docket ∧ (s.workflow.sync s.docket).1.dates ≠ s.workflow.dates := by
  obtain ⟨s, hrun, hs⟩ := exists_guardedRun_of_any syncStep (fun _ _ => True)
    (.start noDates noDates) [.sync, .insert 1, .userEdits (some (may 1 (by decide)), none)]
    (fun s => s.previous = some s.docket ∧
      (s.workflow.sync s.docket).1.dates ≠ s.workflow.dates) (by decide +kernel)
  exact ⟨s, hrun, of_decide_eq_true hs⟩

end IpDocket.Workflows
