import IpDocket.Lib.Run
import IpDocket.Lib.Text

/-!
# The watermark of the annuity generation

`ensure_annuities_for_all_registered_matters(commit=True)` takes the time, selects the
registered matters that have changed since the time of the last call without a failure or that
have no annuity rows, and processes them in batches. A failure rolls back what the batch has
done so far. The time becomes the new watermark if no matter has failed.

A call is the two steps `start` and `process`, so that matters may change in between, as
`_backfill_matter_facts_for_annuities` does. `synced` is a history variable: since the last
change of the matter a call has processed it and committed the result.
-/

namespace IpDocket.Annuity
open IpDocket.Lib

/-- A row of `matter_facts` joined with its matter. `hasItems` says that the matter has rows in
`annuity_item`. -/
structure MatterRow where
  matterId : Text
  registrationDate : Option Nat
  rightTypeNorm : Option Text
  isDeleted : Option Bool
  rightGroup : Option Text
  updatedAt : Nat
  hasItems : Bool
  synced : Bool := false
  deriving DecidableEq

structure AutogenState where
  clock : Nat
  allowForeign : Bool
  batchSize : Nat
  watermark : Option Nat := none
  /-- `start_ts` of the call that is under way -/
  startTs : Option Nat := none
  matters : List MatterRow := []

section Selection

variable (U : UpperTable)

/-- The conditions of the query that do not depend on the watermark. -/
def MatterRow.eligible (r : MatterRow) (allowForeign : Bool) : Bool :=
  r.registrationDate.isSome && !r.isDeleted.getD false &&
    r.rightTypeNorm.any (· ∈ ["PATENT", "UTILITY", "DESIGN", "TRADEMARK"].map String.toList) &&
    (allowForeign ||
      pyUpper U (sqlTrim (r.rightGroup.getD [])) ∉ ["OUT", "INC", "ETC"].map String.toList)

/-- `mf.updated_at >= :wm OR NOT EXISTS (... annuity_item ...)`, if there is a watermark. -/
def MatterRow.isDue (r : MatterRow) (watermark : Option Nat) : Bool :=
  watermark.all (fun wm => wm ≤ r.updatedAt || !r.hasItems)

def AutogenState.selection (s : AutogenState) : List MatterRow :=
  s.matters.filter (fun r => r.eligible U s.allowForeign && r.isDue s.watermark)

end Selection

/-- What `ensure_annuities_for_matter` does to the rows that are read here: it may create annuity
rows, and it may write `matter_facts`. -/
structure MatterEffect where
  touchedAt : Option Nat
  created : Bool

/-- How the processing of the matters ends. The rows come in the order of the database;
`outcome` is `none` where `ensure_annuities_for_matter` raises. -/
structure Processing where
  limit : Nat
  rows : List MatterRow
  /-- the result of the query over events and custom fields, if the one over the facts fails -/
  fallback : Option (Option (List Text)) := none
  outcome : Text → Option MatterEffect
  batchCommits : Text → Bool
  lastCommits : Bool
  watermarkCommits : Bool
  finishedAt : Nat

structure LoopState where
  matters : List MatterRow
  pending : List (Text × MatterEffect) := []
  failed : Nat := 0

def MatterRow.after (r : MatterRow) (e : MatterEffect) : MatterRow :=
  { r with
    updatedAt := e.touchedAt.getD r.updatedAt
    hasItems := r.hasItems || e.created
    synced := true }

/-- A commit of the pending results. -/
def commitPending (pending : List (Text × MatterEffect)) (matters : List MatterRow) :
    List MatterRow :=
  matters.map (fun r => match pending.lookup r.matterId with
    | some e => r.after e
    | none => r)

def loopStep (batchSize : Nat) (p : Processing) (l : LoopState) (mid : Text) : LoopState :=
  match p.outcome mid with
  | none => { l with pending := [], failed := l.failed + 1 }
  | some e =>
    let pending := (mid, e) :: l.pending
    if 0 < batchSize ∧ batchSize ≤ pending.length then
      if p.batchCommits mid then { l with matters := commitPending pending l.matters, pending := [] }
      else { l with pending := [], failed := l.failed + 1 }
    else { l with pending := pending }

/-- `if limit > 0: matter_ids = matter_ids[:limit]`. -/
def truncateIds (limit : Nat) (ids : List Text) : List Text :=
  if 0 < limit then ids.take limit else ids

/-- The matters that are processed; `none` if both queries fail. -/
def Processing.matterIds (p : Processing) : Option (List Text) :=
  match p.fallback with
  | none => some (truncateIds p.limit ((p.rows.map MatterRow.matterId).filter (· ≠ [])))
  | some none => none
  | some (some ids) => some (truncateIds p.limit (ids.filter (· ≠ [])))

/-- The batches and the commits at the end. -/
def runProcessing (s : AutogenState) (startTs : Nat) (p : Processing) (ids : List Text) :
    AutogenState :=
  let l := ids.foldl (loopStep s.batchSize p) { matters := s.matters }
  if l.pending ≠ [] ∧ p.lastCommits = false then { s with matters := l.matters }
  else
    let matters := commitPending l.pending l.matters
    if l.failed = 0 ∧ p.watermarkCommits then
      { s with matters := matters, watermark := some startTs }
    else { s with matters := matters }

inductive AutogenAction
  | configure (allowForeign : Bool) (batchSize : Nat)
  | changeFacts (row : MatterRow)
  | editMatter (matterId : Text) (isDeleted : Option Bool) (rightGroup : Option Text)
  | setItems (matterId : Text) (hasItems : Bool)
  | start (now : Nat)
  | process (p : Processing)

/-- The processing takes place after the start, on rows that the query returns. -/
def Processing.fits (p : Processing) (U : UpperTable) (s : AutogenState) (startTs : Nat) : Bool :=
  s.clock ≤ p.finishedAt &&
    (p.fallback.isSome ||
      (p.rows.isPerm (s.selection U) && decide (p.rows.Pairwise (fun r q => q.updatedAt ≤ r.updatedAt)))) &&
    (p.matterIds.getD []).all (fun mid => (p.outcome mid).all (fun e =>
      e.touchedAt.all (fun t => startTs ≤ t && t ≤ p.finishedAt)))

def MatterRow.withMatter (isDeleted : Option Bool) (rightGroup : Option Text) (r : MatterRow) :
    MatterRow :=
  { r with isDeleted := isDeleted, rightGroup := rightGroup }

def MatterRow.withItems (hasItems : Bool) (r : MatterRow) : MatterRow :=
  { r with hasItems := hasItems }

def editRow (mid : Text) (f : MatterRow → MatterRow) (r : MatterRow) : MatterRow :=
  if r.matterId = mid then f r else r

def autogenStep (U : UpperTable) (s : AutogenState) : AutogenAction → Option AutogenState
  | .configure allowForeign batchSize =>
    some { s with allowForeign := allowForeign, batchSize := batchSize }
  | .changeFacts row =>
    if s.clock ≤ row.updatedAt then
      some { s with
        clock := row.updatedAt
        matters := { row with synced := false } ::
          s.matters.filter (fun r => r.matterId ≠ row.matterId) }
    else none
  | .editMatter mid isDeleted rightGroup =>
    some { s with matters := s.matters.map (editRow mid (.withMatter isDeleted rightGroup)) }
  | .setItems mid hasItems =>
    some { s with matters := s.matters.map (editRow mid (.withItems hasItems)) }
  | .start now =>
    if s.startTs = none ∧ s.clock ≤ now then some { s with clock := now, startTs := some now }
    else none
  | .process p =>
    match s.startTs with
    | none => none
    | some startTs =>
      if p.fits U s startTs then
        let done := match p.matterIds with
          | none => s
          | some ids => runProcessing s startTs p ids
        some { done with clock := p.finishedAt, startTs := none }
      else none

def AutogenState.initial (clock : Nat) (allowForeign : Bool) (batchSize : Nat) : AutogenState :=
  { clock := clock, allowForeign := allowForeign, batchSize := batchSize }

lemma commitPending_cases {pending : List (Text × MatterEffect)} {matters : List MatterRow}
    {r : MatterRow} (h : r ∈ commitPending pending matters) :
    r.synced = true ∧ (∃ q ∈ matters, q.matterId = r.matterId) ∨
      r ∈ matters ∧ pending.lookup r.matterId = none := by
  obtain ⟨q, hq, hr⟩ := List.mem_map.mp h
  cases hlookup : pending.lookup q.matterId with
  | none =>
    rw [hlookup] at hr
    subst hr
    exact .inr ⟨hq, hlookup⟩
  | some e =>
    rw [hlookup] at hr
    subst hr
    exact .inl ⟨rfl, q, hq, rfl⟩

/-- What holds in the loop over the matters: a row that is not synced is as it was at the
beginning, and as long as nothing has failed every matter that was seen is synced or pending. -/
structure LoopOk (matters : List MatterRow) (seen : List Text) (l : LoopState) : Prop where
  rows : ∀ r ∈ l.matters, r.synced = true ∧ (∃ q ∈ matters, q.matterId = r.matterId) ∨ r ∈ matters
  seen : l.failed = 0 → ∀ mid ∈ seen, l.pending.lookup mid ≠ none ∨
    ∀ r ∈ l.matters, r.matterId = mid → r.synced = true

/-- A commit keeps the rows and leaves nothing pending. -/
lemma LoopOk.commit {matters : List MatterRow} {seen : List Text} {l : LoopState}
    (h : LoopOk matters seen l) :
    LoopOk matters seen { l with matters := commitPending l.pending l.matters, pending := [] } := by
  constructor
  · intro r hr
    rcases commitPending_cases hr with ⟨hsynced, q, hq, hid⟩ | ⟨hold, -⟩
    · rcases h.rows q hq with ⟨-, q', hq', hid'⟩ | hmem
      · exact .inl ⟨hsynced, q', hq', hid'.trans hid⟩
      · exact .inl ⟨hsynced, q, hmem, hid⟩
    · exact h.rows r hold
  · intro hfailed mid hmid
    right
    intro r hr hrid
    rcases commitPending_cases hr with ⟨hsynced, -⟩ | ⟨hold, hnone⟩
    · exact hsynced
    · rcases h.seen hfailed mid hmid with hpending | hall
      · exact absurd (hrid ▸ hnone) hpending
      · exact hall r hold hrid

/-- A failure forgets what is pending. -/
lemma LoopOk.fail {matters : List MatterRow} {seen seen' : List Text} {l : LoopState}
    (h : LoopOk matters seen l) :
    LoopOk matters seen' { l with pending := [], failed := l.failed + 1 } :=
  ⟨h.rows, fun hfailed => absurd hfailed (Nat.succ_ne_zero _)⟩

lemma LoopOk.push {matters : List MatterRow} {seen : List Text} {l : LoopState}
    (h : LoopOk matters seen l) (mid : Text) (e : MatterEffect) :
    LoopOk matters (mid :: seen) { l with pending := (mid, e) :: l.pending } := by
  refine ⟨h.rows, ?_⟩
  intro hfailed other hother
  by_cases heq : other = mid
  · left
    rw [heq, List.lookup_cons_self]
    exact Option.some_ne_none e
  · have hseen := h.seen hfailed other ((List.mem_cons.mp hother).resolve_left heq)
    have hlookup : ((mid, e) :: l.pending).lookup other = l.pending.lookup other := by
      have hne : (other == mid) = false := by simp [heq]
      rw [List.lookup_cons, hne]
    rw [hlookup]
    exact hseen

lemma loopStep_ok {matters : List MatterRow} {seen : List Text} {l : LoopState}
    (h : LoopOk matters seen l) (batchSize : Nat) (p : Processing) (mid : Text) :
    LoopOk matters (mid :: seen) (loopStep batchSize p l mid) := by
  unfold loopStep
  cases p.outcome mid with
  | none => exact h.fail
  | some e =>
    have hpush := h.push mid e
    dsimp only
    split
    · split
      · exact hpush.commit
      · exact h.fail
    · exact hpush

lemma foldl_loopStep_ok {matters : List MatterRow} {seen : List Text} {l : LoopState}
    (h : LoopOk matters seen l) (batchSize : Nat) (p : Processing) (ids : List Text) :
    LoopOk matters (ids.reverse ++ seen) (ids.foldl (loopStep batchSize p) l) := by
  induction ids generalizing seen l with
  | nil => exact h
  | cons mid ids ih =>
    rw [List.foldl_cons, List.reverse_cons, List.append_assoc]
    exact ih (loopStep_ok h batchSize p mid)

/-- What a processing leaves behind. The watermark moves to the start of the call only if the
result of every matter was committed. -/
lemma runProcessing_spec (s : AutogenState) (startTs : Nat) (p : Processing) (ids : List Text) :
    let s' := runProcessing s startTs p ids
    (∀ r ∈ s'.matters, r.synced = true ∧ (∃ q ∈ s.matters, q.matterId = r.matterId) ∨
      r ∈ s.matters) ∧ s'.allowForeign = s.allowForeign ∧
    (s'.watermark = s.watermark ∨ s'.watermark = some startTs ∧
      ∀ mid ∈ ids, ∀ r ∈ s'.matters, r.matterId = mid → r.synced = true) := by
  have hstart : LoopOk s.matters [] { matters := s.matters } := ⟨fun r hr => .inr hr, nofun⟩
  have hloop := foldl_loopStep_ok hstart s.batchSize p ids
  unfold runProcessing
  dsimp only
  split
  · exact ⟨hloop.rows, rfl, .inl rfl⟩
  · have hcommit := hloop.commit
    split
    · next hfailed =>
      refine ⟨hcommit.rows, rfl, .inr ⟨rfl, ?_⟩⟩
      intro mid hmid r hr hrid
      rcases hcommit.seen hfailed.1 mid (by simp [hmid]) with hpending | hall
      · exact absurd rfl hpending
      · exact hall r hr hrid
    · exact ⟨hcommit.rows, rfl, .inl rfl⟩

/-! ### What keeps a matter in reach -/

section KeepsUp

variable (U : UpperTable)

/-- The matter is not behind the watermark. -/
def AutogenState.reaches (s : AutogenState) (r : MatterRow) : Bool :=
  s.watermark.all (fun wm => wm ≤ r.updatedAt)

/-- A call is not cut off by its limit and does not fall back on another query, and no edit
that leaves `matter_facts` alone makes a matter eligible that is behind the watermark. -/
def keepsUp (s : AutogenState) : AutogenAction → Bool
  | .configure allowForeign _ => s.matters.all (fun r =>
      !r.eligible U allowForeign || r.eligible U s.allowForeign || s.reaches r)
  | .changeFacts row => row.matterId ≠ []
  | .editMatter mid isDeleted rightGroup => s.matters.all (fun r =>
      r.matterId ≠ mid || !(r.withMatter isDeleted rightGroup).eligible U s.allowForeign ||
        r.eligible U s.allowForeign || s.reaches r)
  | .setItems _ _ => true
  | .start _ => true
  | .process p =>
    match p.fallback with
    | none => p.limit = 0 || p.rows.length ≤ p.limit
    | some none => true
    | some (some _) => false

structure InReach (s : AutogenState) : Prop where
  ids : ∀ r ∈ s.matters, r.matterId ≠ []
  clock : ∀ wm ∈ s.watermark, wm ≤ s.clock
  start : ∀ startTs ∈ s.startTs, startTs ≤ s.clock
  synced : ∀ r ∈ s.matters, r.eligible U s.allowForeign = true →
    ∀ wm ∈ s.watermark, r.updatedAt < wm → r.synced = true

variable {U} {s : AutogenState}

lemma not_lt_of_reaches {r : MatterRow} (h : s.reaches r = true) :
    ∀ wm ∈ s.watermark, ¬r.updatedAt < wm := by
  intro wm hwm
  unfold AutogenState.reaches at h
  rw [Option.mem_def.mp hwm] at h
  simp at h
  omega

lemma matterIds_of_keepsUp {p : Processing} (h : keepsUp U s (.process p) = true)
    {ids : List Text} (hids : p.matterIds = some ids) :
    p.fallback = none ∧ ids = (p.rows.map MatterRow.matterId).filter (· ≠ []) := by
  unfold Processing.matterIds at hids
  simp only [keepsUp] at h
  cases hfallback : p.fallback with
  | some fallback =>
    rw [hfallback] at h hids
    cases fallback with
    | none => cases hids
    | some _ => cases h
  | none =>
    rw [hfallback] at h hids
    refine ⟨rfl, ?_⟩
    rw [← Option.some.inj hids]
    unfold truncateIds
    split
    · next hlimit =>
      have hle : p.limit = 0 ∨ p.rows.length ≤ p.limit := by simpa using h
      apply List.take_of_length_le
      apply (List.length_filter_le _ _).trans
      rw [List.length_map]
      omega
    · rfl

/-- Every matter that the query selects is processed. -/
lemma mem_matterIds {p : Processing} {startTs : Nat} (hfits : p.fits U s startTs = true)
    (hfallback : p.fallback = none) {r : MatterRow} (hr : r ∈ s.selection U)
    (hid : r.matterId ≠ []) : r.matterId ∈ (p.rows.map MatterRow.matterId).filter (· ≠ []) := by
  unfold Processing.fits at hfits
  simp only [hfallback, Option.isSome_none, Bool.false_or, Bool.and_eq_true] at hfits
  have hperm := List.isPerm_iff.mp hfits.1.2.1
  have hmem : r ∈ p.rows := hperm.mem_iff.mpr hr
  exact List.mem_filter.mpr ⟨List.mem_map_of_mem hmem, by simpa using hid⟩

/-- A processing keeps the matters in reach. -/
lemma InReach.process (h : InReach U s) {p : Processing} {startTs : Nat}
    (hstart : s.startTs = some startTs) (hfits : p.fits U s startTs = true)
    (hkeeps : keepsUp U s (.process p) = true) {ids : List Text} (hids : p.matterIds = some ids) :
    InReach U { runProcessing s startTs p ids with clock := p.finishedAt, startTs := none } := by
  obtain ⟨hrows, hallow, hwatermark⟩ := runProcessing_spec s startTs p ids
  obtain ⟨hfallback, hall⟩ := matterIds_of_keepsUp hkeeps hids
  have hclock : s.clock ≤ p.finishedAt := by
    unfold Processing.fits at hfits
    simp only [Bool.and_eq_true, decide_eq_true_eq] at hfits
    exact hfits.1.1
  have hstartClock := h.start startTs hstart
  have hid : ∀ r ∈ (runProcessing s startTs p ids).matters, r.matterId ≠ [] := by
    intro r hr
    rcases hrows r hr with ⟨-, q, hq, heq⟩ | hold
    · exact heq ▸ h.ids q hq
    · exact h.ids r hold
  refine ⟨hid, ?_, nofun, ?_⟩
  · intro wm hwm
    dsimp only at hwm ⊢
    rcases hwatermark with hsame | ⟨hnew, -⟩
    · have hle := h.clock wm (hsame ▸ hwm)
      omega
    · rw [hnew] at hwm
      cases hwm
      omega
  · intro r hr heligible wm hwm hbehind
    dsimp only at hr heligible hwm
    rw [hallow] at heligible
    rcases hrows r hr with ⟨hsynced, -⟩ | hold
    · exact hsynced
    rcases hwatermark with hsame | ⟨hnew, hdone⟩
    · exact h.synced r hold heligible wm (hsame ▸ hwm) hbehind
    · by_cases hdue : r.isDue s.watermark = true
      · -- the query has selected the matter, so that this call has processed it
        have hselected : r ∈ s.selection U := List.mem_filter.mpr ⟨hold, by simp [heligible, hdue]⟩
        exact hdone r.matterId (hall ▸ mem_matterIds hfits hfallback hselected (h.ids r hold)) r hr rfl
      · -- the matter was behind the old watermark already
        unfold MatterRow.isDue at hdue
        cases hold' : s.watermark with
        | none => simp [hold'] at hdue
        | some old =>
          simp only [hold', Option.all_some, Bool.or_eq_true, decide_eq_true_eq, not_or] at hdue
          exact h.synced r hold heligible old hold' (by omega)

/-- An edit of a matter that changes neither its time nor its history keeps it in reach, if it
does not become eligible behind the watermark. -/
lemma InReach.edit (h : InReach U s) (mid : Text) (f : MatterRow → MatterRow)
    (hid : ∀ r, (f r).matterId = r.matterId) (htime : ∀ r, (f r).updatedAt = r.updatedAt)
    (hsynced : ∀ r, (f r).synced = r.synced)
    (hbecomes : ∀ r ∈ s.matters, r.matterId = mid → (f r).eligible U s.allowForeign = true →
      r.eligible U s.allowForeign = true ∨ s.reaches r = true) :
    InReach U { s with matters := s.matters.map (editRow mid f) } := by
  refine ⟨?_, h.clock, h.start, ?_⟩
  · intro r hr
    obtain ⟨q, hq, rfl⟩ := List.mem_map.mp hr
    unfold editRow
    split
    · rw [hid]
      exact h.ids q hq
    · exact h.ids q hq
  · intro r hr heligible wm hwm hbehind
    obtain ⟨q, hq, rfl⟩ := List.mem_map.mp hr
    unfold editRow at heligible hbehind ⊢
    split
    · next hmid =>
      rw [if_pos hmid] at heligible hbehind
      rw [htime] at hbehind
      rw [hsynced]
      rcases hbecomes q hq hmid heligible with hbefore | hreaches
      · exact h.synced q hq hbefore wm hwm hbehind
      · exact absurd hbehind (not_lt_of_reaches hreaches wm hwm)
    · next hmid =>
      rw [if_neg hmid] at heligible hbehind
      exact h.synced q hq heligible wm hwm hbehind

/-- Every step keeps the matters in reach. -/
theorem inReach_step (h : InReach U s) {a : AutogenAction} (hkeeps : keepsUp U s a = true)
    {s' : AutogenState} (hstep : autogenStep U s a = some s') : InReach U s' := by
  cases a with
  | configure allowForeign batchSize =>
    cases hstep
    refine ⟨h.ids, h.clock, h.start, ?_⟩
    intro r hr heligible wm hwm hbehind
    have hall := List.all_eq_true.mp hkeeps r hr
    dsimp only at heligible
    have hcases : r.eligible U s.allowForeign = true ∨ s.reaches r = true := by
      simpa [heligible] using hall
    rcases hcases with hbefore | hreaches
    · exact h.synced r hr hbefore wm hwm hbehind
    · exact absurd hbehind (not_lt_of_reaches hreaches wm hwm)
  | changeFacts row =>
    simp only [autogenStep] at hstep
    split at hstep
    · next hclock =>
      cases hstep
      have hrow : row.matterId ≠ [] := by simpa [keepsUp] using hkeeps
      refine ⟨?_, ?_, ?_, ?_⟩
      · intro r hr
        rcases List.mem_cons.mp hr with rfl | hold
        · exact hrow
        · exact h.ids r (List.mem_of_mem_filter hold)
      · intro wm hwm
        exact (h.clock wm hwm).trans hclock
      · intro startTs hstart
        exact (h.start startTs hstart).trans hclock
      · intro r hr heligible wm hwm hbehind
        rcases List.mem_cons.mp hr with rfl | hold
        · -- the row was written after the watermark
          have hle := h.clock wm hwm
          dsimp only at hbehind
          omega
        · exact h.synced r (List.mem_of_mem_filter hold) heligible wm hwm hbehind
    · cases hstep
  | editMatter mid isDeleted rightGroup =>
    cases hstep
    apply h.edit mid (.withMatter isDeleted rightGroup) (fun _ => rfl) (fun _ => rfl) (fun _ => rfl)
    intro r hr hid heligible
    have hall := List.all_eq_true.mp hkeeps r hr
    rw [heligible, hid] at hall
    simpa using hall
  | setItems mid hasItems =>
    cases hstep
    apply h.edit mid (.withItems hasItems) (fun _ => rfl) (fun _ => rfl) (fun _ => rfl)
    intro r _ _ heligible
    exact .inl heligible
  | start now =>
    simp only [autogenStep] at hstep
    split at hstep
    · next hidle =>
      cases hstep
      refine ⟨h.ids, fun wm hwm => (h.clock wm hwm).trans hidle.2, ?_, h.synced⟩
      intro startTs hstart
      cases hstart
      exact le_rfl
    · cases hstep
  | process p =>
    simp only [autogenStep] at hstep
    split at hstep
    · cases hstep
    · next startTs hstart =>
      split at hstep
      · next hfits =>
        cases hstep
        cases hids : p.matterIds with
        | some ids => exact h.process hstart hfits hkeeps hids
        | none =>
          have hclock : s.clock ≤ p.finishedAt := by
            unfold Processing.fits at hfits
            simp only [Bool.and_eq_true, decide_eq_true_eq] at hfits
            exact hfits.1.1
          exact ⟨h.ids, fun wm hwm => (h.clock wm hwm).trans hclock, nofun, h.synced⟩
      · cases hstep

/-- In every run whose calls are not cut off and whose edits bring back no matter from behind
the watermark, a matter that is eligible, has annuity rows and is not selected was processed
and committed by a call since it last changed. -/
theorem unselected_synced {clock batchSize : Nat} {allowForeign : Bool} {as : List AutogenAction}
    (h : GuardedRun (autogenStep U) (fun s a => keepsUp U s a = true)
      (.initial clock allowForeign batchSize) as s) :
    ∀ r ∈ s.matters, r.eligible U s.allowForeign = true → r.hasItems = true →
      r ∉ s.selection U → r.synced = true := by
  have hreach : InReach U s := by
    apply h.invariant
    · exact ⟨nofun, nofun, nofun, nofun⟩
    · exact fun _ _ _ hreach hkeeps hstep => inReach_step hreach hkeeps hstep
  intro r hr heligible hitems hnot
  have hdue : r.isDue s.watermark = false := by
    by_contra hdue
    exact hnot (List.mem_filter.mpr ⟨hr, by simp [heligible, hdue]⟩)
  unfold MatterRow.isDue at hdue
  cases hwm : s.watermark with
  | none => simp [hwm] at hdue
  | some wm =>
    simp only [hwm, hitems, Option.all_some, Bool.not_true, Bool.or_false, decide_eq_false_iff_not,
      Nat.not_le] at hdue
    exact hreach.synced r hr heligible wm hwm hdue

end KeepsUp

/-- A registered patent with annuity rows. -/
def patentRow (mid : String) (updatedAt : Nat) : MatterRow :=
  { matterId := mid.toList, registrationDate := some 0, rightTypeNorm := some "PATENT".toList,
    isDeleted := none, rightGroup := some "DOM".toList, updatedAt := updatedAt, hasItems := true }

/-- A processing of `rows` in which the matters in `failing` raise. -/
def processRows (limit finishedAt : Nat) (rows : List MatterRow) (failing : List String) :
    Processing :=
  { limit := limit, rows := rows, batchCommits := fun _ => true, lastCommits := true
    outcome := fun mid => if mid ∈ failing.map String.toList then none else some ⟨none, false⟩
    watermarkCommits := true, finishedAt := finishedAt }

/-- The first call fails for one of two matters and rolls back the other one, the second call
processes both: neither of them is selected by a third call. -/
theorem unselected_synced_afterFailure :
    ∃ s, GuardedRun (autogenStep asciiTable) (fun s a => keepsUp asciiTable s a = true)
        (.initial 0 false 200)
        [.changeFacts (patentRow "A" 1), .changeFacts (patentRow "B" 2), .start 3,
          .process (processRows 0 4 [patentRow "B" 2, patentRow "A" 1] ["A"]), .start 5,
          .process (processRows 0 6 [patentRow "B" 2, patentRow "A" 1] [])] s ∧
      (s.selection asciiTable = [] ∧ s.matters.length = 2) ∧
      ∀ r ∈ s.matters, r.eligible asciiTable s.allowForeign = true → r.hasItems = true →
        r ∉ s.selection asciiTable → r.synced = true := by
  obtain ⟨s, hrun, hend⟩ := exists_guardedRun_of_any (autogenStep asciiTable)
    (fun s a => keepsUp asciiTable s a = true) (.initial 0 false 200)
    [.changeFacts (patentRow "A" 1), .changeFacts (patentRow "B" 2), .start 3,
      .process (processRows 0 4 [patentRow "B" 2, patentRow "A" 1] ["A"]), .start 5,
      .process (processRows 0 6 [patentRow "B" 2, patentRow "A" 1] [])]
    (fun s => decide (s.selection asciiTable = [] ∧ s.matters.length = 2)) (by decide +kernel)
  exact ⟨s, hrun, of_decide_eq_true hend, unselected_synced hrun⟩

/-- A call with the limit 1 processes the matter that has changed last and moves the watermark
past the other one, which no later call selects. -/
theorem truncated_falls_behind :
    ∃ s, Run (autogenStep asciiTable) (.initial 0 false 200)
        [.changeFacts (patentRow "A" 1), .changeFacts (patentRow "B" 2), .start 3,
          .process (processRows 1 4 [patentRow "B" 2, patentRow "A" 1] [])] s ∧
      patentRow "A" 1 ∈ s.matters ∧ (patentRow "A" 1).eligible asciiTable s.allowForeign = true ∧
      patentRow "A" 1 ∉ s.selection asciiTable ∧ (patentRow "A" 1).synced = false := by
  obtain ⟨s, hrun, hend⟩ := exists_guardedRun_of_any (autogenStep asciiTable)
    (fun _ _ => True) (.initial 0 false 200)
    [.changeFacts (patentRow "A" 1), .changeFacts (patentRow "B" 2), .start 3,
      .process (processRows 1 4 [patentRow "B" 2, patentRow "A" 1] [])]
    (fun s => decide (patentRow "A" 1 ∈ s.matters ∧
      (patentRow "A" 1).eligible asciiTable s.allowForeign = true ∧
      patentRow "A" 1 ∉ s.selection asciiTable ∧ (patentRow "A" 1).synced = false))
    (by decide +kernel)
  exact ⟨s, hrun, of_decide_eq_true hend⟩

end IpDocket.Annuity
