import IpDocket.Workflows.AnnuityTaskPass

/-!
# The sync is exact where it reaches the matter's workflows and no others

The workflows are found by a pattern that is made from the id of the matter, where `%` and `_` match
other ids as well, and the `UPDATE` that closes those that are left over passes over a workflow
without a status. Where neither happens, one workflow is open for each row that is picked, the
workflows of other matters stay, and a second pass changes nothing.
-/

namespace IpDocket.Workflows.AnnuityTasks
open IpDocket.Lib IpDocket.Annuity

/-- An annuity workflow of the matter. -/
def isOwn (mid : Text) (w : Workflow) : Bool :=
  w.caseId = some mid && w.businessCode.any (fun bc => "ANNUITY:".toList <+: bc)

def ofOther (mid : Text) (w : Workflow) : Bool := w.caseId.any (· ≠ mid)

/-- The status, the dates and the note of a workflow. -/
def shown (w : Workflow) :
    Nat × Option Text × Option PyDate × Option PyDate × Option PyDate × Option Text :=
  (w.id, w.status, w.legalDueDate, w.dueDate, w.completedDate, w.note)

section Exactness

variable (T : UnicodeTables) (inp : SyncInput) (matterId : Text)

/-- The annuity rows that the selection of visible cycles picks: none when the matter is terminal or
the management is disabled. -/
def Picked (ai : AnnuityItem) : Prop :=
  modeOf inp matterId = .managed ∧ ai ∈ itemsOf inp (pyStrip matterId) ∧
    ∃ c ∈ selected T inp (pyStrip matterId), candidateOf T inp ai = some c

/-- What a sync is to leave behind. -/
structure Exact (t t' : WorkflowTable) : Prop where
  one : ∀ ai, Picked T inp matterId ai → ∃! w, w ∈ t'.rows ∧ isOwn (pyStrip matterId) w = true ∧
    isOpen w = true ∧ w.businessCode = codeOf ai
  only : ∀ w ∈ t'.rows, isOwn (pyStrip matterId) w = true → isOpen w = true →
    ∃ ai, Picked T inp matterId ai ∧ w.businessCode = codeOf ai
  others : ∀ w ∈ t.rows, ofOther (pyStrip matterId) w = true → t'.find w.id = some w
  again : ∃ t'', syncAnnuityWorkflowsForMatter T inp matterId t' = some t'' ∧
    t''.rows.map shown = t'.rows.map shown

/-- The `UPDATE` of the terminal branch, or that of the disabled one, which leaves out `NULL`. -/
def closes (mid : Text) (nullToo : Bool) (w : Workflow) : Bool :=
  codeLike mid w && (nullToo || w.status.isSome)

/-- The open workflows of the matter are closed, those of other matters are not. -/
def ClosesOwn (mid : Text) (nullToo : Bool) (t : WorkflowTable) : Prop :=
  ∀ w ∈ t.rows, isOpen w = true →
    (isOwn mid w = true → closes mid nullToo w = true) ∧
    (ofOther mid w = true → closes mid nullToo w = false)

/-- The workflow of a picked row is the matter's; its other open workflows are settled or hidden, and
those of other matters are not. -/
structure ReachesOwn (mid : Text) (t : WorkflowTable) : Prop where
  writable : ∀ bc ∈ orderedOpenBcs T inp mid, Writable inp t bc
  settles : ∀ ai ∈ settledItems T inp mid t, ∀ bc ∈ codeOf ai, Writable inp t bc
  owned : ∀ w ∈ t.rows, ∀ bc ∈ orderedOpenBcs T inp mid, w.businessCode = some bc →
    w.caseId = some mid
  closed : ∀ w ∈ t.rows, isOwn mid w = true → isOpen w = true →
    (∃ bc ∈ orderedOpenBcs T inp mid, w.businessCode = some bc) ∨
    (∃ ai ∈ settledItems T inp mid t, w.businessCode = codeOf ai) ∨ hides T inp mid w = true
  others : ∀ w ∈ t.rows, ofOther mid w = true → hides T inp mid w = false ∧
    ∀ ai ∈ settledItems T inp mid t, w.businessCode = codeOf ai → writeItem T inp ai w = w

/-- The condition on the workflows before the sync. -/
def Reaches (t : WorkflowTable) : Prop :=
  match modeOf inp matterId with
  | .blank => ∀ w ∈ t.rows, isOwn (pyStrip matterId) w = true → isOpen w = false
  | .terminal => ClosesOwn (pyStrip matterId) true t
  | .disabled => ClosesOwn (pyStrip matterId) false t
  | .managed => ReachesOwn T inp (pyStrip matterId) t

end Exactness

section Owners

variable {mid bc : Text} {ai : AnnuityItem} {w : Workflow}

lemma isOwn_of_code (hcase : w.caseId = some mid) (hcode : w.businessCode = some bc)
    (hai : codeOf ai = some bc) : isOwn mid w = true := by
  obtain ⟨-, -, rfl⟩ := codeOf_eq_some.mp hai
  unfold isOwn
  rw [hcase, hcode, Option.any_some]
  simp

lemma ofOther_of_case (h : w.caseId = some mid) : ofOther mid w = false := by
  unfold ofOther
  rw [h]
  simp

lemma exists_code_of_isOwn (h : isOwn mid w = true) : ∃ bc, w.businessCode = some bc := by
  obtain ⟨bc, hbc, -⟩ := (Option.any_eq_true _ _).mp (Bool.and_eq_true_iff.mp h).2
  exact ⟨bc, hbc⟩

lemma isClosed_of_isOpen {st : Text} (hst : w.status = some st) (hopen : isOpen w = true) :
    isClosed st = false := by
  unfold isOpen at hopen
  rw [hst, Option.any_some] at hopen
  simpa using hopen

end Owners

section Closing

variable {T : UnicodeTables} {inp : SyncInput} {mid matterId : Text} {t t' : WorkflowTable}
  {w : Workflow} {nullToo : Bool} {f : Workflow → Workflow}

/-- The `UPDATE` of a branch that closes the workflows found by the pattern. -/
def closing (mid : Text) (nullToo : Bool) : Workflow → Bool :=
  fun w => closes mid nullToo w && isOpen w

lemma rows_syncTerminal (t : WorkflowTable) : (syncTerminal inp mid t).rows =
    t.rows.map (onRows (closing mid true) (closeRow inp)) := by
  refine List.map_congr_left (fun w _ => ?_)
  unfold onRows closing closes isOpen
  rw [Bool.true_or, Bool.and_true]

lemma rows_syncDisabled (t : WorkflowTable) : (syncDisabled inp mid t).rows =
    t.rows.map (onRows (closing mid false)
      (abandonRow inp "[Renewal Management Disabled]".toList)) := by
  refine List.map_congr_left (fun w hw => ?_)
  have hopen : w.status.any (!isClosed ·) = (w.status.isSome && isOpen w) := by
    unfold isOpen
    cases w.status <;> rfl
  have hmem : w.id ∈ (t.rows.filter (fun w => codeLike mid w && w.status.any (!isClosed ·))).map
      Workflow.id ↔ codeLike mid w = true ∧ w.status.any (!isClosed ·) = true := by
    rw [List.mem_map]
    constructor
    · rintro ⟨v, hv, hid⟩
      obtain ⟨hvmem, hkeeps⟩ := List.mem_filter.mp hv
      rw [Table.eq_of_key_eq hvmem hw hid] at hkeeps
      exact Bool.and_eq_true_iff.mp hkeeps
    · intro h
      exact ⟨w, List.mem_filter.mpr ⟨hw, Bool.and_eq_true_iff.mpr h⟩, rfl⟩
  have hcond : abandons ((t.rows.filter (fun w => codeLike mid w &&
      w.status.any (!isClosed ·))).map Workflow.id) w = closing mid false w := by
    unfold abandons closing closes
    rw [Bool.false_or, Bool.and_assoc, ← hopen, Bool.eq_iff_iff, Bool.and_eq_true,
      Bool.and_eq_true, decide_eq_true_eq, hmem]
    tauto
  change onRows (abandons _) _ w = _
  unfold onRows
  rw [hcond]

lemma onRows_closing_twice (hf : ∀ w, isOpen (f w) = false) (w : Workflow) :
    onRows (closing mid nullToo) f (onRows (closing mid nullToo) f w) =
      onRows (closing mid nullToo) f w := by
  by_cases h : closing mid nullToo w = true
  · have hclosed : closing mid nullToo (f w) = false := by
      unfold closing
      rw [hf w, Bool.and_false]
    rw [onRows_of_true h, onRows_of_false hclosed]
  · rw [onRows_of_false (Bool.eq_false_iff.mpr h), onRows_of_false (Bool.eq_false_iff.mpr h)]

/-- A branch that closes workflows is exact where it closes the matter's and no others. -/
theorem exact_closing (hmode : modeOf inp matterId ≠ .managed)
    (hid : ∀ w, (f w).id = w.id) (hcase : ∀ w, (f w).caseId = w.caseId)
    (hcode : ∀ w, (f w).businessCode = w.businessCode) (hf : ∀ w, isOpen (f w) = false)
    (hsync : ∀ u, ∃ u', syncAnnuityWorkflowsForMatter T inp matterId u = some u' ∧
      u'.rows = u.rows.map (onRows (closing (pyStrip matterId) nullToo) f)) :
    (∃ t', syncAnnuityWorkflowsForMatter T inp matterId t = some t' ∧ Exact T inp matterId t t') ↔
      ClosesOwn (pyStrip matterId) nullToo t := by
  have hown : ∀ w, isOwn (pyStrip matterId) (onRows (closing (pyStrip matterId) nullToo) f w) =
      isOwn (pyStrip matterId) w := by
    intro w
    unfold onRows
    split
    · rw [isOwn, hcase, hcode, isOwn]
    · rfl
  have hkey : ∀ w, (onRows (closing (pyStrip matterId) nullToo) f w).id = w.id := by
    intro w
    unfold onRows
    split
    · exact hid w
    · rfl
  obtain ⟨t', hrun, hrows⟩ := hsync t
  constructor
  · rintro ⟨u, hu, hexact⟩ w hw hopen
    obtain rfl := Option.some_inj.mp (hrun.symm.trans hu)
    have hmem := List.mem_map_of_mem (f := onRows (closing (pyStrip matterId) nullToo) f) hw
    rw [← hrows] at hmem
    constructor
    · intro hw'
      by_contra hnot
      have hfalse : closing (pyStrip matterId) nullToo w = false := by
        unfold closing
        rw [Bool.eq_false_iff.mpr hnot, Bool.false_and]
      rw [onRows_of_false hfalse] at hmem
      obtain ⟨ai, hpicked, -⟩ := hexact.only w hmem hw' hopen
      exact hmode hpicked.1
    · intro hother
      by_contra hcloses
      have htrue : closing (pyStrip matterId) nullToo w = true :=
        Bool.and_eq_true_iff.mpr ⟨by simpa using hcloses, hopen⟩
      have hfind := hexact.others w hw hother
      have hmoved := Table.find_of_mem hmem
      change t'.find (onRows (closing (pyStrip matterId) nullToo) f w).id = _ at hmoved
      rw [hkey, hfind, onRows_of_true htrue] at hmoved
      have hclosed := hf w
      rw [← Option.some_inj.mp hmoved, hopen] at hclosed
      cases hclosed
  · intro hcloses
    refine ⟨t', hrun, fun ai hpicked => absurd hpicked.1 hmode, ?_, ?_, ?_⟩
    · intro w' hw' hw hopen
      rw [hrows] at hw'
      obtain ⟨w, hmem, rfl⟩ := List.mem_map.mp hw'
      rw [hown] at hw
      by_cases h : closing (pyStrip matterId) nullToo w = true
      · rw [onRows_of_true h, hf w] at hopen
        cases hopen
      · rw [onRows_of_false (Bool.eq_false_iff.mpr h)] at hopen
        exact absurd (Bool.and_eq_true_iff.mpr ⟨(hcloses w hmem hopen).1 hw, hopen⟩) h
    · intro w hw hother
      have hkept : onRows (closing (pyStrip matterId) nullToo) f w = w := by
        apply onRows_of_false
        by_contra h
        have htrue : closing (pyStrip matterId) nullToo w = true := by simpa using h
        obtain ⟨hcloses', hopen⟩ := Bool.and_eq_true_iff.mp htrue
        rw [(hcloses w hw hopen).2 hother] at hcloses'
        cases hcloses'
      apply Table.find_of_mem
      rw [hrows, ← hkept]
      exact List.mem_map_of_mem hw
    · obtain ⟨t'', hagain, hrows'⟩ := hsync t'
      refine ⟨t'', hagain, ?_⟩
      have hsame : t''.rows = t'.rows := by
        rw [hrows', hrows, List.map_map]
        exact List.map_congr_left (fun w _ => onRows_closing_twice hf w)
      rw [hsame]

end Closing

section Plain

/-- `Workflow.STATUSES`. -/
def statuses : List Text := ["Pending", "In Progress", "Completed", "Abandoned"].map String.toList

def codePrefix (mid : Text) : Text := "ANNUITY:".toList ++ mid ++ [':']

/-- The id of the matter is no pattern, every workflow has a status, and the codes with the id of the
matter are the codes of its workflows. -/
structure PlainTasks (inp : SyncInput) (mid : Text) (t : WorkflowTable) : Prop where
  named : mid ≠ []
  pattern : PlainPattern mid
  stored : inp.matterExists = true
  short : ∀ ai ∈ itemsOf inp mid, ∀ bc ∈ codeOf ai, bc.length ≤ 50
  status : ∀ w ∈ t.rows, ∃ st ∈ statuses, w.status = some st
  code : ∀ w ∈ t.rows, isOwn mid w = true →
    ∀ bc ∈ w.businessCode, codePrefix mid <+: bc ∧ pyStrip bc = bc
  owner : ∀ w ∈ t.rows, ∀ bc ∈ w.businessCode, codePrefix mid <+: bc → w.caseId = some mid

variable {T : UnicodeTables} {inp : SyncInput} {mid matterId bc : Text} {ai : AnnuityItem}
  {t : WorkflowTable} {w : Workflow}

lemma stripped_of_mem_statuses {st : Text} (h : st ∈ statuses) : pyStrip st = st := by
  unfold statuses at h
  simp only [List.map_cons, List.map_nil, List.mem_cons, List.not_mem_nil, or_false] at h
  rcases h with rfl | rfl | rfl | rfl <;> decide

lemma codeLike_of_plain (h : PlainPattern mid) (w : Workflow) : codeLike mid w = true ↔
    ∃ bc ∈ w.businessCode, codePrefix mid <+: bc := by
  have hplain : PlainPattern (codePrefix mid) := by
    intro c hc
    unfold codePrefix at hc
    rcases List.mem_append.mp hc with hc | hc
    · rcases List.mem_append.mp hc with hc | hc
      · have hall : PlainPattern "ANNUITY:".toList := by decide
        exact hall c hc
      · exact h c hc
    · rw [List.mem_singleton.mp hc]
      decide
  have hpattern : "ANNUITY:".toList ++ mid ++ ":%".toList = codePrefix mid ++ ['%'] := by
    unfold codePrefix
    rw [List.append_assoc _ [':']]
    rfl
  unfold codeLike
  rw [Option.any_eq_true, hpattern]
  exact exists_congr (fun bc => and_congr_right (fun _ => sqlLike_plain_percent hplain bc))

lemma codePrefix_of_codeOf (hmid : pyStrip mid = mid) (hai : ai ∈ itemsOf inp mid)
    (hcode : codeOf ai = some bc) : codePrefix mid <+: bc := by
  obtain ⟨-, -, rfl⟩ := codeOf_eq_some.mp hcode
  rw [matterId_of_mem hai, hmid]
  refine ⟨pyDigits ai.cycleNo.toNat, ?_⟩
  unfold codePrefix
  rw [List.append_assoc _ [':'], List.singleton_append]

lemma PlainTasks.closesOwn (h : PlainTasks inp mid t) (nullToo : Bool) : ClosesOwn mid nullToo t := by
  intro w hw hopen
  constructor
  · intro hown
    obtain ⟨bc, hbc⟩ := exists_code_of_isOwn hown
    obtain ⟨hstart, -⟩ := h.code w hw hown bc hbc
    obtain ⟨st, -, hst⟩ := h.status w hw
    have hlike := (codeLike_of_plain h.pattern w).mpr ⟨bc, hbc, hstart⟩
    simp [closes, hlike, hst]
  · intro hother
    by_contra hcloses
    have htrue : closes mid nullToo w = true := by simpa using hcloses
    obtain ⟨bc, hbc, hstart⟩ := (codeLike_of_plain h.pattern w).mp (Bool.and_eq_true_iff.mp htrue).1
    rw [ofOther_of_case (h.owner w hw bc hbc hstart)] at hother
    cases hother

/-- The workflow that the pattern finds is the matter's. -/
lemma PlainTasks.caseId_of_isStale (h : PlainTasks inp mid t) (hw : w ∈ t.rows)
    (hstale : isStale T inp mid w = true) : w.caseId = some mid := by
  unfold isStale at hstale
  simp only [Bool.and_eq_true] at hstale
  obtain ⟨bc, hbc, hstart⟩ := (codeLike_of_plain h.pattern w).mp hstale.1.1.1
  exact h.owner w hw bc hbc hstart

lemma PlainTasks.isStale_of_isOpen (h : PlainTasks inp mid t) (hw : w ∈ t.rows)
    (hown : isOwn mid w = true) (hopen : isOpen w = true) (hcode : w.businessCode = some bc)
    (hnot : bc ∉ orderedOpenBcs T inp mid) : isStale T inp mid w = true := by
  obtain ⟨hstart, hstripped⟩ := h.code w hw hown bc hcode
  obtain ⟨st, hmem, hst⟩ := h.status w hw
  have hlike := (codeLike_of_plain h.pattern w).mpr ⟨bc, hcode, hstart⟩
  have hne : bc ≠ [] := by
    intro hnil
    rw [hnil] at hstart
    exact List.append_ne_nil_of_right_ne_nil _ (List.cons_ne_nil _ _) (List.prefix_nil.mp hstart)
  have hstatus := isClosed_of_isOpen hst hopen
  unfold isStale
  rw [hcode, hst, Option.getD_some, Option.getD_some, hstripped, stripped_of_mem_statuses hmem]
  simp [hlike, hne, hstatus, hnot]

lemma PlainTasks.reachesOwn (hmid : pyStrip mid = mid) (h : PlainTasks inp mid t) :
    ReachesOwn T inp mid t := by
  have hsettled : ∀ ai ∈ settledItems T inp mid t, ai ∈ itemsOf inp mid := by
    intro ai hai
    obtain ⟨v, -, -, hv⟩ := mem_settledItems.mp hai
    exact (itemOfCode_eq_some (settledItem_eq_some hv).1).1
  have hordered : ∀ bc ∈ orderedOpenBcs T inp mid,
      ∃ ai ∈ itemsOf inp mid, codeOf ai = some bc := by
    intro bc hbc
    obtain ⟨c, hc, rfl⟩ := List.mem_map.mp hbc
    obtain ⟨ai, hai, hcandidate⟩ := List.mem_filterMap.mp (selected_subset hc)
    exact ⟨ai, hai, (candidateOf_eq_some hcandidate).1⟩
  refine ⟨?_, ?_, ?_, ?_, ?_⟩
  · intro bc hbc
    obtain ⟨ai, hai, hcode⟩ := hordered bc hbc
    exact .inr ⟨h.short ai hai bc hcode, h.stored⟩
  · intro ai hai bc hbc
    exact .inr ⟨h.short ai (hsettled ai hai) bc hbc, h.stored⟩
  · intro w hw bc hbc hcode
    obtain ⟨ai, hai, hai'⟩ := hordered bc hbc
    exact h.owner w hw bc hcode (codePrefix_of_codeOf hmid hai hai')
  · intro w hw hown hopen
    obtain ⟨bc, hbc⟩ := exists_code_of_isOwn hown
    obtain ⟨hstart, hstripped⟩ := h.code w hw hown bc hbc
    by_cases hmem : bc ∈ orderedOpenBcs T inp mid
    · exact .inl ⟨bc, hmem, hbc⟩
    · have hstale := h.isStale_of_isOpen hw hown hopen hbc hmem
      cases hitem : settledItem T inp mid w with
      | some ai =>
        have hcode := (itemOfCode_eq_some (settledItem_eq_some hitem).1).2
        rw [hbc, Option.getD_some, hstripped] at hcode
        exact .inr (.inl ⟨ai, mem_settledItems.mpr ⟨w, hw, hstale, hitem⟩, hbc.trans hcode.symm⟩)
      | none =>
        obtain ⟨st, -, hst⟩ := h.status w hw
        have hnot := isClosed_of_isOpen hst hopen
        refine .inr (.inr ?_)
        simp [hides, isHidden, hstale, hitem, hst, hnot]
  · intro w hw hother
    constructor
    · by_contra hnot
      have hhides : hides T inp mid w = true := by simpa using hnot
      obtain ⟨hhidden, -⟩ := Bool.and_eq_true_iff.mp hhides
      have hcase := h.caseId_of_isStale hw (Bool.and_eq_true_iff.mp hhidden).1
      rw [ofOther_of_case hcase] at hother
      cases hother
    · intro ai hai hcode
      obtain ⟨bc, hitem⟩ := listed_written ai (List.mem_append_right _ hai)
      have hbc := (itemOfCode_eq_some hitem).2
      have hcase := h.owner w hw bc (hcode.trans hbc) (codePrefix_of_codeOf hmid (hsettled ai hai) hbc)
      rw [ofOther_of_case hcase] at hother
      cases hother

/-- In the ordinary case the sync reaches the matter's workflows and no others. -/
theorem reaches_of_plain (h : PlainTasks inp (pyStrip matterId) t) : Reaches T inp matterId t := by
  unfold Reaches
  cases hmode : modeOf inp matterId with
  | blank =>
    exfalso
    unfold modeOf at hmode
    rw [if_neg h.named] at hmode
    split_ifs at hmode
  | terminal => exact h.closesOwn true
  | disabled => exact h.closesOwn false
  | managed => exact h.reachesOwn (pyStrip_of_stripped (stripped_pyStrip matterId))

end Plain

section Exactness

variable {T : UnicodeTables} {inp : SyncInput} {mid matterId bc : Text} {ai : AnnuityItem}
  {t t' : WorkflowTable} {new : List Workflow} {w : Workflow}

lemma syncAnnuityWorkflowsForMatter_managed (hmode : modeOf inp matterId = .managed) :
    syncAnnuityWorkflowsForMatter T inp matterId t = syncManaged T inp (pyStrip matterId) t := by
  unfold syncAnnuityWorkflowsForMatter
  rw [hmode]

lemma picked_iff (hdistinct : DistinctCycles inp) (hmode : modeOf inp matterId = .managed) :
    Picked T inp matterId ai ↔ ai ∈ pickedItems T inp (pyStrip matterId) := by
  rw [mem_pickedItems hdistinct]
  exact and_iff_right hmode

lemma eq_of_code {v : Workflow} (h : UniqueCodes t) (hw : w ∈ t.rows) (hv : v ∈ t.rows)
    (hwcode : w.businessCode = some bc) (hvcode : v.businessCode = some bc) : w = v := by
  have : Std.Symm (fun w v : Workflow => w.businessCode = v.businessCode → w.businessCode = none) :=
    ⟨fun _ _ hnone heq => heq.trans (hnone heq.symm)⟩
  by_contra hne
  have hnone := List.Pairwise.forall h hw hv hne (hwcode.trans hvcode.symm)
  rw [hwcode] at hnone
  cases hnone

/-- Where the outcome is exact, the pass has reached the matter's workflows and no others. -/
lemma reachesOwn_of_exact (huniq : UniqueCodes t) (hdistinct : DistinctCycles inp)
    (hmode : modeOf inp matterId = .managed) (h : Passed T inp (pyStrip matterId) t t' new)
    (hexact : Exact T inp matterId t t') : ReachesOwn T inp (pyStrip matterId) t where
  writable bc hbc := by
    obtain ⟨ai, hai, hcode⟩ := exists_picked hdistinct hbc
    exact h.writable ai (List.mem_append_left _ hai) bc hcode
  settles ai hai := h.writable ai (List.mem_append_right _ hai)
  owned w hw bc hbc hcode := by
    obtain ⟨ai, hai, hai'⟩ := exists_picked hdistinct hbc
    obtain ⟨v, ⟨hv, hown, -, hvcode⟩, -⟩ := hexact.one ai ((picked_iff hdistinct hmode).mpr hai)
    have hsame := eq_of_code (h.unique huniq) (h.mem_moved hw) hv
      (businessCode_passRow.trans hcode) (hvcode.trans hai')
    rw [← hsame] at hown
    have hcase := of_decide_eq_true (Bool.and_eq_true_iff.mp hown).1
    rwa [caseId_passRow] at hcase
  closed w hw hown hopen := by
    have hpicked : ∀ ai ∈ pickedItems T inp (pyStrip matterId), w.businessCode = codeOf ai →
        ∃ bc ∈ orderedOpenBcs T inp (pyStrip matterId), w.businessCode = some bc := by
      intro ai hai hcode
      obtain ⟨bc, hmem, hitem⟩ := exists_itemOfCode hai
      exact ⟨bc, hmem, hcode.trans (itemOfCode_eq_some hitem).2⟩
    rcases passRow_cases T inp (pyStrip matterId) t w with
      ⟨ai, hai, hcode, -⟩ | ⟨-, hrow⟩
    · rcases List.mem_append.mp hai with hai | hai
      · exact .inl (hpicked ai hai hcode)
      · exact .inr (.inl ⟨ai, hai, hcode⟩)
    · by_cases hhides : hides T inp (pyStrip matterId) w = true
      · exact .inr (.inr hhides)
      · have hmoved := h.mem_moved hw
        rw [hrow, hideRow_of_not_hides (Bool.eq_false_iff.mpr hhides)] at hmoved
        obtain ⟨ai, hai, hcode⟩ := hexact.only w hmoved hown hopen
        exact .inl (hpicked ai ((picked_iff hdistinct hmode).mp hai) hcode)
  others w hw hother := by
    have hkept := (h.find_passRow hw).mp (hexact.others w hw hother)
    constructor
    · by_contra hnot
      have hhides : hides T inp (pyStrip matterId) w = true := by simpa using hnot
      obtain ⟨hhidden, -⟩ := Bool.and_eq_true_iff.mp hhides
      have hopen := isOpen_of_isStale (Bool.and_eq_true_iff.mp hhidden).1
      rcases passRow_cases T inp (pyStrip matterId) t w with
        ⟨ai, hai, hcode, -⟩ | ⟨-, hrow⟩
      · rw [isHidden_of_written hai hcode] at hhidden
        cases hhidden
      · have hclosed := hideRow_of_hides hhides
        rw [← hrow, hkept, hopen] at hclosed
        cases hclosed
    · intro ai hai hcode
      rw [← passRow_of_written (t := t) (List.mem_append_right _ hai) hcode]
      exact hkept

/-- Where the pass reaches the matter's workflows and no others, the outcome is exact. -/
lemma exact_of_reachesOwn (huniq : UniqueCodes t) (hdistinct : DistinctCycles inp)
    (hmode : modeOf inp matterId = .managed) (h : Passed T inp (pyStrip matterId) t t' new)
    (hsync : syncManaged T inp (pyStrip matterId) t = some t')
    (hreaches : ReachesOwn T inp (pyStrip matterId) t) : Exact T inp matterId t t' where
  one ai hpicked := by
    have hai := (picked_iff hdistinct hmode).mp hpicked
    obtain ⟨bc, hmem, hitem⟩ := exists_itemOfCode hai
    have hcode := (itemOfCode_eq_some hitem).2
    have hwritten : ai ∈ writtenItems T inp (pyStrip matterId) t := List.mem_append_left _ hai
    obtain ⟨v, hv, hvcode⟩ := h.present ai hwritten
    have hcase : v.caseId = some (pyStrip matterId) := by
      rcases h.mem_cases hv with ⟨w, hw, rfl⟩ | hnew
      · rw [caseId_passRow]
        exact hreaches.owned w hw bc hmem (businessCode_passRow.symm.trans (hvcode.trans hcode))
      · obtain ⟨bi, hbi, q, rfl, hqcase, hqcode⟩ := h.written v hnew
        have hmatter : bi ∈ itemsOf inp (pyStrip matterId) := by
          obtain ⟨bc, hitem⟩ := listed_written bi hbi
          exact (itemOfCode_eq_some hitem).1
        rw [matterId_of_mem hmatter] at hqcase
        exact hqcase
    refine ⟨v, ⟨hv, isOwn_of_code hcase (hvcode.trans hcode) hcode, ?_, hvcode⟩, ?_⟩
    · rw [← h.written_again hv hwritten hvcode]
      exact isOpen_writeItem_of_picked (status_of_picked hdistinct hai)
    · rintro u ⟨hu, -, -, hucode⟩
      exact eq_of_code (h.unique huniq) hu hv (hucode.trans hcode) (hvcode.trans hcode)
  only w hw hown hopen := by
    -- a workflow that has been written is open only if its row is picked
    have hwritten : ∀ ai ∈ writtenItems T inp (pyStrip matterId) t, w.businessCode = codeOf ai →
        ∃ ai, Picked T inp matterId ai ∧ w.businessCode = codeOf ai := by
      intro ai hai hcode
      rcases List.mem_append.mp hai with hpicked | hsettled
      · exact ⟨ai, (picked_iff hdistinct hmode).mpr hpicked, hcode⟩
      · rw [← h.written_again hw hai hcode, isOpen_writeItem_of_settled hsettled] at hopen
        cases hopen
    rcases h.mem_cases hw with ⟨v, hv, rfl⟩ | hnew
    · rcases passRow_cases T inp (pyStrip matterId) t v with
        ⟨ai, hai, hcode, -⟩ | ⟨hnot, hrow⟩
      · exact hwritten ai hai (businessCode_passRow.trans hcode)
      · by_cases hhides : hides T inp (pyStrip matterId) v = true
        · rw [hrow, hideRow_of_hides hhides] at hopen
          cases hopen
        · rw [hrow, hideRow_of_not_hides (Bool.eq_false_iff.mpr hhides)] at hown hopen ⊢
          rcases hreaches.closed v hv hown hopen with ⟨bc, hbc, hcode⟩ | ⟨ai, hai, hcode⟩ | hhides'
          · obtain ⟨ai, hai, hai'⟩ := exists_picked hdistinct hbc
            exact ⟨ai, (picked_iff hdistinct hmode).mpr hai, hcode.trans hai'.symm⟩
          · have hmem : ai ∈ writtenItems T inp (pyStrip matterId) t := List.mem_append_right _ hai
            exact absurd (itemOf_of_written hmem hcode) (hnot ai hmem)
          · exact absurd hhides' hhides
    · obtain ⟨ai, hai, q, rfl, -, hcode⟩ := h.written w hnew
      exact hwritten ai hai hcode
  others w hw hother := by
    rw [h.find_passRow hw]
    rcases passRow_cases T inp (pyStrip matterId) t w with
      ⟨ai, hai, hcode, hrow⟩ | ⟨-, hrow⟩
    · rcases List.mem_append.mp hai with hpicked | hsettled
      · obtain ⟨bc, hmem, hitem⟩ := exists_itemOfCode hpicked
        have hcase := hreaches.owned w hw bc hmem (hcode.trans (itemOfCode_eq_some hitem).2)
        rw [ofOther_of_case hcase] at hother
        cases hother
      · rw [hrow]
        exact (hreaches.others w hw hother).2 ai hsettled hcode
    · rw [hrow, hideRow_of_not_hides (hreaches.others w hw hother).1]
  again := by
    obtain ⟨t'', hagain, hrows⟩ := sync_twice hsync
    refine ⟨t'', ?_, by rw [hrows]⟩
    rw [syncAnnuityWorkflowsForMatter_managed hmode]
    exact hagain

/-- The sync is exact if and only if it reaches the matter's workflows and no others. -/
theorem exact_iff_reaches (huniq : UniqueCodes t) (hdistinct : DistinctCycles inp) :
    (∃ t', syncAnnuityWorkflowsForMatter T inp matterId t = some t' ∧ Exact T inp matterId t t') ↔
      Reaches T inp matterId t := by
  unfold Reaches
  cases hmode : modeOf inp matterId with
  | blank =>
    have hnone : ∀ u : WorkflowTable, syncAnnuityWorkflowsForMatter T inp matterId u = some u := by
      intro u
      unfold syncAnnuityWorkflowsForMatter
      rw [hmode]
    have hidle : ∀ ai, ¬ Picked T inp matterId ai := by
      rintro ai ⟨hmanaged, -⟩
      rw [hmode] at hmanaged
      cases hmanaged
    constructor
    · rintro ⟨u, hu, hexact⟩ w hw hown
      obtain rfl := Option.some_inj.mp ((hnone t).symm.trans hu)
      by_contra hopen
      obtain ⟨ai, hpicked, -⟩ := hexact.only w hw hown (by simpa using hopen)
      exact hidle ai hpicked
    · intro hclosed
      refine ⟨t, hnone t, fun ai hpicked => absurd hpicked (hidle ai), ?_,
        fun w hw _ => Table.find_of_mem hw, ⟨t, hnone t, rfl⟩⟩
      intro w hw hown hopen
      rw [hclosed w hw hown] at hopen
      cases hopen
  | terminal =>
    refine exact_closing (f := closeRow inp) (by simp [hmode]) (fun _ => rfl) (fun _ => rfl)
      (fun _ => rfl) (fun _ => rfl) (fun u => ⟨_, ?_, rows_syncTerminal u⟩)
    unfold syncAnnuityWorkflowsForMatter
    rw [hmode]
  | disabled =>
    refine exact_closing (f := abandonRow inp "[Renewal Management Disabled]".toList)
      (by simp [hmode]) (fun _ => rfl) (fun _ => rfl) (fun _ => rfl) (fun _ => rfl)
      (fun u => ⟨_, ?_, rows_syncDisabled u⟩)
    unfold syncAnnuityWorkflowsForMatter
    rw [hmode]
  | managed =>
    constructor
    · rintro ⟨t', hsync, hexact⟩
      rw [syncAnnuityWorkflowsForMatter_managed hmode] at hsync
      obtain ⟨new, h⟩ := passed_of_sync hsync
      exact reachesOwn_of_exact huniq hdistinct hmode h hexact
    · intro hreaches
      obtain ⟨t', hsync⟩ := exists_sync hreaches.writable hreaches.settles
      obtain ⟨new, h⟩ := passed_of_sync hsync
      refine ⟨t', ?_, exact_of_reachesOwn huniq hdistinct hmode h hsync hreaches⟩
      rw [syncAnnuityWorkflowsForMatter_managed hmode]
      exact hsync

end Exactness

section Runs

def jan10 : PyDate := (PyDate.make 2026 1 10).get (Eq.refl true)

def annuityOf (matterId : String) (cycleNo : Int) (status due : String) : AnnuityItem where
  annuityId := matterId.toList
  matterId := matterId.toList
  cycleNo := cycleNo
  annuityStatus := some status.toList
  dueDate := some due.toList

def workflowOf (id : Nat) (caseId : String) (businessCode : Text) (status : Option String)
    (h : businessCode.length ≤ 50 := by decide) : Workflow where
  id := id
  caseId := some caseId.toList
  businessCode := some businessCode
  code_fits := by simpa using h
  status := status.map String.toList

def patentInput : SyncInput where
  today := jan10
  visibleN := 1
  items := [annuityOf "M1" 4 "paid" "2025-05-01", annuityOf "M1" 5 "pending" "2026-05-01",
    annuityOf "M1" 6 "pending" "2027-05-01", annuityOf "M2" 4 "pending" "2026-07-01"]
  workflowName _ := "Annuity".toList
  assignee _ := none

/-- Workflows of a paid cycle, of a later one, of one whose annuity row is gone, of another matter
and of a docket. -/
def patentWorkflows : WorkflowTable where
  rows := [workflowOf 1 "M1" "ANNUITY:M1:4".toList (some "Pending"),
    workflowOf 2 "M1" "ANNUITY:M1:6".toList (some "Pending"),
    workflowOf 3 "M1" "ANNUITY:M1:3".toList (some "In Progress"),
    workflowOf 4 "M2" "ANNUITY:M2:4".toList (some "Pending"),
    workflowOf 5 "M1" "DOCKET:D1:7".toList (some "Pending")]
  next := 6
  ordered := by decide
  fresh := by decide

theorem exact_patentWorkflows : ∃ t', syncAnnuityWorkflowsForMatter asciiTables patentInput
    "M1".toList patentWorkflows = some t' ∧
      Exact asciiTables patentInput "M1".toList patentWorkflows t' := by
  have huniq : UniqueCodes patentWorkflows := by
    unfold UniqueCodes
    decide
  have hdistinct : DistinctCycles patentInput := by
    unfold DistinctCycles
    decide
  have hplain : PlainTasks patentInput (pyStrip "M1".toList) patentWorkflows :=
    ⟨by decide, by decide, rfl, by decide, by decide, by decide, by decide⟩
  exact (exact_iff_reaches huniq hdistinct).mpr (reaches_of_plain hplain)

def oneWorkflow (w : Workflow) : WorkflowTable where
  rows := [w]
  next := w.id + 1
  ordered := List.pairwise_singleton _ _
  fresh v hv := by
    rw [List.mem_singleton.mp hv]
    exact Nat.lt_succ_self _

def withoutStatus : Workflow := workflowOf 1 "M1" "ANNUITY:M1:3".toList none

def lookalike : Workflow := workflowOf 1 "MX1" "ANNUITY:MX1:3".toList (some "Pending")

/-- The workflow without a status stays open when the management of its matter is disabled, and the
sync of the matter `M_1` closes a workflow of the matter `MX1`. -/
theorem not_exact_withoutStatus_lookalike :
    (¬ ∃ t', syncAnnuityWorkflowsForMatter asciiTables { patentInput with managementDisabled := true }
      "M1".toList (oneWorkflow withoutStatus) = some t' ∧
        Exact asciiTables { patentInput with managementDisabled := true } "M1".toList
          (oneWorkflow withoutStatus) t') ∧
    ¬ ∃ t', syncAnnuityWorkflowsForMatter asciiTables patentInput "M_1".toList
      (oneWorkflow lookalike) = some t' ∧
        Exact asciiTables patentInput "M_1".toList (oneWorkflow lookalike) t' := by
  constructor
  · rintro ⟨t', hrun, hexact⟩
    have hkept : (syncAnnuityWorkflowsForMatter asciiTables
        { patentInput with managementDisabled := true } "M1".toList
          (oneWorkflow withoutStatus)).map Table.rows = some [withoutStatus] := by decide +kernel
    rw [hrun, Option.map_some, Option.some_inj] at hkept
    obtain ⟨ai, ⟨hmode, -⟩, -⟩ := hexact.only withoutStatus
      (by rw [hkept]; exact List.mem_singleton_self _) (by decide) (by decide)
    exact absurd hmode (by decide)
  · rintro ⟨t', hrun, hexact⟩
    have hmoved : (syncAnnuityWorkflowsForMatter asciiTables patentInput "M_1".toList
        (oneWorkflow lookalike)).map (fun t => t.find 1) ≠ some (some lookalike) := by decide +kernel
    have hfind := hexact.others lookalike (List.mem_singleton_self _) (by decide)
    rw [hrun, Option.map_some] at hmoved
    exact hmoved (congrArg some hfind)

end Runs

end IpDocket.Workflows.AnnuityTasks
