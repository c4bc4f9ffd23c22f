import IpDocket.Workflows.AnnuityTaskWrites

/-!
# The pass over the workflows of a managed matter

The workflows of the picked rows are opened, those of settled rows are written, and the stale ones
that are left are closed. What is stale does not change while the picked ones are opened, so that the
pass is one step for each workflow, and a second pass on the same day changes nothing.
-/

namespace IpDocket.Workflows.AnnuityTasks
open IpDocket.Lib IpDocket.Annuity

/-- Neither completed nor abandoned; a workflow without a status is open. -/
def isOpen (w : Workflow) : Bool := !w.status.any isClosed

section Pass

variable (T : UnicodeTables) (inp : SyncInput) (mid : Text)

/-- The rows whose workflows are to be open. -/
def pickedItems : List AnnuityItem := (orderedOpenBcs T inp mid).filterMap (itemOfCode inp mid)

/-- The rows that the pass writes. -/
def writtenItems (t : WorkflowTable) : List AnnuityItem :=
  pickedItems T inp mid ++ settledItems T inp mid t

/-- The pass closes the workflow without an annuity row that is settled. -/
def hides (w : Workflow) : Bool := isHidden T inp mid w && w.status.any (!isClosed ·)

def hideTag (w : Workflow) : Text :=
  if (itemOfCode inp mid (pyStrip (w.businessCode.getD []))).isNone then "[Renewal Delete]".toList
  else "[Renewal Auto]".toList

def hideRow (w : Workflow) : Workflow :=
  if hides T inp mid w then abandonRow inp (hideTag inp mid w) w else w

/-- A workflow after the pass over the table `t`. -/
def passRow (t : WorkflowTable) (w : Workflow) : Workflow :=
  match itemOf inp mid w with
  | some ai => if ai ∈ writtenItems T inp mid t then writeItem T inp ai w else hideRow T inp mid w
  | none => hideRow T inp mid w

variable {T inp mid} {ai : AnnuityItem} {bc : Text} {t u t' : WorkflowTable} {w : Workflow}
  {new : List Workflow}

lemma exists_itemOfCode (hai : ai ∈ pickedItems T inp mid) :
    ∃ bc ∈ orderedOpenBcs T inp mid, itemOfCode inp mid bc = some ai :=
  List.mem_filterMap.mp hai

lemma code_mem_ordered (hai : ai ∈ pickedItems T inp mid) (hcode : codeOf ai = some bc) :
    bc ∈ orderedOpenBcs T inp mid := by
  obtain ⟨bc', hmem, hitem⟩ := exists_itemOfCode hai
  rwa [Option.some_inj.mp (hcode.symm.trans (itemOfCode_eq_some hitem).2)]

lemma not_isStale_of_picked (hai : ai ∈ pickedItems T inp mid) (h : w.businessCode = codeOf ai) :
    isStale T inp mid w = false := by
  obtain ⟨bc, hmem, hitem⟩ := exists_itemOfCode hai
  have hcode := (itemOfCode_eq_some hitem).2
  unfold isStale
  rw [h, hcode, Option.getD_some, pyStrip_of_stripped (stripped_codeOf hcode)]
  simp [hmem]

lemma mem_settledItems : ai ∈ settledItems T inp mid t ↔
    ∃ w ∈ t.rows, isStale T inp mid w = true ∧ settledItem T inp mid w = some ai := by
  unfold settledItems
  rw [List.mem_filterMap]
  constructor
  · rintro ⟨w, hw, hsettled⟩
    obtain ⟨hmem, hstale⟩ := List.mem_filter.mp hw
    exact ⟨w, hmem, hstale, hsettled⟩
  · rintro ⟨w, hmem, hstale, hsettled⟩
    exact ⟨w, List.mem_filter.mpr ⟨hmem, hstale⟩, hsettled⟩

lemma settledItem_eq_some (h : settledItem T inp mid w = some ai) :
    itemOfCode inp mid (pyStrip (w.businessCode.getD [])) = some ai ∧
      (computeStatus T inp.today ai = .paid ∨ computeStatus T inp.today ai = .giveup) := by
  obtain ⟨hitem, hstatus⟩ := Option.filter_eq_some_iff.mp h
  simp only [Bool.or_eq_true, decide_eq_true_eq] at hstatus
  exact ⟨hitem, hstatus⟩

/-- The workflow of a row that the pass writes is not hidden. -/
lemma isHidden_of_written (hai : ai ∈ writtenItems T inp mid t) (h : w.businessCode = codeOf ai) :
    isHidden T inp mid w = false := by
  unfold isHidden
  rcases List.mem_append.mp hai with hpicked | hsettled
  · rw [not_isStale_of_picked hpicked h, Bool.false_and]
  · obtain ⟨v, -, -, hv⟩ := mem_settledItems.mp hsettled
    obtain ⟨hitem, hstatus⟩ := settledItem_eq_some hv
    have hcode := (itemOfCode_eq_some hitem).2
    have hsome : settledItem T inp mid w = some ai := by
      unfold settledItem
      rw [h, hcode, Option.getD_some, pyStrip_of_stripped (stripped_codeOf hcode), hitem]
      refine Option.filter_eq_some_iff.mpr ⟨rfl, ?_⟩
      simpa only [Bool.or_eq_true, decide_eq_true_eq] using hstatus
    rw [hsome, Option.isNone_some, Bool.and_false]

lemma listed_written : ∀ ai ∈ writtenItems T inp mid t, ∃ bc, itemOfCode inp mid bc = some ai := by
  intro ai hai
  rcases List.mem_append.mp hai with hpicked | hsettled
  · obtain ⟨bc, -, hitem⟩ := exists_itemOfCode hpicked
    exact ⟨bc, hitem⟩
  · obtain ⟨v, -, -, hv⟩ := mem_settledItems.mp hsettled
    exact ⟨_, (settledItem_eq_some hv).1⟩

lemma filter_map_of_cases {α : Type*} {p : α → Bool} {f : α → α} {l : List α}
    (h : ∀ a ∈ l, f a = a ∨ (p a = false ∧ p (f a) = false)) : (l.map f).filter p = l.filter p := by
  induction l with
  | nil => rfl
  | cons a l ih =>
    have hrest := ih (fun b hb => h b (List.mem_cons_of_mem a hb))
    rw [List.map_cons]
    rcases h a List.mem_cons_self with heq | ⟨hold, hnew⟩
    · rw [heq, List.filter_cons, List.filter_cons, hrest]
    · rw [List.filter_cons_of_neg (by simp [hnew]), List.filter_cons_of_neg (by simp [hold]), hrest]

/-- Opening the picked workflows leaves the stale ones as they are. -/
lemma filter_opened {p : Workflow → Bool} (hp : ∀ w, p w = true → isStale T inp mid w = true)
    (h : Upserted T inp mid (pickedItems T inp mid) t u new) :
    u.rows.filter p = t.rows.filter p := by
  have hnot : ∀ (v : Workflow) (ai : AnnuityItem), ai ∈ pickedItems T inp mid →
      v.businessCode = codeOf ai → p v = false := by
    intro v ai hai hcode
    by_contra htrue
    have hstale := hp v (by simpa using htrue)
    rw [not_isStale_of_picked hai hcode] at hstale
    cases hstale
  have hnew : new.filter p = [] := by
    apply List.filter_eq_nil_iff.mpr
    intro n hn
    obtain ⟨ai, hai, q, rfl, -, hcode⟩ := h.written n hn
    have hfalse := hnot (writeItem T inp ai q) ai hai hcode
    simp [hfalse]
  rw [h.rows, List.filter_append, hnew, List.append_nil]
  refine filter_map_of_cases (fun w _ => ?_)
  rcases writeAs_cases T inp mid (pickedItems T inp mid) w with heq | ⟨ai, hai, hitem, heq⟩
  · exact .inl heq
  · right
    rw [heq]
    exact ⟨hnot w ai hai (businessCode_of_itemOf hitem), hnot _ ai hai (businessCode_of_itemOf hitem)⟩

/-- The pass in one go: what is stale is the same before and after the workflows are opened. -/
lemma syncManaged_eq (t : WorkflowTable) : syncManaged T inp mid t =
    (upsertAll T inp (writtenItems T inp mid t) t).map (fun u =>
      abandonAnnuityWorkflows inp (hideIds T inp mid true t) "[Renewal Delete]".toList
        (abandonAnnuityWorkflows inp (hideIds T inp mid false t) "[Renewal Auto]".toList u)) := by
  have happend : upsertAll T inp (writtenItems T inp mid t) t =
      (upsertAll T inp (pickedItems T inp mid) t).bind (upsertAll T inp (settledItems T inp mid t)) := by
    unfold upsertAll writtenItems
    exact List.foldlM_append
  unfold syncManaged
  rw [happend]
  change (upsertAll T inp (pickedItems T inp mid) t).bind _ = _
  cases hopened : upsertAll T inp (pickedItems T inp mid) t with
  | none => rfl
  | some opened =>
    obtain ⟨new, hspec⟩ := upsertAll_spec (fun ai hai => (exists_itemOfCode hai).imp (fun _ h => h.2)) hopened
    have hsettled : settledItems T inp mid opened = settledItems T inp mid t := by
      unfold settledItems
      rw [filter_opened (fun _ h => h) hspec]
    have hhide : ∀ deleted, hideIds T inp mid deleted opened = hideIds T inp mid deleted t := by
      intro deleted
      unfold hideIds
      rw [filter_opened (fun w h => ?_) hspec]
      simp only [isHidden, Bool.and_eq_true] at h
      exact h.1.1
    rw [Option.bind_some, Option.bind_some, hsettled, hhide, hhide]
    cases upsertAll T inp (settledItems T inp mid t) opened <;> rfl

lemma mem_hideIds (hw : w ∈ t.rows) (deleted : Bool) : w.id ∈ hideIds T inp mid deleted t ↔
    isHidden T inp mid w = true ∧
      (itemOfCode inp mid (pyStrip (w.businessCode.getD []))).isNone = deleted := by
  unfold hideIds
  rw [List.mem_map]
  constructor
  · rintro ⟨v, hv, hid⟩
    obtain ⟨hmem, hkeeps⟩ := List.mem_filter.mp hv
    rw [Table.eq_of_key_eq hmem hw hid] at hkeeps
    simpa only [Bool.and_eq_true, decide_eq_true_eq] using hkeeps
  · intro h
    refine ⟨w, List.mem_filter.mpr ⟨hw, ?_⟩, rfl⟩
    simpa only [Bool.and_eq_true, decide_eq_true_eq] using h

/-- The condition of `_abandon_annuity_workflows`. -/
def abandons (ids : List Nat) (w : Workflow) : Bool := w.id ∈ ids && w.status.any (!isClosed ·)

lemma rows_abandon (ids : List Nat) (tag : Text) (u : WorkflowTable) :
    (abandonAnnuityWorkflows inp ids tag u).rows = u.rows.map (onRows (abandons ids) (abandonRow inp tag)) :=
  rfl

lemma onRows_of_false {p : Workflow → Bool} {f : Workflow → Workflow} (h : p w = false) :
    onRows p f w = w := if_neg (by simp [h])

lemma onRows_of_true {p : Workflow → Bool} {f : Workflow → Workflow} (h : p w = true) :
    onRows p f w = f w := if_pos h

/-- The two `UPDATE`s on a workflow that has its values. -/
lemma abandon_written {v : Workflow} (hw : w ∈ t.rows) (hid : v.id = w.id)
    (h : isHidden T inp mid w = false) (deleted : Bool) (tag : Text) :
    onRows (abandons (hideIds T inp mid deleted t)) (abandonRow inp tag) v = v := by
  apply onRows_of_false
  have hnot : v.id ∉ hideIds T inp mid deleted t := by
    rw [hid, mem_hideIds hw]
    rintro ⟨htrue, -⟩
    rw [h] at htrue
    cases htrue
  simp [abandons, hnot]

lemma abandon_hidden (hw : w ∈ t.rows) :
    onRows (abandons (hideIds T inp mid true t)) (abandonRow inp "[Renewal Delete]".toList)
      (onRows (abandons (hideIds T inp mid false t)) (abandonRow inp "[Renewal Auto]".toList) w) =
      hideRow T inp mid w := by
  by_cases hhides : hides T inp mid w = true
  · rw [hideRow, if_pos hhides]
    obtain ⟨hhidden, hopen⟩ := Bool.and_eq_true_iff.mp hhides
    by_cases hnone : (itemOfCode inp mid (pyStrip (w.businessCode.getD []))).isNone = true
    · have hfirst : abandons (hideIds T inp mid false t) w = false := by
        have hnot : w.id ∉ hideIds T inp mid false t := by
          rw [mem_hideIds hw, hnone]
          simp
        simp [abandons, hnot]
      have hsecond : abandons (hideIds T inp mid true t) w = true :=
        Bool.and_eq_true_iff.mpr ⟨decide_eq_true ((mem_hideIds hw true).mpr ⟨hhidden, hnone⟩), hopen⟩
      rw [onRows_of_false hfirst, onRows_of_true hsecond, hideTag, if_pos hnone]
    · have hfirst : abandons (hideIds T inp mid false t) w = true :=
        Bool.and_eq_true_iff.mpr ⟨decide_eq_true ((mem_hideIds hw false).mpr
          ⟨hhidden, Bool.eq_false_iff.mpr hnone⟩), hopen⟩
      rw [hideTag, if_neg hnone, onRows_of_true hfirst]
      exact onRows_of_false (by simp [abandons, abandonRow, isClosed])
  · rw [hideRow, if_neg hhides]
    have hkept : ∀ deleted, abandons (hideIds T inp mid deleted t) w = false := by
      intro deleted
      by_contra hnot
      have htrue : abandons (hideIds T inp mid deleted t) w = true := by simpa using hnot
      obtain ⟨hmem, hopen⟩ := Bool.and_eq_true_iff.mp htrue
      have hhidden := ((mem_hideIds hw deleted).mp (of_decide_eq_true hmem)).1
      exact hhides (Bool.and_eq_true_iff.mpr ⟨hhidden, hopen⟩)
    rw [onRows_of_false (hkept false), onRows_of_false (hkept true)]

/-- What the pass makes of a table: every workflow is moved by `passRow`, and those are added of the
written rows that have none. -/
structure Passed (T : UnicodeTables) (inp : SyncInput) (mid : Text) (t t' : WorkflowTable)
    (new : List Workflow) : Prop where
  rows : t'.rows = t.rows.map (passRow T inp mid t) ++ new
  written : ∀ n ∈ new, ∃ ai ∈ writtenItems T inp mid t, ∃ q, n = writeItem T inp ai q ∧
    q.caseId = some ai.matterId ∧ q.businessCode = codeOf ai
  absent : ∀ n ∈ new, ∀ w ∈ t.rows, w.businessCode ≠ n.businessCode
  writable : ∀ ai ∈ writtenItems T inp mid t, ∀ bc ∈ codeOf ai, Writable inp t bc
  present : ∀ ai ∈ writtenItems T inp mid t, ∃ w ∈ t'.rows, w.businessCode = codeOf ai
  unique : UniqueCodes t → UniqueCodes t'

lemma businessCode_passRow : (passRow T inp mid t w).businessCode = w.businessCode := by
  unfold passRow hideRow
  split <;> split <;> first | rfl | (split <;> rfl)

theorem passed_of_sync (h : syncManaged T inp mid t = some t') :
    ∃ new, Passed T inp mid t t' new := by
  rw [syncManaged_eq] at h
  obtain ⟨u, hu, rfl⟩ := Option.map_eq_some_iff.mp h
  obtain ⟨new, hspec⟩ := upsertAll_spec listed_written hu
  have hbetween : ∀ n ∈ new, ∀ deleted tag,
      onRows (abandons (hideIds T inp mid deleted t)) (abandonRow inp tag) n = n := by
    intro n hn deleted tag
    apply onRows_of_false
    -- the ids of new workflows come after those of the table
    have hnot : n.id ∉ hideIds T inp mid deleted t := by
      intro hmem
      obtain ⟨w, hw, hid⟩ := List.mem_map.mp hmem
      have hordered := u.ordered
      rw [hspec.rows, List.pairwise_append] at hordered
      have hlt := hordered.2.2 _ (List.mem_map_of_mem (List.mem_filter.mp hw).1) n hn
      rw [id_writeAs] at hlt
      omega
    simp [abandons, hnot]
  have hrows : (abandonAnnuityWorkflows inp (hideIds T inp mid true t) "[Renewal Delete]".toList
      (abandonAnnuityWorkflows inp (hideIds T inp mid false t) "[Renewal Auto]".toList u)).rows =
        t.rows.map (passRow T inp mid t) ++ new := by
    rw [rows_abandon, rows_abandon, hspec.rows, List.map_append, List.map_append]
    congr 1
    · rw [List.map_map, List.map_map]
      refine List.map_congr_left (fun w hw => ?_)
      change onRows _ _ (onRows _ _ (writeAs T inp mid (writtenItems T inp mid t) w)) = _
      unfold passRow
      cases hitem : itemOf inp mid w with
      | none =>
        rw [writeAs_of_not_mem (fun ai _ => by rw [hitem]; simp)]
        exact abandon_hidden hw
      | some ai =>
        dsimp only
        by_cases hmem : ai ∈ writtenItems T inp mid t
        · rw [writeAs_of_mem hitem hmem, if_pos hmem]
          have hhidden := isHidden_of_written hmem (businessCode_of_itemOf hitem)
          have hkept := abandon_written (v := writeItem T inp ai w) hw rfl hhidden
          rw [hkept, hkept]
        · rw [if_neg hmem, writeAs_of_not_mem (fun bi hbi heq => hmem ?_)]
          · exact abandon_hidden hw
          · rwa [← Option.some_inj.mp (hitem.symm.trans heq)] at hbi
    · rw [List.map_map]
      conv_rhs => rw [← List.map_id new]
      refine List.map_congr_left (fun n hn => ?_)
      change onRows _ _ (onRows _ _ n) = n
      rw [hbetween n hn, hbetween n hn]
  refine ⟨new, hrows, hspec.written, hspec.absent, fun ai hai bc hbc => hspec.writable_of_code hai hbc,
    ?_, ?_⟩
  · intro ai hai
    obtain ⟨w, hw, hcode⟩ := hspec.present ai hai
    refine ⟨_, List.mem_map_of_mem (List.mem_map_of_mem hw), ?_⟩
    rw [← hcode]
    unfold onRows
    split <;> split <;> rfl
  · intro huniq
    have hfirst := uniqueCodes_of_map (f := onRows (abandons (hideIds T inp mid false t))
      (abandonRow inp "[Renewal Auto]".toList)) (fun w => by unfold onRows; split <;> rfl)
      (rows_abandon _ _ u) (hspec.unique huniq)
    exact uniqueCodes_of_map (fun w => by unfold onRows; split <;> rfl) (rows_abandon _ _ _) hfirst

/-- How a workflow comes out of the pass. -/
lemma passRow_cases (T : UnicodeTables) (inp : SyncInput) (mid : Text) (t : WorkflowTable)
    (w : Workflow) :
    (∃ ai ∈ writtenItems T inp mid t, w.businessCode = codeOf ai ∧
      passRow T inp mid t w = writeItem T inp ai w) ∨
    ((∀ ai ∈ writtenItems T inp mid t, itemOf inp mid w ≠ some ai) ∧
      passRow T inp mid t w = hideRow T inp mid w) := by
  unfold passRow
  cases hitem : itemOf inp mid w with
  | none => exact .inr ⟨by simp, rfl⟩
  | some ai =>
    dsimp only
    by_cases hmem : ai ∈ writtenItems T inp mid t
    · rw [if_pos hmem]
      exact .inl ⟨ai, hmem, businessCode_of_itemOf hitem, rfl⟩
    · rw [if_neg hmem]
      refine .inr ⟨fun bi hbi heq => hmem ?_, rfl⟩
      rwa [← Option.some_inj.mp heq] at hbi

end Pass

section Statuses

variable {T : UnicodeTables} {inp : SyncInput} {mid bc : Text} {ai : AnnuityItem} {c : Candidate}
  {t t' : WorkflowTable} {w : Workflow}

lemma candidateOf_eq_some (h : candidateOf T inp ai = some c) : codeOf ai = some c.code ∧
    (computeStatus T inp.today ai = .pending ∨ computeStatus T inp.today ai = .overdue) := by
  unfold candidateOf at h
  obtain ⟨bc, hcode, h⟩ := Option.bind_eq_some_iff.mp h
  split at h
  · next hstatus =>
    obtain ⟨due, -, h⟩ := Option.bind_eq_some_iff.mp h
    obtain rfl := Option.some_inj.mp h
    exact ⟨hcode, .inl hstatus⟩
  · next hstatus =>
    obtain ⟨due, -, h⟩ := Option.bind_eq_some_iff.mp h
    obtain rfl := Option.some_inj.mp h
    exact ⟨hcode, .inr hstatus⟩
  · cases h

lemma selected_subset (h : c ∈ selected T inp mid) : c ∈ candidates T inp mid := by
  unfold selected at h
  dsimp only at h
  split at h
  · have hmem := List.mem_of_mem_take h
    rw [List.mem_insertionSort] at hmem
    exact (List.mem_filter.mp hmem).1
  · have hmem := List.mem_of_mem_take h
    rwa [List.mem_insertionSort] at hmem

/-- With distinct cycles the picked rows are those whose workflows are opened. -/
lemma mem_pickedItems (hdistinct : DistinctCycles inp) : ai ∈ pickedItems T inp mid ↔
    ai ∈ itemsOf inp mid ∧ ∃ c ∈ selected T inp mid, candidateOf T inp ai = some c := by
  constructor
  · intro hai
    obtain ⟨bc, hmem, hitem⟩ := exists_itemOfCode hai
    obtain ⟨c, hc, rfl⟩ := List.mem_map.mp hmem
    obtain ⟨bi, hbi, hcandidate⟩ := List.mem_filterMap.mp (selected_subset hc)
    have hcode := (candidateOf_eq_some hcandidate).1
    have heq : some bi = some ai := (itemOfCode_of_mem hdistinct hbi hcode).symm.trans hitem
    obtain rfl := Option.some_inj.mp heq
    exact ⟨hbi, c, hc, hcandidate⟩
  · rintro ⟨hai, c, hc, hcandidate⟩
    have hcode := (candidateOf_eq_some hcandidate).1
    exact List.mem_filterMap.mpr ⟨c.code, List.mem_map_of_mem hc, itemOfCode_of_mem hdistinct hai hcode⟩

/-- A picked row is neither paid nor given up. -/
lemma status_of_picked (hdistinct : DistinctCycles inp) (hai : ai ∈ pickedItems T inp mid) :
    computeStatus T inp.today ai = .pending ∨ computeStatus T inp.today ai = .overdue := by
  obtain ⟨-, c, -, hcandidate⟩ := (mem_pickedItems hdistinct).mp hai
  exact (candidateOf_eq_some hcandidate).2

lemma exists_picked (hdistinct : DistinctCycles inp) (h : bc ∈ orderedOpenBcs T inp mid) :
    ∃ ai ∈ pickedItems T inp mid, codeOf ai = some bc := by
  obtain ⟨c, hc, rfl⟩ := List.mem_map.mp h
  obtain ⟨ai, hai, hcandidate⟩ := List.mem_filterMap.mp (selected_subset hc)
  exact ⟨ai, (mem_pickedItems hdistinct).mpr ⟨hai, c, hc, hcandidate⟩,
    (candidateOf_eq_some hcandidate).1⟩

lemma isOpen_writeItem_of_picked
    (h : computeStatus T inp.today ai = .pending ∨ computeStatus T inp.today ai = .overdue) :
    isOpen (writeItem T inp ai w) = true := by
  have hstatus : (writeItem T inp ai w).status = some "Pending".toList := by
    unfold writeItem
    rcases h with h | h
    · rw [h]
    · rw [h]
  rw [isOpen, hstatus]
  decide

lemma isOpen_writeItem_of_settled (h : ai ∈ settledItems T inp mid t) :
    isOpen (writeItem T inp ai w) = false := by
  obtain ⟨v, -, -, hv⟩ := mem_settledItems.mp h
  rcases (settledItem_eq_some hv).2 with h | h
  · have hstatus : (writeItem T inp ai w).status = some "Completed".toList := by
      unfold writeItem
      rw [h]
    rw [isOpen, hstatus]
    decide
  · have hstatus : (writeItem T inp ai w).status = some "Abandoned".toList := by
      unfold writeItem
      rw [h]
    rw [isOpen, hstatus]
    decide

lemma isOpen_of_stripped (h : isClosed (pyStrip (w.status.getD [])) = false) : isOpen w = true := by
  unfold isOpen
  cases hstatus : w.status with
  | none => rfl
  | some st =>
    rw [hstatus, Option.getD_some] at h
    by_contra hclosed
    have hst : isClosed st = true := by simpa using hclosed
    have hplain : pyStrip st = st := by
      have hmem : st ∈ ["Completed", "Abandoned"].map String.toList := of_decide_eq_true hst
      simp only [List.map_cons, List.map_nil, List.mem_cons, List.not_mem_nil, or_false] at hmem
      rcases hmem with rfl | rfl <;> decide
    rw [hplain, hst] at h
    cases h

lemma isOpen_of_isStale (h : isStale T inp mid w = true) : isOpen w = true := by
  unfold isStale at h
  simp only [Bool.and_eq_true, Bool.not_eq_true', decide_eq_true_eq] at h
  exact isOpen_of_stripped h.1.2

lemma hideRow_of_hides (h : hides T inp mid w = true) : isOpen (hideRow T inp mid w) = false := by
  rw [hideRow, if_pos h]
  rfl

lemma hideRow_of_not_hides (h : hides T inp mid w = false) : hideRow T inp mid w = w := by
  rw [hideRow, if_neg (by simp [h])]

lemma id_passRow : (passRow T inp mid t w).id = w.id := by
  unfold passRow hideRow
  split <;> split <;> first | rfl | (split <;> rfl)

lemma caseId_passRow : (passRow T inp mid t w).caseId = w.caseId := by
  unfold passRow hideRow
  split <;> split <;> first | rfl | (split <;> rfl)

end Statuses

section Managed

variable {T : UnicodeTables} {inp : SyncInput} {mid bc : Text} {ai : AnnuityItem}
  {t t' : WorkflowTable} {new : List Workflow} {w : Workflow}

lemma Passed.mem_moved (h : Passed T inp mid t t' new) (hw : w ∈ t.rows) :
    passRow T inp mid t w ∈ t'.rows := by
  rw [h.rows]
  exact List.mem_append_left _ (List.mem_map_of_mem hw)

lemma Passed.mem_cases (h : Passed T inp mid t t' new) (hw : w ∈ t'.rows) :
    (∃ v ∈ t.rows, w = passRow T inp mid t v) ∨ w ∈ new := by
  rw [h.rows] at hw
  rcases List.mem_append.mp hw with hw | hw
  · obtain ⟨v, hv, rfl⟩ := List.mem_map.mp hw
    exact .inl ⟨v, hv, rfl⟩
  · exact .inr hw

lemma itemOf_of_written (hai : ai ∈ writtenItems T inp mid t) (h : w.businessCode = codeOf ai) :
    itemOf inp mid w = some ai := by
  obtain ⟨bc, hitem⟩ := listed_written ai hai
  exact itemOf_of_code hitem h

lemma passRow_of_written (hai : ai ∈ writtenItems T inp mid t) (h : w.businessCode = codeOf ai) :
    passRow T inp mid t w = writeItem T inp ai w := by
  unfold passRow
  rw [itemOf_of_written hai h]
  exact if_pos hai

/-- After the pass the workflow of a written row has its values. -/
lemma Passed.written_again (h : Passed T inp mid t t' new) (hw : w ∈ t'.rows)
    (hai : ai ∈ writtenItems T inp mid t) (hcode : w.businessCode = codeOf ai) :
    writeItem T inp ai w = w := by
  rcases h.mem_cases hw with ⟨v, hv, rfl⟩ | hnew
  · rw [businessCode_passRow] at hcode
    rw [passRow_of_written hai hcode, writeItem_writeItem]
  · obtain ⟨bi, hbi, q, rfl, -, hqcode⟩ := h.written w hnew
    have hitem : itemOf inp mid (writeItem T inp bi q) = some bi := itemOf_of_written hbi hqcode
    have heq : some bi = some ai := hitem.symm.trans (itemOf_of_written hai hcode)
    obtain rfl := Option.some_inj.mp heq
    exact writeItem_writeItem bi q

lemma isStale_writeItem (hai : ai ∈ writtenItems T inp mid t) (h : w.businessCode = codeOf ai) :
    isStale T inp mid (writeItem T inp ai w) = false := by
  rcases List.mem_append.mp hai with hpicked | hsettled
  · exact not_isStale_of_picked hpicked h
  · by_contra hnot
    have hstale : isStale T inp mid (writeItem T inp ai w) = true := by simpa using hnot
    have hopen := isOpen_of_isStale hstale
    rw [isOpen_writeItem_of_settled hsettled] at hopen
    cases hopen

/-- What is stale after the pass was there before, and the `UPDATE` that closes has passed over it. -/
lemma Passed.stale_before (h : Passed T inp mid t t' new) (hw : w ∈ t'.rows)
    (hstale : isStale T inp mid w = true) : w ∈ t.rows ∧ hides T inp mid w = false := by
  rcases h.mem_cases hw with ⟨v, hv, rfl⟩ | hnew
  · rcases passRow_cases T inp mid t v with ⟨ai, hai, hcode, hrow⟩ | ⟨-, hrow⟩
    · rw [hrow, isStale_writeItem hai hcode] at hstale
      cases hstale
    · by_cases hhides : hides T inp mid v = true
      · have hopen := isOpen_of_isStale hstale
        rw [hrow, hideRow_of_hides hhides] at hopen
        cases hopen
      · have hnot := Bool.eq_false_iff.mpr hhides
        rw [hrow, hideRow_of_not_hides hnot]
        exact ⟨hv, hnot⟩
  · obtain ⟨ai, hai, q, rfl, -, hcode⟩ := h.written w hnew
    rw [isStale_writeItem hai hcode] at hstale
    cases hstale

lemma Passed.writtenItems_subset (h : Passed T inp mid t t' new)
    (hai : ai ∈ writtenItems T inp mid t') : ai ∈ writtenItems T inp mid t := by
  rcases List.mem_append.mp hai with hpicked | hsettled
  · exact List.mem_append_left _ hpicked
  · obtain ⟨w, hw, hstale, hitem⟩ := mem_settledItems.mp hsettled
    exact List.mem_append_right _ (mem_settledItems.mpr ⟨w, (h.stale_before hw hstale).1, hstale, hitem⟩)

/-- A second pass on the same day changes nothing. -/
theorem sync_twice (hsync : syncManaged T inp mid t = some t') :
    ∃ t'', syncManaged T inp mid t' = some t'' ∧ t''.rows = t'.rows := by
  obtain ⟨new, h⟩ := passed_of_sync hsync
  have hwritable : ∀ ai ∈ writtenItems T inp mid t', ∀ bc ∈ codeOf ai, Writable inp t' bc := by
    intro ai hai bc hbc
    obtain ⟨w, hw, hcode⟩ := h.present ai (h.writtenItems_subset hai)
    exact .inl ⟨w, hw, hcode.trans hbc⟩
  obtain ⟨u, hu⟩ := exists_upsertAll (T := T) (t := t') listed_written hwritable
  obtain ⟨new', hspec⟩ := upsertAll_spec listed_written hu
  have hrows : u.rows = t'.rows := by
    refine hspec.rows_of_written (fun ai hai => h.present ai (h.writtenItems_subset hai)) ?_
    intro w hw ai hai hitem
    exact h.written_again hw (h.writtenItems_subset hai) (businessCode_of_itemOf hitem)
  rw [syncManaged_eq, hu]
  refine ⟨_, rfl, ?_⟩
  rw [rows_abandon, rows_abandon, hrows, List.map_map]
  conv_rhs => rw [← List.map_id t'.rows]
  refine List.map_congr_left (fun w hw => ?_)
  have hkept : hides T inp mid w = false := by
    by_contra hnot
    have hhides : hides T inp mid w = true := by simpa using hnot
    obtain ⟨hhidden, -⟩ := Bool.and_eq_true_iff.mp hhides
    obtain ⟨hstale, -⟩ := Bool.and_eq_true_iff.mp hhidden
    exact hnot (h.stale_before hw hstale).2
  exact (abandon_hidden hw).trans (hideRow_of_not_hides hkept)

lemma Passed.find_passRow (h : Passed T inp mid t t' new) (hw : w ∈ t.rows) :
    t'.find w.id = some w ↔ passRow T inp mid t w = w := by
  have hfind := Table.find_of_mem (h.mem_moved hw)
  rw [id_passRow] at hfind
  rw [hfind, Option.some_inj]

lemma exists_sync (hpicked : ∀ bc ∈ orderedOpenBcs T inp mid, Writable inp t bc)
    (hsettled : ∀ ai ∈ settledItems T inp mid t, ∀ bc ∈ codeOf ai, Writable inp t bc) :
    ∃ t', syncManaged T inp mid t = some t' := by
  have hall : ∀ ai ∈ writtenItems T inp mid t, ∀ bc ∈ codeOf ai, Writable inp t bc := by
    intro ai hai bc hbc
    rcases List.mem_append.mp hai with hai | hai
    · exact hpicked bc (code_mem_ordered hai hbc)
    · exact hsettled ai hai bc hbc
  obtain ⟨u, hu⟩ := exists_upsertAll (T := T) (t := t) listed_written hall
  rw [syncManaged_eq, hu]
  exact ⟨_, rfl⟩

end Managed

end IpDocket.Workflows.AnnuityTasks
