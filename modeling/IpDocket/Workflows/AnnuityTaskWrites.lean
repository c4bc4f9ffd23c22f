import IpDocket.Lib.Decimal
import IpDocket.Lib.Lines
import IpDocket.Workflows.AnnuityTasks
import Mathlib.Data.List.Pairwise

/-!
# What the sync writes into a workflow

Annuity rows are written one after another, each into the workflow of its code, which is opened if
there is none. Row by row this is one step: a workflow takes the values of its annuity row if that
is among the written ones. Writing a workflow twice is writing it once.
-/

namespace IpDocket.Workflows.AnnuityTasks
open IpDocket.Lib IpDocket.Annuity

section Notes

/-- The lines of a note that stay. -/
def keptNoteLines (note : Option Text) : List Text :=
  (((splitLines (note.getD [])).map pyStrip).filter keepsNoteLine).foldl (keepFirst id) []

lemma stripAnnuityAutoNoteTags_eq (note : Option Text) : stripAnnuityAutoNoteTags note =
    if keptNoteLines note = [] then none else some (joinLines (keptNoteLines note)) := rfl

lemma mem_keptNoteLines {note : Option Text} {line : Text} (h : line ∈ keptNoteLines note) :
    keepsNoteLine line = true ∧ Stripped line ∧ ∀ c ∈ line, isLineBreak c = false := by
  rcases mem_of_mem_foldl_keepFirst h with hnone | h
  · cases hnone
  · obtain ⟨hmem, hkeeps⟩ := List.mem_filter.mp h
    obtain ⟨source, hsource, rfl⟩ := List.mem_map.mp hmem
    exact ⟨hkeeps, stripped_pyStrip source,
      fun c hc => isLineBreak_of_mem_splitLinesFrom hsource c ((pyStrip_sublist source).mem hc)⟩

lemma keptNoteLines_joinLines (note : Option Text) :
    keptNoteLines (some (joinLines (keptNoteLines note))) = keptNoteLines note := by
  have hlines : splitLines (joinLines (keptNoteLines note)) = keptNoteLines note := by
    refine splitLines_joinLines (fun line hline hnil => ?_)
      (fun line hline => (mem_keptNoteLines hline).2.2)
    have hkeeps := (mem_keptNoteLines hline).1
    rw [hnil] at hkeeps
    cases hkeeps
  have hstrip : (keptNoteLines note).map pyStrip = keptNoteLines note := by
    conv_rhs => rw [← List.map_id (keptNoteLines note)]
    exact List.map_congr_left (fun line hline => pyStrip_of_stripped (mem_keptNoteLines hline).2.1)
  have hfilter : (keptNoteLines note).filter keepsNoteLine = keptNoteLines note :=
    List.filter_eq_self.mpr (fun line hline => (mem_keptNoteLines hline).1)
  have hdistinct : (keptNoteLines note).Pairwise (fun r q => id r ≠ id q) :=
    pairwise_foldl_keepFirst .nil
  conv_lhs => rw [keptNoteLines, Option.getD_some, hlines, hstrip, hfilter]
  rw [foldl_keepFirst_of_pairwise hdistinct, List.nil_append]

lemma stripAnnuityAutoNoteTags_twice (note : Option Text) :
    stripAnnuityAutoNoteTags (stripAnnuityAutoNoteTags note) = stripAnnuityAutoNoteTags note := by
  rw [stripAnnuityAutoNoteTags_eq note]
  by_cases hnil : keptNoteLines note = []
  · rw [if_pos hnil]
    rfl
  · rw [if_neg hnil, stripAnnuityAutoNoteTags_eq, keptNoteLines_joinLines, if_neg hnil]

end Notes

section Codes

variable {inp : SyncInput} {mid : Text} {ai bi : AnnuityItem} {bc : Text}

lemma codeOf_eq_some : codeOf ai = some bc ↔ pyStrip ai.matterId ≠ [] ∧ 0 < ai.cycleNo ∧
    bc = "ANNUITY:".toList ++ pyStrip ai.matterId ++ ':' :: pyDigits ai.cycleNo.toNat := by
  unfold codeOf annuityBusinessCode
  dsimp only
  by_cases hskip : pyStrip ai.matterId = [] ∨ ai.cycleNo ≤ 0
  · rw [if_pos hskip]
    constructor
    · intro h
      cases h
    · rintro ⟨hmid, hcycle, -⟩
      rcases hskip with h | h
      · exact absurd h hmid
      · omega
  · rw [if_neg hskip, Option.some_inj]
    push Not at hskip
    constructor
    · rintro rfl
      exact ⟨hskip.1, hskip.2, rfl⟩
    · rintro ⟨-, -, rfl⟩
      rfl

/-- A code starts with a letter and ends with a digit. -/
lemma stripped_codeOf (h : codeOf ai = some bc) : Stripped bc := by
  obtain ⟨-, -, rfl⟩ := codeOf_eq_some.mp h
  constructor
  · intro c hc
    obtain rfl : 'A' = c := Option.some_inj.mp hc
    decide
  · intro c hc
    have hdigits := pyDigits_ne_nil ai.cycleNo.toNat
    have hlast : c ∈ (pyDigits ai.cycleNo.toNat).getLast? := by
      rw [List.getLast?_append, List.getLast?_cons_of_ne_nil hdigits,
        Option.or_of_isSome (List.getLast?_isSome.mpr hdigits)] at hc
      exact hc
    exact isSpace_of_isDigit (isDigit_pyDigits _ c (List.mem_of_mem_getLast? hlast))

lemma itemOfCode_eq_some (h : itemOfCode inp mid bc = some ai) :
    ai ∈ itemsOf inp mid ∧ codeOf ai = some bc := by
  unfold itemOfCode at h
  exact ⟨List.mem_reverse.mp (List.mem_of_find?_eq_some h), by simpa using List.find?_some h⟩

lemma matterId_of_mem (h : ai ∈ itemsOf inp mid) : ai.matterId = mid := by
  have hkeeps := (List.mem_filter.mp h).2
  simp only [Bool.and_eq_true, decide_eq_true_eq] at hkeeps
  exact hkeeps.1

/-- Annuity rows of a matter with distinct cycles have distinct codes. -/
lemma eq_of_codeOf_eq (hdistinct : DistinctCycles inp) (hai : ai ∈ itemsOf inp mid)
    (hbi : bi ∈ itemsOf inp mid) (hacode : codeOf ai = some bc) (hbcode : codeOf bi = some bc) :
    ai = bi := by
  obtain ⟨-, hapos, hacode⟩ := codeOf_eq_some.mp hacode
  obtain ⟨-, hbpos, hbcode⟩ := codeOf_eq_some.mp hbcode
  have hmatter : ai.matterId = bi.matterId := (matterId_of_mem hai).trans (matterId_of_mem hbi).symm
  rw [hacode, hmatter] at hbcode
  have hdigits := (List.cons.inj (List.append_cancel_left hbcode)).2
  have hcycle : ai.cycleNo.toNat = bi.cycleNo.toNat := pyDigits_inj hdigits
  have hkey : (ai.matterId, ai.cycleNo) = (bi.matterId, bi.cycleNo) := by
    refine Prod.ext hmatter ?_
    change ai.cycleNo = bi.cycleNo
    omega
  have : Std.Symm (fun ai bi : AnnuityItem => (ai.matterId, ai.cycleNo) ≠ (bi.matterId, bi.cycleNo)) :=
    ⟨fun _ _ hne => hne.symm⟩
  by_contra hne
  exact List.Pairwise.forall hdistinct (List.mem_filter.mp hai).1 (List.mem_filter.mp hbi).1 hne hkey

lemma itemOfCode_of_mem (hdistinct : DistinctCycles inp) (hai : ai ∈ itemsOf inp mid)
    (hcode : codeOf ai = some bc) : itemOfCode inp mid bc = some ai := by
  cases h : itemOfCode inp mid bc with
  | none =>
    have hnot := List.find?_eq_none.mp h ai (List.mem_reverse.mpr hai)
    exact absurd (decide_eq_true hcode) hnot
  | some bi =>
    obtain ⟨hbi, hbcode⟩ := itemOfCode_eq_some h
    rw [eq_of_codeOf_eq hdistinct hbi hai hbcode hcode]

end Codes

section Writes

variable {T : UnicodeTables} {inp : SyncInput} {mid bc : Text} {ai : AnnuityItem}
  {ais : List AnnuityItem} {t u : WorkflowTable} {new : List Workflow} {w : Workflow}

attribute [ext] Workflow

/-- The annuity row of a workflow. -/
def itemOf (inp : SyncInput) (mid : Text) (w : Workflow) : Option AnnuityItem :=
  w.businessCode.bind (itemOfCode inp mid)

/-- The workflow after the rows `ais` have been written. -/
def writeAs (T : UnicodeTables) (inp : SyncInput) (mid : Text) (ais : List AnnuityItem)
    (w : Workflow) : Workflow :=
  match itemOf inp mid w with
  | some ai => if ai ∈ ais then writeItem T inp ai w else w
  | none => w

lemma itemOf_of_code (hitem : itemOfCode inp mid bc = some ai) (h : w.businessCode = codeOf ai) :
    itemOf inp mid w = some ai := by
  rw [itemOf, h, (itemOfCode_eq_some hitem).2, Option.bind_some, hitem]

lemma businessCode_of_itemOf (h : itemOf inp mid w = some ai) : w.businessCode = codeOf ai := by
  obtain ⟨bc, hbc, hitem⟩ := Option.bind_eq_some_iff.mp h
  rw [hbc, (itemOfCode_eq_some hitem).2]

lemma writeItem_writeItem (ai : AnnuityItem) (w : Workflow) :
    writeItem T inp ai (writeItem T inp ai w) = writeItem T inp ai w := by
  ext1
  case category =>
    unfold writeItem
    dsimp only
    by_cases hnone : w.category.getD [] = []
    · rw [if_pos hnone, if_neg (by decide)]
    · rw [if_neg hnone, if_neg hnone]
  case note =>
    unfold writeItem
    dsimp only
    cases computeStatus T inp.today ai with
    | paid => rfl
    | giveup => rfl
    | pending => exact stripAnnuityAutoNoteTags_twice w.note
    | overdue => exact stripAnnuityAutoNoteTags_twice w.note
  case assigneeId =>
    unfold writeItem
    dsimp only
    by_cases hassign : (inp.assignee ai).isSome = true ∨ w.assigneeId = none
    · rw [if_pos hassign, ite_self]
    · rw [if_neg hassign, if_neg hassign]
  case snapshotAttorney =>
    unfold writeItem
    dsimp only
    split <;> rfl
  case snapshotHandler =>
    unfold writeItem
    dsimp only
    split <;> rfl
  case snapshotManager =>
    unfold writeItem
    dsimp only
    split <;> rfl
  all_goals rfl

lemma writeAs_of_mem (hitem : itemOf inp mid w = some ai) (h : ai ∈ ais) :
    writeAs T inp mid ais w = writeItem T inp ai w := by
  rw [writeAs, hitem]
  exact if_pos h

lemma writeAs_of_not_mem (h : ∀ ai ∈ ais, itemOf inp mid w ≠ some ai) :
    writeAs T inp mid ais w = w := by
  unfold writeAs
  split
  · next ai hitem => exact if_neg (fun hmem => h ai hmem hitem)
  · rfl

/-- Only the values change, and only by writing. -/
lemma writeAs_cases (T : UnicodeTables) (inp : SyncInput) (mid : Text) (ais : List AnnuityItem)
    (w : Workflow) : writeAs T inp mid ais w = w ∨
      ∃ ai ∈ ais, itemOf inp mid w = some ai ∧ writeAs T inp mid ais w = writeItem T inp ai w := by
  by_cases h : ∃ ai ∈ ais, itemOf inp mid w = some ai
  · obtain ⟨ai, hmem, hitem⟩ := h
    exact .inr ⟨ai, hmem, hitem, writeAs_of_mem hitem hmem⟩
  · push Not at h
    exact .inl (writeAs_of_not_mem h)

@[simp] lemma id_writeAs : (writeAs T inp mid ais w).id = w.id := by
  rcases writeAs_cases T inp mid ais w with h | ⟨ai, -, -, h⟩
  · rw [h]
  · rw [h]
    rfl

@[simp] lemma businessCode_writeAs :
    (writeAs T inp mid ais w).businessCode = w.businessCode := by
  rcases writeAs_cases T inp mid ais w with h | ⟨ai, -, -, h⟩
  · rw [h]
  · rw [h]
    rfl

lemma writeAs_cons :
    writeAs T inp mid ais (writeAs T inp mid [ai] w) = writeAs T inp mid (ai :: ais) w := by
  by_cases hitem : itemOf inp mid w = some ai
  · have hwritten : itemOf inp mid (writeItem T inp ai w) = some ai := hitem
    rw [writeAs_of_mem hitem (List.mem_singleton_self ai), writeAs_of_mem hitem List.mem_cons_self]
    by_cases hmem : ai ∈ ais
    · rw [writeAs_of_mem hwritten hmem, writeItem_writeItem]
    · refine writeAs_of_not_mem (fun bi hbi heq => hmem ?_)
      rwa [← Option.some_inj.mp (hwritten.symm.trans heq)] at hbi
  · have hone : writeAs T inp mid [ai] w = w :=
      writeAs_of_not_mem (fun bi hbi => by rwa [List.mem_singleton.mp hbi])
    rw [hone]
    rcases writeAs_cases T inp mid ais w with h | ⟨bi, hbi, hbitem, h⟩
    · rw [h]
      by_cases hlater : ∃ bi ∈ ais, itemOf inp mid w = some bi
      · obtain ⟨bi, hbi, hbitem⟩ := hlater
        rw [writeAs_of_mem hbitem (List.mem_cons_of_mem ai hbi), ← writeAs_of_mem hbitem hbi, h]
      · push Not at hlater
        refine (writeAs_of_not_mem ?_).symm
        exact List.forall_mem_cons.mpr ⟨hitem, hlater⟩
    · rw [h, writeAs_of_mem hbitem (List.mem_cons_of_mem ai hbi)]

/-- What writing the rows `ais` makes of the workflows; `new` are those that were not there. -/
structure Upserted (T : UnicodeTables) (inp : SyncInput) (mid : Text) (ais : List AnnuityItem)
    (t u : WorkflowTable) (new : List Workflow) : Prop where
  rows : u.rows = t.rows.map (writeAs T inp mid ais) ++ new
  written : ∀ n ∈ new, ∃ ai ∈ ais, ∃ q, n = writeItem T inp ai q ∧
    q.caseId = some ai.matterId ∧ q.businessCode = codeOf ai
  absent : ∀ n ∈ new, ∀ w ∈ t.rows, w.businessCode ≠ n.businessCode
  exists_of_new : ∀ n ∈ new, inp.matterExists = true
  present : ∀ ai ∈ ais, ∃ w ∈ u.rows, w.businessCode = codeOf ai
  unique : UniqueCodes t → UniqueCodes u

lemma uniqueCodes_of_map {f : Workflow → Workflow} (hf : ∀ w, (f w).businessCode = w.businessCode)
    (hrows : u.rows = t.rows.map f) (h : UniqueCodes t) : UniqueCodes u := by
  unfold UniqueCodes at h ⊢
  rw [hrows, List.pairwise_map]
  simpa only [hf] using h

lemma upserted_nil (t : WorkflowTable) : Upserted T inp mid [] t t [] where
  rows := by
    rw [List.append_nil]
    conv_lhs => rw [← List.map_id t.rows]
    exact List.map_congr_left (fun w _ => (writeAs_of_not_mem (by simp)).symm)
  written := by simp
  absent := by simp
  exists_of_new := by simp
  present := by simp
  unique := id

lemma upserted_one (hitem : itemOfCode inp mid bc = some ai)
    (h : upsertWorkflow T inp ai t = some u) : ∃ new, Upserted T inp mid [ai] t u new := by
  have hcode : codeOf ai = some bc := (itemOfCode_eq_some hitem).2
  have hwrites : ∀ w : Workflow, hasCode bc w = true ↔ itemOf inp mid w = some ai := by
    intro w
    rw [hasCode, decide_eq_true_eq, ← hcode]
    exact ⟨itemOf_of_code hitem, businessCode_of_itemOf⟩
  have hrow : ∀ w, onRows (hasCode bc) (writeItem T inp ai) w = writeAs T inp mid [ai] w := by
    intro w
    unfold onRows
    split
    · next hhas => rw [writeAs_of_mem ((hwrites w).mp hhas) (List.mem_singleton_self ai)]
    · next hnot =>
      refine (writeAs_of_not_mem (fun bi hbi => ?_)).symm
      rw [List.mem_singleton.mp hbi]
      exact fun heq => hnot ((hwrites w).mpr heq)
  unfold upsertWorkflow at h
  rw [hcode] at h
  dsimp only at h
  split at h
  · next hany =>
    obtain rfl := Option.some_inj.mp h
    have hrows : (t.update (onRows (hasCode bc) (writeItem T inp ai)) (key_onRows (fun _ => rfl))).rows =
        t.rows.map (writeAs T inp mid [ai]) := List.map_congr_left (fun w _ => hrow w)
    refine ⟨[], by rw [hrows, List.append_nil], by simp, by simp, by simp, ?_,
      uniqueCodes_of_map (fun w => businessCode_writeAs) hrows⟩
    intro bi hbi
    rw [List.mem_singleton.mp hbi, hcode]
    obtain ⟨w, hw, hhas⟩ := List.any_eq_true.mp hany
    refine ⟨writeAs T inp mid [ai] w, ?_, ?_⟩
    · rw [hrows]
      exact List.mem_map_of_mem hw
    · rw [businessCode_writeAs]
      exact of_decide_eq_true hhas
  · next hnone =>
    split at h
    · next hfits =>
      obtain rfl := Option.some_inj.mp h
      have hfree : ∀ w ∈ t.rows, w.businessCode ≠ some bc := by
        intro w hw heq
        exact hnone (List.any_eq_true.mpr ⟨w, hw, decide_eq_true heq⟩)
      have hmap : t.rows.map (writeAs T inp mid [ai]) = t.rows := by
        conv_rhs => rw [← List.map_id t.rows]
        refine List.map_congr_left (fun w hw => writeAs_of_not_mem (fun bi hbi heq => ?_))
        rw [List.mem_singleton.mp hbi] at heq
        exact hfree w hw ((businessCode_of_itemOf heq).trans hcode)
      refine ⟨_, congrArg (· ++ _) hmap.symm, ?_, ?_, fun _ _ => hfits.2, ?_, ?_⟩
      · intro n hn
        rw [List.mem_singleton.mp hn]
        exact ⟨ai, List.mem_singleton_self ai, _, rfl, rfl, hcode.symm⟩
      · intro n hn w hw
        rw [List.mem_singleton.mp hn]
        exact hfree w hw
      · intro bi hbi
        rw [List.mem_singleton.mp hbi, hcode]
        exact ⟨_, List.mem_append_right _ (List.mem_singleton_self _), rfl⟩
      · intro huniq
        refine List.pairwise_append.mpr ⟨huniq, List.pairwise_singleton _ _, ?_⟩
        intro w hw n hn heq
        rw [List.mem_singleton.mp hn] at heq
        exact absurd heq (hfree w hw)
    · cases h

lemma Upserted.cons {u' : WorkflowTable} {new' : List Workflow}
    (hitem : itemOfCode inp mid bc = some ai) (h : Upserted T inp mid [ai] t u new)
    (h' : Upserted T inp mid ais u u' new') :
    Upserted T inp mid (ai :: ais) t u' (new ++ new') where
  rows := by
    -- the new workflow has the values of its row already
    have hnew : new.map (writeAs T inp mid ais) = new := by
      conv_rhs => rw [← List.map_id new]
      refine List.map_congr_left (fun n hn => ?_)
      obtain ⟨bi, hbi, q, rfl, -, hcode⟩ := h.written n hn
      rw [List.mem_singleton.mp hbi] at hcode ⊢
      have hnitem : itemOf inp mid (writeItem T inp ai q) = some ai := itemOf_of_code hitem hcode
      by_cases hmem : ai ∈ ais
      · rw [writeAs_of_mem hnitem hmem, writeItem_writeItem]
        rfl
      · refine writeAs_of_not_mem (fun ci hci heq => hmem ?_)
        rwa [← Option.some_inj.mp (hnitem.symm.trans heq)] at hci
    rw [h'.rows, h.rows, List.map_append, List.map_map, hnew, List.append_assoc]
    congr 1
    exact List.map_congr_left (fun w _ => writeAs_cons)
  written n hn := by
    rcases List.mem_append.mp hn with hn | hn
    · obtain ⟨bi, hbi, hwritten⟩ := h.written n hn
      rw [List.mem_singleton.mp hbi] at hwritten
      exact ⟨ai, List.mem_cons_self, hwritten⟩
    · obtain ⟨bi, hbi, hwritten⟩ := h'.written n hn
      exact ⟨bi, List.mem_cons_of_mem ai hbi, hwritten⟩
  absent n hn w hw := by
    rcases List.mem_append.mp hn with hn | hn
    · exact h.absent n hn w hw
    · have hmem : writeAs T inp mid [ai] w ∈ u.rows := by
        rw [h.rows]
        exact List.mem_append_left _ (List.mem_map_of_mem hw)
      have habsent := h'.absent n hn _ hmem
      rwa [businessCode_writeAs] at habsent
  exists_of_new n hn := by
    rcases List.mem_append.mp hn with hn | hn
    · exact h.exists_of_new n hn
    · exact h'.exists_of_new n hn
  present bi hbi := by
    rcases List.mem_cons.mp hbi with rfl | hbi
    · obtain ⟨w, hw, hcode⟩ := h.present bi (List.mem_singleton_self bi)
      refine ⟨writeAs T inp mid ais w, ?_, by rw [businessCode_writeAs, hcode]⟩
      rw [h'.rows]
      exact List.mem_append_left _ (List.mem_map_of_mem hw)
    · exact h'.present bi hbi
  unique huniq := h'.unique (h.unique huniq)

lemma upsertAll_spec (hlisted : ∀ ai ∈ ais, ∃ bc, itemOfCode inp mid bc = some ai)
    (h : upsertAll T inp ais t = some u) : ∃ new, Upserted T inp mid ais t u new := by
  induction ais generalizing t with
  | nil =>
    obtain rfl := Option.some_inj.mp h
    exact ⟨[], upserted_nil t⟩
  | cons ai ais ih =>
    rw [upsertAll, List.foldlM_cons] at h
    obtain ⟨t₁, hfirst, hrest⟩ := Option.bind_eq_some_iff.mp h
    obtain ⟨bc, hitem⟩ := hlisted ai List.mem_cons_self
    obtain ⟨new, hone⟩ := upserted_one hitem hfirst
    obtain ⟨new', hall⟩ := ih (fun bi hbi => hlisted bi (List.mem_cons_of_mem ai hbi)) hrest
    exact ⟨new ++ new', hone.cons hitem hall⟩

/-- The workflow of the code `bc` is there or can be inserted. -/
def Writable (inp : SyncInput) (t : WorkflowTable) (bc : Text) : Prop :=
  (∃ w ∈ t.rows, w.businessCode = some bc) ∨ (bc.length ≤ 50 ∧ inp.matterExists = true)

lemma exists_upsertWorkflow (h : ∀ bc ∈ codeOf ai, Writable inp t bc) :
    ∃ u, upsertWorkflow T inp ai t = some u := by
  unfold upsertWorkflow
  split
  · exact ⟨t, rfl⟩
  · next bc hcode =>
    split
    · exact ⟨_, rfl⟩
    · next hnone =>
      rcases h bc hcode with ⟨w, hw, hwcode⟩ | hfits
      · exact absurd (List.any_eq_true.mpr ⟨w, hw, decide_eq_true hwcode⟩) hnone
      · exact ⟨_, dif_pos hfits⟩

lemma Upserted.writable (h : Upserted T inp mid ais t u new) (hbc : Writable inp t bc) :
    Writable inp u bc := by
  refine hbc.imp_left ?_
  rintro ⟨w, hw, hcode⟩
  refine ⟨writeAs T inp mid ais w, ?_, businessCode_writeAs.trans hcode⟩
  rw [h.rows]
  exact List.mem_append_left _ (List.mem_map_of_mem hw)

lemma exists_upsertAll (hlisted : ∀ ai ∈ ais, ∃ bc, itemOfCode inp mid bc = some ai)
    (hwritable : ∀ ai ∈ ais, ∀ bc ∈ codeOf ai, Writable inp t bc) :
    ∃ u, upsertAll T inp ais t = some u := by
  induction ais generalizing t with
  | nil => exact ⟨t, rfl⟩
  | cons ai ais ih =>
    obtain ⟨t₁, hfirst⟩ := exists_upsertWorkflow (T := T) (hwritable ai List.mem_cons_self)
    obtain ⟨bc, hitem⟩ := hlisted ai List.mem_cons_self
    obtain ⟨new, hone⟩ := upserted_one hitem hfirst
    obtain ⟨u, hrest⟩ := ih (t := t₁) (fun bi hbi => hlisted bi (List.mem_cons_of_mem ai hbi))
      (fun bi hbi bc hbc => hone.writable (hwritable bi (List.mem_cons_of_mem ai hbi) bc hbc))
    refine ⟨u, ?_⟩
    rw [upsertAll, List.foldlM_cons]
    exact Option.bind_eq_some_iff.mpr ⟨t₁, hfirst, hrest⟩

/-- A code whose workflow has been written was writable. -/
lemma Upserted.writable_of_code (h : Upserted T inp mid ais t u new) (hai : ai ∈ ais)
    (hcode : codeOf ai = some bc) : Writable inp t bc := by
  obtain ⟨w, hw, hwcode⟩ := h.present ai hai
  have hbc := hwcode.trans hcode
  rw [h.rows] at hw
  rcases List.mem_append.mp hw with hw | hw
  · obtain ⟨v, hv, rfl⟩ := List.mem_map.mp hw
    exact .inl ⟨v, hv, businessCode_writeAs.symm.trans hbc⟩
  · exact .inr ⟨w.code_fits bc hbc, h.exists_of_new w hw⟩

/-- Workflows that have the values of their rows stay as they are. -/
lemma Upserted.rows_of_written (h : Upserted T inp mid ais t u new)
    (hpresent : ∀ ai ∈ ais, ∃ w ∈ t.rows, w.businessCode = codeOf ai)
    (hwritten : ∀ w ∈ t.rows, ∀ ai ∈ ais, itemOf inp mid w = some ai → writeItem T inp ai w = w) :
    u.rows = t.rows := by
  have hnew : new = [] := by
    apply List.eq_nil_iff_forall_not_mem.mpr
    intro n hn
    obtain ⟨ai, hai, q, rfl, -, hcode⟩ := h.written n hn
    obtain ⟨w, hw, hwcode⟩ := hpresent ai hai
    exact h.absent _ hn w hw (hwcode.trans hcode.symm)
  rw [h.rows, hnew, List.append_nil]
  conv_rhs => rw [← List.map_id t.rows]
  refine List.map_congr_left (fun w hw => ?_)
  rcases writeAs_cases T inp mid ais w with heq | ⟨ai, hai, hitem, heq⟩
  · exact heq
  · exact heq.trans (hwritten w hw ai hai hitem)

end Writes

end IpDocket.Workflows.AnnuityTasks
