import IpDocket.Annuity.Generation

/-!
# Steps of the generation

A row is found by its cycle. A step changes the rows that it finds or appends one; a row that an update
has just dated is not changed by the same update again.
-/

namespace IpDocket.Annuity
open IpDocket.Lib IpDocket.Deletion

/-- The matter has one row for a cycle at most. -/
def DistinctCycles (rows : List AnnuityItem) : Prop := (rows.map (·.cycleNo)).Nodup

/-- The change keeps the cycle of a row. -/
def KeepsCycle (f : AnnuityItem → Option AnnuityItem) : Prop := ∀ r r', f r = some r' → r'.cycleNo = r.cycleNo

section Rows

variable {rows : List AnnuityItem} {f : AnnuityItem → Option AnnuityItem} {c : Int}

lemma cycleNo_getD (hf : KeepsCycle f) (r : AnnuityItem) : ((f r).getD r).cycleNo = r.cycleNo := by
  cases h : f r with
  | none => rfl
  | some r' => exact hf r r' h

lemma rowAt_cons (r : AnnuityItem) (rows : List AnnuityItem) (c : Int) :
    rowAt (r :: rows) c = if r.cycleNo = c then some r else rowAt rows c := by
  unfold rowAt
  by_cases h : r.cycleNo = c
  · rw [if_pos h, List.find?_cons_of_pos (by simpa using h)]
  · rw [if_neg h, List.find?_cons_of_neg (by simpa using h)]

lemma cycleNo_of_rowAt {r : AnnuityItem} (h : rowAt rows c = some r) : r.cycleNo = c := by
  simpa using List.find?_some h

lemma mem_of_rowAt {r : AnnuityItem} (h : rowAt rows c = some r) : r ∈ rows := List.mem_of_find?_eq_some h

lemma rowAt_eq_none : rowAt rows c = none ↔ ∀ r ∈ rows, r.cycleNo ≠ c := by
  unfold rowAt
  rw [List.find?_eq_none]
  simp only [decide_eq_true_eq, ne_eq]

lemma rowAt_of_mem (hrows : DistinctCycles rows) {r : AnnuityItem} (hr : r ∈ rows) :
    rowAt rows r.cycleNo = some r := by
  induction rows with
  | nil => cases hr
  | cons s rows ih =>
    unfold DistinctCycles at hrows ih
    rw [List.map_cons, List.nodup_cons] at hrows
    rw [rowAt_cons]
    by_cases heq : r = s
    · rw [heq, if_pos rfl]
    · have hmem := (List.mem_cons.mp hr).resolve_left heq
      have hne : s.cycleNo ≠ r.cycleNo := fun h => hrows.1 (List.mem_map.mpr ⟨r, hmem, h.symm⟩)
      rw [if_neg hne]
      exact ih hrows.2 hmem

lemma rowAt_changeRows (hf : KeepsCycle f) (rows : List AnnuityItem) (c : Int) :
    rowAt (changeRows f rows).1 c = (rowAt rows c).map (fun r => (f r).getD r) := by
  unfold changeRows
  dsimp only
  induction rows with
  | nil => rfl
  | cons r rows ih =>
    rw [List.map_cons, rowAt_cons, rowAt_cons, cycleNo_getD hf, ih]
    split <;> rfl

lemma distinct_changeRows (hf : KeepsCycle f) (hrows : DistinctCycles rows) :
    DistinctCycles (changeRows f rows).1 := by
  unfold DistinctCycles changeRows at *
  rw [List.map_map]
  have hsame : (fun r : AnnuityItem => r.cycleNo) ∘ (fun r => (f r).getD r) = fun r => r.cycleNo := by
    funext r
    exact cycleNo_getD hf r
  rw [hsame]
  exact hrows

lemma changeRows_eq_self (h : ∀ r ∈ rows, f r = none) : changeRows f rows = (rows, 0) := by
  unfold changeRows
  have hmap : rows.map (fun r => (f r).getD r) = rows := by
    have hsame : ∀ r ∈ rows, (f r).getD r = id r := by
      intro r hr
      rw [h r hr]
      rfl
    rw [List.map_congr_left hsame, List.map_id]
  have hfilter : rows.filter (fun r => (f r).isSome) = [] := by
    rw [List.filter_eq_nil_iff]
    intro r hr
    rw [h r hr]
    exact Bool.false_ne_true
  rw [hmap, hfilter]
  rfl

lemma changeRows_count_eq_zero : (changeRows f rows).2 = 0 ↔ ∀ r ∈ rows, f r = none := by
  unfold changeRows
  dsimp only
  rw [List.length_eq_zero_iff, List.filter_eq_nil_iff]
  simp only [Bool.not_eq_true, Option.isSome_eq_false_iff, Option.isNone_iff_eq_none]

lemma rowAt_append_new {new : AnnuityItem} (h : rowAt rows new.cycleNo = none) (c : Int) :
    rowAt (rows ++ [new]) c = if new.cycleNo = c then some new else rowAt rows c := by
  induction rows with
  | nil => rw [List.nil_append, rowAt_cons]
  | cons r rows ih =>
    rw [rowAt_cons] at h
    split at h
    · cases h
    · next hne =>
      rw [List.cons_append, rowAt_cons, rowAt_cons, ih h]
      split
      · next hc =>
        rw [if_neg (fun heq => hne (hc.trans heq.symm))]
      · rfl

lemma distinct_append_new {new : AnnuityItem} (hrows : DistinctCycles rows)
    (h : rowAt rows new.cycleNo = none) : DistinctCycles (rows ++ [new]) := by
  unfold DistinctCycles at *
  rw [List.map_append, List.map_singleton, List.nodup_append_comm, List.singleton_append,
    List.nodup_cons]
  refine ⟨?_, hrows⟩
  intro hmem
  obtain ⟨r, hr, heq⟩ := List.mem_map.mp hmem
  exact rowAt_eq_none.mp h r hr heq

end Rows

/-! ### A row that is updated or created -/

section Ensure

variable {update : AnnuityItem → AnnuityItem × Bool} {new : AnnuityItem} {rows : List AnnuityItem}

/-- The update keeps the cycle, and changes nothing of what it has updated. -/
structure Settles (update : AnnuityItem → AnnuityItem × Bool) : Prop where
  cycleNo_eq : ∀ r, (update r).1.cycleNo = r.cycleNo
  again : ∀ r, touchItem update (update r).1 = none

lemma touchItem_keeps (hcycle : ∀ r, (update r).1.cycleNo = r.cycleNo) : KeepsCycle (touchItem update) := by
  intro r r' h
  unfold touchItem at h
  split at h
  · cases h
  · split at h
    · rw [← Option.some_inj.mp h]
      exact hcycle r
    · cases h

lemma touchAt_keeps (hcycle : ∀ r, (update r).1.cycleNo = r.cycleNo) (c : Int) :
    KeepsCycle (fun r => if r.cycleNo = c then touchItem update r else none) := by
  intro r r' h
  dsimp only at h
  split at h
  · exact touchItem_keeps hcycle r r' h
  · cases h

/-- A cycle whose row the update leaves alone. -/
def SettledAt (update : AnnuityItem → AnnuityItem × Bool) (c : Int) (rows : List AnnuityItem) : Prop :=
  ∃ r, rowAt rows c = some r ∧ touchItem update r = none

lemma ensureItem_of_rowAt {r : AnnuityItem} (h : rowAt rows new.cycleNo = some r) :
    ensureItem update new rows =
      changeRows (fun r => if r.cycleNo = new.cycleNo then touchItem update r else none) rows := by
  unfold ensureItem
  rw [h]

lemma ensureItem_of_none (h : rowAt rows new.cycleNo = none) :
    ensureItem update new rows = (rows ++ [new], 1) := by
  unfold ensureItem
  rw [h]

lemma distinct_ensureItem (hcycle : ∀ r, (update r).1.cycleNo = r.cycleNo) (hrows : DistinctCycles rows) :
    DistinctCycles (ensureItem update new rows).1 := by
  cases h : rowAt rows new.cycleNo with
  | none =>
    rw [ensureItem_of_none h]
    exact distinct_append_new hrows h
  | some r =>
    rw [ensureItem_of_rowAt h]
    exact distinct_changeRows (touchAt_keeps hcycle _) hrows

/-- The row of the cycle afterwards. -/
lemma rowAt_ensureItem_self (hcycle : ∀ r, (update r).1.cycleNo = r.cycleNo) :
    rowAt (ensureItem update new rows).1 new.cycleNo =
      some (((rowAt rows new.cycleNo).map (fun r => (touchItem update r).getD r)).getD new) := by
  cases h : rowAt rows new.cycleNo with
  | none =>
    rw [ensureItem_of_none h, rowAt_append_new h, if_pos rfl]
    rfl
  | some r =>
    rw [ensureItem_of_rowAt h, rowAt_changeRows (touchAt_keeps hcycle _), h, Option.map_some,
      Option.map_some, Option.getD_some, if_pos (cycleNo_of_rowAt h)]

lemma rowAt_ensureItem_of_ne (hcycle : ∀ r, (update r).1.cycleNo = r.cycleNo) {c : Int}
    (hc : c ≠ new.cycleNo) : rowAt (ensureItem update new rows).1 c = rowAt rows c := by
  cases h : rowAt rows new.cycleNo with
  | none => rw [ensureItem_of_none h, rowAt_append_new h, if_neg (Ne.symm hc)]
  | some r =>
    rw [ensureItem_of_rowAt h, rowAt_changeRows (touchAt_keeps hcycle _)]
    cases hrow : rowAt rows c with
    | none => rfl
    | some s =>
      rw [Option.map_some, if_neg (fun heq => hc ((cycleNo_of_rowAt hrow).symm.trans heq))]
      rfl

/-- The row of a settled cycle stays as it is. -/
lemma ensureItem_of_settledAt (hrows : DistinctCycles rows) (h : SettledAt update new.cycleNo rows) :
    ensureItem update new rows = (rows, 0) := by
  obtain ⟨r, hr, htouch⟩ := h
  rw [ensureItem_of_rowAt hr]
  apply changeRows_eq_self
  intro s hs
  split
  · next heq =>
    have hsame := rowAt_of_mem hrows hs
    rw [heq, hr, Option.some_inj] at hsame
    rw [← hsame]
    exact htouch
  · rfl

lemma settledAt_of_count (h : (ensureItem update new rows).2 = 0) : SettledAt update new.cycleNo rows := by
  cases hrow : rowAt rows new.cycleNo with
  | none =>
    rw [ensureItem_of_none hrow] at h
    cases h
  | some r =>
    rw [ensureItem_of_rowAt hrow, changeRows_count_eq_zero] at h
    have htouch := h r (mem_of_rowAt hrow)
    rw [if_pos (cycleNo_of_rowAt hrow)] at htouch
    exact ⟨r, hrow, htouch⟩

lemma touchItem_again (hupdate : Settles update) (r : AnnuityItem) :
    touchItem update ((touchItem update r).getD r) = none := by
  by_cases huser : isUserDeleted r = true
  · have hnone : touchItem update r = none := if_pos huser
    rw [hnone]
    exact hnone
  · by_cases hchanged : (update r).2 = true
    · have hsome : touchItem update r = some (update r).1 := by
        unfold touchItem
        rw [if_neg huser, if_pos hchanged]
      rw [hsome]
      exact hupdate.again r
    · have hnone : touchItem update r = none := by
        unfold touchItem
        rw [if_neg huser, if_neg hchanged]
      rw [hnone]
      exact hnone

lemma settledAt_ensureItem (hupdate : Settles update) (hnew : touchItem update new = none) :
    SettledAt update new.cycleNo (ensureItem update new rows).1 := by
  refine ⟨_, rowAt_ensureItem_self hupdate.cycleNo_eq, ?_⟩
  cases h : rowAt rows new.cycleNo with
  | none => exact hnew
  | some r => exact touchItem_again hupdate r

end Ensure

section Updates

variable (T : UnicodeTables)

lemma dayToken_isoText (d : Option PyDate) : dayToken (isoText d) = (isoText d).getD [] := by
  cases d with
  | none => rfl
  | some d =>
    unfold dayToken isoText
    rw [Option.map_some, Option.getD_some, List.takeWhile_eq_self_iff]
    intro c hc
    obtain hdigit | rfl := isoformat_chars d c hc
    · apply decide_eq_true
      rintro rfl
      cases hdigit
    · rfl

lemma setDayChanges_setDay (d : Option PyDate) (t : Option Text) : setDayChanges d (setDay d t) = false := by
  unfold setDay
  split
  · rw [setDayChanges, dayToken_isoText]
    simp
  · next h => simpa using h

lemma setBlankChanges_setBlank (d : Option PyDate) (t : Option Text) :
    setBlankChanges d (setBlank d t) = false := by
  unfold setBlank
  split
  · cases d with
    | none => rfl
    | some d =>
      unfold setBlankChanges isoText
      rw [Option.map_some, Option.getD_some, pyStrip_isoformat]
      obtain ⟨c, rest, hcons, -⟩ := isoformat_cons d
      simp [hcons]
  · next h => simpa using h

lemma setDayChanges_isoText (d : Option PyDate) : setDayChanges d (isoText d) = false := by
  rw [setDayChanges, dayToken_isoText]
  simp

lemma setBlankChanges_isoText (d : Option PyDate) : setBlankChanges d (isoText d) = false := by
  cases d with
  | none => rfl
  | some d =>
    unfold setBlankChanges isoText
    rw [Option.map_some, Option.getD_some, pyStrip_isoformat]
    obtain ⟨c, rest, hcons, -⟩ := isoformat_cons d
    simp [hcons]

/-- A row that is revived differs in the columns of its deletion only. -/
lemma revived_facts (r : AnnuityItem) :
    (reviveSoftDeleted r).isDeleted = false ∧ (reviveSoftDeleted r).cycleNo = r.cycleNo ∧
      isPaid T (reviveSoftDeleted r) = isPaid T r ∧
      reviveSoftDeleted (reviveSoftDeleted r) = reviveSoftDeleted r := by
  cases h : r.isDeleted with
  | true => simp [reviveSoftDeleted, h, isPaid]
  | false => simp [reviveSoftDeleted, h]

lemma not_isUserDeleted_of_live {r : AnnuityItem} (h : r.isDeleted = false) : isUserDeleted r = false := by
  unfold isUserDeleted
  rw [h, Bool.false_and]

lemma touchItem_of_live {update : AnnuityItem → AnnuityItem × Bool} {r : AnnuityItem}
    (hlive : r.isDeleted = false) (h : (update r).2 = false) : touchItem update r = none := by
  unfold touchItem
  rw [not_isUserDeleted_of_live hlive, h]
  rfl

variable {T}

lemma updateAnnuity_paid {plan : ItemPlan} {r : AnnuityItem} (h : isPaid T r = true) :
    updateAnnuity T plan r = (reviveSoftDeleted r, r.isDeleted) := by
  unfold updateAnnuity
  dsimp only
  rw [if_pos ((revived_facts T r).2.2.1.trans h)]

lemma updateAnnuity_unpaid {plan : ItemPlan} {r : AnnuityItem} (h : isPaid T r = false) :
    updateAnnuity T plan r =
      ({ reviveSoftDeleted r with
          dueDate := setDay plan.due r.dueDate
          extendedDueDate := setDay plan.extended r.extendedDueDate
          renewalOpenDate := setBlank plan.renewalOpen r.renewalOpenDate
          renewalNoticeDue := setBlank plan.renewalNotice r.renewalNoticeDue },
        r.isDeleted || setDayChanges plan.due r.dueDate ||
          setDayChanges plan.extended r.extendedDueDate ||
          setBlankChanges plan.renewalOpen r.renewalOpenDate ||
          setBlankChanges plan.renewalNotice r.renewalNoticeDue) := by
  have hunpaid : ¬isPaid T (reviveSoftDeleted r) = true := by
    rw [(revived_facts T r).2.2.1, h]
    exact Bool.false_ne_true
  unfold updateAnnuity
  dsimp only
  rw [if_neg hunpaid]
  cases hdeleted : r.isDeleted with
  | true => simp [reviveSoftDeleted, hdeleted]
  | false => simp [reviveSoftDeleted, hdeleted]

lemma settles_updateAnnuity (plan : ItemPlan) : Settles (updateAnnuity T plan) := by
  constructor
  · intro r
    cases hpaid : isPaid T r with
    | true =>
      rw [updateAnnuity_paid hpaid]
      exact (revived_facts T r).2.1
    | false =>
      rw [updateAnnuity_unpaid hpaid]
      exact (revived_facts T r).2.1
  · intro r
    obtain ⟨hlive, -, hpaidSame, -⟩ := revived_facts T r
    cases hpaid : isPaid T r with
    | true =>
      rw [updateAnnuity_paid hpaid]
      apply touchItem_of_live hlive
      rw [updateAnnuity_paid (hpaidSame.trans hpaid)]
      exact hlive
    | false =>
      rw [updateAnnuity_unpaid hpaid]
      refine touchItem_of_live ?_ ?_
      · exact hlive
      · rw [updateAnnuity_unpaid (by exact hpaidSame.trans hpaid)]
        simp only [hlive, setDayChanges_setDay, setBlankChanges_setBlank, Bool.or_self]

/-- The owner is a text without white space at its ends, if there is one. -/
def StrippedOwner (owner : Option Text) : Prop := ∀ o ∈ owner, pyStrip o = o

variable {owner : Option Text}

variable (T owner) in
lemma setOwner_facts (r : AnnuityItem) :
    (setOwner owner r).isDeleted = r.isDeleted ∧ (setOwner owner r).cycleNo = r.cycleNo ∧
      isPaid T (setOwner owner r) = isPaid T r ∧ (setOwner owner r).dueDate = r.dueDate ∧
      (setOwner owner r).extendedDueDate = r.extendedDueDate ∧
      (setOwner owner r).renewalOpenDate = r.renewalOpenDate ∧
      (setOwner owner r).renewalNoticeDue = r.renewalNoticeDue := by
  unfold setOwner
  split <;> simp [isPaid]

lemma ownerChanges_setOwner (h : StrippedOwner owner) (r : AnnuityItem) :
    ownerChanges owner (setOwner owner r) = false := by
  unfold setOwner
  split
  · cases owner with
    | none => rfl
    | some o =>
      unfold ownerChanges
      rw [Option.any_some, Option.getD_some, h o rfl]
      simp
  · next hsame => simpa using hsame

/-- An owner with white space at its ends is never the one that is found. -/
lemma ownerChanges_of_not_stripped (h : ¬StrippedOwner owner) (r : AnnuityItem) :
    ownerChanges owner r = true := by
  cases owner with
  | none =>
    exfalso
    apply h
    intro o ho
    cases ho
  | some o =>
    have hne : pyStrip (r.ownerStaffPartyId.getD []) ≠ o := by
      rintro rfl
      apply h
      intro o ho
      cases ho
      exact pyStrip_of_stripped (stripped_pyStrip _)
    exact decide_eq_true hne

lemma ownerChanges_revive (r : AnnuityItem) :
    ownerChanges owner (reviveSoftDeleted r) = ownerChanges owner r := by
  unfold reviveSoftDeleted
  split <;> rfl

/-- The row with the dates of the plan. -/
def redated (plan : ItemPlan) (r : AnnuityItem) : AnnuityItem :=
  { reviveSoftDeleted r with
      dueDate := setDay plan.due r.dueDate
      extendedDueDate := setDay plan.extended r.extendedDueDate
      renewalOpenDate := setDay plan.renewalOpen r.renewalOpenDate
      renewalNoticeDue := setDay plan.renewalNotice r.renewalNoticeDue }

lemma updateTrademark_paid {plan : ItemPlan} {r : AnnuityItem} (h : isPaid T r = true) :
    updateTrademark T owner plan r =
      (setOwner owner (reviveSoftDeleted r), r.isDeleted || ownerChanges owner r) := by
  unfold updateTrademark
  dsimp only
  rw [if_pos ((revived_facts T r).2.2.1.trans h), ownerChanges_revive]

lemma updateTrademark_unpaid {plan : ItemPlan} {r : AnnuityItem} (h : isPaid T r = false) :
    updateTrademark T owner plan r =
      (setOwner owner (redated plan r),
        r.isDeleted || setDayChanges plan.due r.dueDate ||
          setDayChanges plan.extended r.extendedDueDate ||
          setDayChanges plan.renewalOpen r.renewalOpenDate ||
          setDayChanges plan.renewalNotice r.renewalNoticeDue || ownerChanges owner r) := by
  have hunpaid : ¬isPaid T (reviveSoftDeleted r) = true := by
    rw [(revived_facts T r).2.2.1, h]
    exact Bool.false_ne_true
  unfold updateTrademark redated
  dsimp only
  rw [if_neg hunpaid, ownerChanges_revive]
  cases hdeleted : r.isDeleted with
  | true => simp [reviveSoftDeleted, hdeleted]
  | false => simp [reviveSoftDeleted, hdeleted]

variable (T owner) in
/-- A row that was updated is live, and paid as it was. -/
lemma updateTrademark_facts (plan : ItemPlan) (r : AnnuityItem) :
    (updateTrademark T owner plan r).1.isDeleted = false ∧
      (updateTrademark T owner plan r).1.cycleNo = r.cycleNo ∧
      isPaid T (updateTrademark T owner plan r).1 = isPaid T r := by
  obtain ⟨hlive, hcycle, hsame, -⟩ := revived_facts T r
  cases hpaid : isPaid T r with
  | true =>
    obtain ⟨hdel, hcyc, hp, -⟩ := setOwner_facts T owner (reviveSoftDeleted r)
    rw [updateTrademark_paid hpaid]
    exact ⟨hdel.trans hlive, hcyc.trans hcycle, hp.trans (hsame.trans hpaid)⟩
  | false =>
    obtain ⟨hdel, hcyc, hp, -⟩ := setOwner_facts T owner (redated plan r)
    rw [updateTrademark_unpaid hpaid]
    exact ⟨hdel.trans hlive, hcyc.trans hcycle, hp.trans (hsame.trans hpaid)⟩

lemma settles_updateTrademark (howner : StrippedOwner owner) (plan : ItemPlan) :
    Settles (updateTrademark T owner plan) := by
  constructor
  · intro r
    exact (updateTrademark_facts T owner plan r).2.1
  · intro r
    obtain ⟨hlive, -, hsame⟩ := updateTrademark_facts T owner plan r
    apply touchItem_of_live hlive
    cases hpaid : isPaid T r with
    | true =>
      rw [updateTrademark_paid (hsame.trans hpaid), hlive, updateTrademark_paid hpaid,
        ownerChanges_setOwner howner]
      rfl
    | false =>
      obtain ⟨-, -, -, hdue, hextended, hopen, hnotice⟩ :=
        setOwner_facts T owner (redated plan r)
      rw [updateTrademark_unpaid (hsame.trans hpaid), hlive, updateTrademark_unpaid hpaid,
        ownerChanges_setOwner howner]
      dsimp only
      rw [hdue, hextended, hopen, hnotice]
      unfold redated
      simp only [setDayChanges_setDay, Bool.or_self]

lemma updateTrademark_changes (howner : ¬StrippedOwner owner) (plan : ItemPlan) (r : AnnuityItem) :
    (updateTrademark T owner plan r).2 = true := by
  cases hpaid : isPaid T r with
  | true => rw [updateTrademark_paid hpaid, ownerChanges_of_not_stripped howner, Bool.or_true]
  | false => rw [updateTrademark_unpaid hpaid, ownerChanges_of_not_stripped howner, Bool.or_true]

variable {facts : AnnuityFacts} {env : CallEnv} {c : Int} {plan : ItemPlan} {fields : List (String × Text)}

lemma isPaid_newItem : isPaid T (newItem facts env c plan fields) = false := by
  have hpending : (pyStrip "pending".toList).map asciiLower ≠ "paid".toList := by decide
  unfold isPaid newItem
  rw [Option.bind_none, Option.isSome_none, Bool.false_or]
  exact decide_eq_false hpending

lemma touchItem_newAnnuity :
    touchItem (updateAnnuity T plan) (newItem facts env c plan fields) = none := by
  apply touchItem_of_live rfl
  rw [updateAnnuity_unpaid isPaid_newItem]
  unfold newItem
  simp only [setDayChanges_isoText, setBlankChanges_isoText, Bool.or_self]

lemma touchItem_newTrademark (howner : StrippedOwner facts.defaultOwner) :
    touchItem (updateTrademark T facts.defaultOwner plan) (newItem facts env c plan fields) = none := by
  have hsame : ownerChanges facts.defaultOwner (newItem facts env c plan fields) = false := by
    cases hdefault : facts.defaultOwner with
    | none => rfl
    | some o =>
      unfold ownerChanges newItem
      rw [hdefault, Option.any_some, Option.getD_some, howner o hdefault]
      simp
  apply touchItem_of_live rfl
  rw [updateTrademark_unpaid isPaid_newItem, hsame]
  unfold newItem
  simp only [setDayChanges_isoText, Bool.or_self]

end Updates
end IpDocket.Annuity
