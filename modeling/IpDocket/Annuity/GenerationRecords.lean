import IpDocket.Annuity.GenerationStable

/-!
# What users recorded

The generators change rows where they stand and append new ones. They keep what users recorded, with two
exceptions: the prepaid years are marked as paid whatever became of their rows, and the row of a second
payment that is not due is deleted whoever created it.
-/

namespace IpDocket.Annuity
open IpDocket.Lib IpDocket.Deletion

section EachRow

/-- Each row is where it was, in the given relation to what it was. -/
def EachRow (P : AnnuityItem → AnnuityItem → Prop) (rows rows' : List AnnuityItem) : Prop :=
  ∀ (i : Nat) (r : AnnuityItem), rows[i]? = some r → ∃ r', rows'[i]? = some r' ∧ P r r'

/-- A step that leaves each row in the given relation to what it was, also if it raises. -/
def StepKeeps (P : AnnuityItem → AnnuityItem → Prop) (step : Step) : Prop :=
  ∀ rows, EachRow P rows (step rows).1

variable {P Q : AnnuityItem → AnnuityItem → Prop} {rows rows' rows'' : List AnnuityItem}

lemma EachRow.mono (h : EachRow P rows rows') (himp : ∀ r ∈ rows, ∀ r', P r r' → Q r r') :
    EachRow Q rows rows' := by
  intro i r hr
  obtain ⟨r', hr', hp⟩ := h i r hr
  exact ⟨r', hr', himp r (List.mem_of_getElem? hr) r' hp⟩

lemma EachRow.comp (h : EachRow P rows rows') (h' : EachRow Q rows' rows'') :
    EachRow (fun r r'' => ∃ r', P r r' ∧ Q r' r'') rows rows'' := by
  intro i r hr
  obtain ⟨r', hr', hp⟩ := h i r hr
  obtain ⟨r'', hr'', hq⟩ := h' i r' hr'
  exact ⟨r'', hr'', r', hp, hq⟩

lemma EachRow.trans (htrans : ∀ r r' r'', P r r' → P r' r'' → P r r'') (h : EachRow P rows rows')
    (h' : EachRow P rows' rows'') : EachRow P rows rows'' := by
  apply (h.comp h').mono
  rintro r - r'' ⟨r', hp, hp'⟩
  exact htrans r r' r'' hp hp'

lemma eachRow_refl (hrefl : ∀ r, P r r) (rows : List AnnuityItem) : EachRow P rows rows :=
  fun _ r hr => ⟨r, hr, hrefl r⟩

lemma eachRow_append (hrefl : ∀ r, P r r) (rows new : List AnnuityItem) : EachRow P rows (rows ++ new) := by
  intro i r hr
  have hlt : i < rows.length := (List.getElem?_eq_some_iff.mp hr).1
  exact ⟨r, (List.getElem?_append_left hlt).trans hr, hrefl r⟩

lemma eachRow_changeRows (f : AnnuityItem → Option AnnuityItem) (rows : List AnnuityItem) :
    EachRow (fun r r' => r' = (f r).getD r) rows (changeRows f rows).1 := by
  intro i r hr
  refine ⟨(f r).getD r, ?_, rfl⟩
  unfold changeRows
  rw [List.getElem?_map, hr]
  rfl

lemma eachRow_ensureItem {update : AnnuityItem → AnnuityItem × Bool} {new : AnnuityItem}
    (hrefl : ∀ r, P r r) (htouch : ∀ r, r.cycleNo = new.cycleNo → P r ((touchItem update r).getD r))
    (rows : List AnnuityItem) : EachRow P rows (ensureItem update new rows).1 := by
  cases hrow : rowAt rows new.cycleNo with
  | none =>
    rw [ensureItem_of_none hrow]
    exact eachRow_append hrefl rows [new]
  | some s =>
    rw [ensureItem_of_rowAt hrow]
    apply (eachRow_changeRows _ rows).mono
    rintro r - r' rfl
    split
    · next hcycle => exact htouch r hcycle
    · exact hrefl r

lemma stepKeeps_skips (hrefl : ∀ r, P r r) : StepKeeps P skips := eachRow_refl hrefl

lemma stepKeeps_raises (hrefl : ∀ r, P r r) : StepKeeps P raises := eachRow_refl hrefl

lemma andThen_fst (first second : Step) (rows : List AnnuityItem) :
    (first.andThen second rows).1 = (first rows).1 ∨
      (first.andThen second rows).1 = (second (first rows).1).1 := by
  unfold Step.andThen
  obtain ⟨between, count⟩ := first rows
  cases count with
  | none => exact .inl rfl
  | some n => exact .inr rfl

lemma StepKeeps.andThen {first second : Step} (htrans : ∀ r r' r'', P r r' → P r' r'' → P r r'')
    (h : StepKeeps P first) (h' : StepKeeps P second) : StepKeeps P (first.andThen second) := by
  intro rows
  obtain hfirst | hboth := andThen_fst first second rows
  · rw [hfirst]
    exact h rows
  · rw [hboth]
    exact EachRow.trans htrans (h rows) (h' _)

end EachRow

section Gentle

/-- The row keeps all that users recorded; a live row is deleted only if it was generated and is not
paid. -/
structure Gentle (T : UnicodeTables) (r r' : AnnuityItem) : Prop where
  annuityId_eq : r'.annuityId = r.annuityId
  cycleNo_eq : r'.cycleNo = r.cycleNo
  memo_eq : r'.memo = r.memo
  paidDate_eq : r'.paidDate = r.paidDate
  paidAmount_eq : r'.paidAmount = r.paidAmount
  annuityStatus_eq : r'.annuityStatus = r.annuityStatus
  dueDate_eq : isPaid T r = true → r'.dueDate = r.dueDate
  userDeleted : isUserDeleted r = true → r' = r
  live : r.isDeleted = false → isPaid T r = true ∨ isAutoGenerated r = false → r'.isDeleted = false

variable {T : UnicodeTables} {r r' r'' : AnnuityItem}

lemma Gentle.isPaid_eq (h : Gentle T r r') : isPaid T r' = isPaid T r := by
  unfold isPaid
  rw [h.paidDate_eq, h.annuityStatus_eq]

lemma Gentle.isAutoGenerated_eq (h : Gentle T r r') : isAutoGenerated r' = isAutoGenerated r := by
  unfold isAutoGenerated
  rw [h.memo_eq]

variable (T) in
lemma gentle_refl (r : AnnuityItem) : Gentle T r r :=
  ⟨rfl, rfl, rfl, rfl, rfl, rfl, fun _ => rfl, fun _ => rfl, fun hlive _ => hlive⟩

variable (T) in
lemma gentle_trans (r r' r'' : AnnuityItem) (h : Gentle T r r') (h' : Gentle T r' r'') : Gentle T r r'' where
  annuityId_eq := h'.annuityId_eq.trans h.annuityId_eq
  cycleNo_eq := h'.cycleNo_eq.trans h.cycleNo_eq
  memo_eq := h'.memo_eq.trans h.memo_eq
  paidDate_eq := h'.paidDate_eq.trans h.paidDate_eq
  paidAmount_eq := h'.paidAmount_eq.trans h.paidAmount_eq
  annuityStatus_eq := h'.annuityStatus_eq.trans h.annuityStatus_eq
  dueDate_eq hpaid := (h'.dueDate_eq (h.isPaid_eq.trans hpaid)).trans (h.dueDate_eq hpaid)
  userDeleted huser := by
    have hsame := h.userDeleted huser
    rw [hsame] at h'
    exact h'.userDeleted huser
  live hlive hkept := h'.live (h.live hlive hkept)
    (hkept.imp (h.isPaid_eq.trans ·) (h.isAutoGenerated_eq.trans ·))

lemma gentle_reviveSoftDeleted (huser : isUserDeleted r = false) : Gentle T r (reviveSoftDeleted r) := by
  unfold reviveSoftDeleted
  split
  · refine ⟨rfl, rfl, rfl, rfl, rfl, rfl, fun _ => rfl, fun h => ?_, fun _ _ => rfl⟩
    rw [huser] at h
    cases h
  · exact gentle_refl T r

lemma gentle_updateAnnuity (plan : ItemPlan) (huser : isUserDeleted r = false) :
    Gentle T r (updateAnnuity T plan r).1 := by
  have hrevived := gentle_reviveSoftDeleted (T := T) huser
  cases hpaid : isPaid T r with
  | true =>
    rw [updateAnnuity_paid hpaid]
    exact hrevived
  | false =>
    rw [updateAnnuity_unpaid hpaid]
    refine ⟨hrevived.annuityId_eq, hrevived.cycleNo_eq, hrevived.memo_eq, hrevived.paidDate_eq,
      hrevived.paidAmount_eq, hrevived.annuityStatus_eq, fun h => ?_, fun h => ?_, hrevived.live⟩
    · rw [hpaid] at h
      cases h
    · rw [huser] at h
      cases h

lemma gentle_setOwner {owner : Option Text} (huser : isUserDeleted r = false) (h : Gentle T r r') :
    Gentle T r (setOwner owner r') := by
  unfold setOwner
  split
  · refine ⟨h.annuityId_eq, h.cycleNo_eq, h.memo_eq, h.paidDate_eq, h.paidAmount_eq, h.annuityStatus_eq,
      h.dueDate_eq, fun hdeleted => ?_, h.live⟩
    rw [huser] at hdeleted
    cases hdeleted
  · exact h

lemma gentle_updateTrademark {owner : Option Text} (plan : ItemPlan) (huser : isUserDeleted r = false) :
    Gentle T r (updateTrademark T owner plan r).1 := by
  have hrevived := gentle_reviveSoftDeleted (T := T) huser
  cases hpaid : isPaid T r with
  | true =>
    rw [updateTrademark_paid hpaid]
    exact gentle_setOwner huser hrevived
  | false =>
    rw [updateTrademark_unpaid hpaid]
    apply gentle_setOwner huser
    refine ⟨hrevived.annuityId_eq, hrevived.cycleNo_eq, hrevived.memo_eq, hrevived.paidDate_eq,
      hrevived.paidAmount_eq, hrevived.annuityStatus_eq, fun h => ?_, fun h => ?_, hrevived.live⟩
    · rw [hpaid] at h
      cases h
    · rw [huser] at h
      cases h

/-- A row that a user has deleted is not touched. -/
lemma gentle_touchItem {update : AnnuityItem → AnnuityItem × Bool}
    (hupdate : ∀ r, isUserDeleted r = false → Gentle T r (update r).1) (r : AnnuityItem) :
    Gentle T r ((touchItem update r).getD r) := by
  unfold touchItem
  split
  · exact gentle_refl T r
  · next huser =>
    split
    · exact hupdate r (by simpa using huser)
    · exact gentle_refl T r

lemma gentle_softDelete {now : Nat} {reason : Text} (hauto : isAutoGenerated r = true) :
    Gentle T r ((softDeleteUnpaid T now reason r).getD r) := by
  unfold softDeleteUnpaid
  split
  · exact gentle_refl T r
  · next hkept =>
    rw [not_or, Bool.not_eq_true, Bool.not_eq_true] at hkept
    refine ⟨rfl, rfl, rfl, rfl, rfl, rfl, fun _ => rfl, fun huser => ?_, fun _ h => ?_⟩
    · rw [not_isUserDeleted_of_live hkept.1] at huser
      cases huser
    · obtain hpaid | hmanual := h
      · rw [hkept.2] at hpaid
        cases hpaid
      · rw [hauto] at hmanual
        cases hmanual

end Gentle

section Generators

variable {T : UnicodeTables} {R : RelativeDelta} {cfg : AnnuityConfig} {facts : AnnuityFacts}
  {env : CallEnv} {startYear endYear : Option Int} {regDate expiry : PyDate} {term : PaymentTerm}

lemma eachRow_ensureYears (years : List Int) (rows : List AnnuityItem) :
    EachRow (Gentle T) rows (ensureYears T R cfg facts env regDate years rows).1 := by
  induction years generalizing rows with
  | nil => exact eachRow_refl (gentle_refl T) rows
  | cons year years ih =>
    have hyear : EachRow (Gentle T) rows (ensureYear T R cfg facts env regDate year rows).1 := by
      unfold ensureYear
      split
      · exact eachRow_refl (gentle_refl T) rows
      · next plan _ =>
        exact eachRow_ensureItem (gentle_refl T)
          (fun r _ => gentle_touchItem (fun _ huser => gentle_updateAnnuity plan huser) r) rows
    exact EachRow.trans (gentle_trans T) hyear (ih _)

lemma stepKeeps_ensureTrademarkItem (c : Int) (plan : ItemPlan) (fields : List (String × Text)) :
    StepKeeps (Gentle T) (ensureTrademarkItem T facts env c plan fields) := by
  intro rows
  exact eachRow_ensureItem (gentle_refl T)
    (fun r _ => gentle_touchItem (fun _ huser => gentle_updateTrademark plan huser) r) rows

lemma stepKeeps_renewal :
    StepKeeps (Gentle T) (ensureRenewalItem T R cfg facts env startYear endYear regDate expiry) := by
  unfold ensureRenewalItem
  dsimp only
  split
  · exact stepKeeps_skips (gentle_refl T)
  · split
    · exact stepKeeps_skips (gentle_refl T)
    · split
      · exact stepKeeps_raises (gentle_refl T)
      · exact stepKeeps_ensureTrademarkItem _ _ _

lemma stepKeeps_uspto {c : Int} {due windowOpen : PyDate} {renewalType : String} :
    StepKeeps (Gentle T) (ensureUsptoItem T R cfg facts env startYear endYear regDate c due windowOpen
      renewalType) := by
  intro rows
  unfold ensureUsptoItem
  split
  · exact stepKeeps_skips (gentle_refl T) rows
  · split
    · exact stepKeeps_skips (gentle_refl T) rows
    · split
      · exact stepKeeps_ensureTrademarkItem _ _ _ rows
      · exact stepKeeps_raises (gentle_refl T) rows

lemma stepKeeps_pruned {expected : List Int} :
    StepKeeps (Gentle T) (returns (changeRows (pruneStale T env startYear endYear expected))) := by
  intro rows
  apply (eachRow_changeRows (pruneStale T env startYear endYear expected) rows).mono
  rintro r - r' rfl
  unfold pruneStale
  split
  · exact gentle_refl T r
  · next hstale =>
    simp only [not_or, Bool.not_eq_false] at hstale
    exact gentle_softDelete hstale.2.2.2.2.2

lemma stepKeeps_ensureUspto :
    StepKeeps (Gentle T) (ensureUspto T R cfg facts env startYear endYear regDate) := by
  unfold ensureUspto
  split
  · exact stepKeeps_raises (gentle_refl T)
  · exact StepKeeps.andThen (gentle_trans T) stepKeeps_uspto
      (StepKeeps.andThen (gentle_trans T) stepKeeps_uspto stepKeeps_pruned)

variable (R startYear endYear regDate expiry term) in
/-- The cycle whose row is deleted because a second payment is not due. -/
def droppedCycle : Option Int :=
  (splitDueDate R regDate expiry).bind (fun splitDue =>
    if withinRequestedCycleRange startYear endYear (trademarkCycleNoFromDates regDate splitDue) = true ∧
        ¬SplitIsDue regDate expiry term then
      some (trademarkCycleNoFromDates regDate splitDue)
    else none)

lemma droppedCycle_eq_some {c : Int} :
    droppedCycle R startYear endYear regDate expiry term = some c ↔
      ∃ splitDue, splitDueDate R regDate expiry = some splitDue ∧
        withinRequestedCycleRange startYear endYear (trademarkCycleNoFromDates regDate splitDue) = true ∧
        ¬SplitIsDue regDate expiry term ∧ trademarkCycleNoFromDates regDate splitDue = c := by
  unfold droppedCycle
  rw [Option.bind_eq_some_iff]
  apply exists_congr
  intro splitDue
  rw [Option.ite_none_right_eq_some, Option.some_inj, and_assoc]

/-- The step for the second payment is gentle, or it deletes the row of the cycle. -/
lemma split_cases :
    (droppedCycle R startYear endYear regDate expiry term = none ∧
      StepKeeps (Gentle T)
        (ensureSplitPaymentItem T R cfg facts env startYear endYear regDate expiry term)) ∨
    ∃ c, droppedCycle R startYear endYear regDate expiry term = some c ∧
      ensureSplitPaymentItem T R cfg facts env startYear endYear regDate expiry term =
        returns (changeRows (unsplit T env c)) := by
  cases hdropped : droppedCycle R startYear endYear regDate expiry term with
  | some c =>
    obtain ⟨splitDue, hsplit, hin, hdue, rfl⟩ := droppedCycle_eq_some.mp hdropped
    exact .inr ⟨_, rfl, split_of_not_due hsplit hin hdue⟩
  | none =>
    refine .inl ⟨rfl, ?_⟩
    unfold ensureSplitPaymentItem
    split
    · exact stepKeeps_raises (gentle_refl T)
    · next splitDue hsplit =>
      dsimp only
      split
      · exact stepKeeps_skips (gentle_refl T)
      · next hin =>
        split
        · split
          · exact stepKeeps_raises (gentle_refl T)
          · exact stepKeeps_ensureTrademarkItem _ _ _
        · next hdue =>
          exfalso
          have hsome := droppedCycle_eq_some.mpr ⟨splitDue, hsplit, by simpa using hin, hdue, rfl⟩
          rw [hdropped] at hsome
          cases hsome

end Generators

/-! ### What a call respects -/

section Respects

def isGivenUp (r : AnnuityItem) : Bool := normalizeStatus r.annuityStatus = .giveup

/-- What users recorded in the row is respected. -/
structure RespectedRow (T : UnicodeTables) (r r' : AnnuityItem) : Prop where
  annuityId_eq : r'.annuityId = r.annuityId
  paid : isPaid T r = true → r'.dueDate = r.dueDate ∧ r'.paidDate = r.paidDate ∧
    r'.paidAmount = r.paidAmount ∧ r'.cycleNo = r.cycleNo
  userDeleted : isUserDeleted r = true → r'.isDeleted = true
  live : r.isDeleted = false → isPaid T r = true ∨ isAutoGenerated r = false → r'.isDeleted = false
  unpaid : isPaid T r = false → isGivenUp r = true ∨ r.isDeleted = true → isPaid T r' = false

/-- A row of a prepaid year that is given up or deleted, and not paid. -/
def IsGonePrepaid (T : UnicodeTables) (r : AnnuityItem) : Prop :=
  1 ≤ r.cycleNo ∧ r.cycleNo ≤ 3 ∧ isPaid T r = false ∧ (isGivenUp r = true ∨ r.isDeleted = true)

/-- A live row of the cycle that was created by hand and is not paid. -/
def IsManualUnpaid (T : UnicodeTables) (c : Int) (r : AnnuityItem) : Prop :=
  r.cycleNo = c ∧ r.isDeleted = false ∧ isPaid T r = false ∧ isAutoGenerated r = false

variable {T : UnicodeTables} {regDate : PyDate} {r r' : AnnuityItem}

lemma Gentle.respected (h : Gentle T r r') : RespectedRow T r r' where
  annuityId_eq := h.annuityId_eq
  paid hpaid := ⟨h.dueDate_eq hpaid, h.paidDate_eq, h.paidAmount_eq, h.cycleNo_eq⟩
  userDeleted huser := by
    rw [h.userDeleted huser]
    unfold isUserDeleted at huser
    rw [Bool.and_eq_true] at huser
    exact huser.1
  live := h.live
  unpaid hunpaid _ := h.isPaid_eq.trans hunpaid

lemma isPaid_markPrepaid (hlow : 1 ≤ r.cycleNo) (hhigh : r.cycleNo ≤ 3) :
    isPaid T ((markPrepaid T regDate r).getD r) = true := by
  have hagain : markPrepaid T regDate ((markPrepaid T regDate r).getD r) = none := markPrepaid_again
  have hcycle : ((markPrepaid T regDate r).getD r).cycleNo = r.cycleNo := cycleNo_getD markPrepaid_keeps r
  generalize (markPrepaid T regDate r).getD r = s at *
  by_contra hunpaid
  rw [Bool.not_eq_true] at hunpaid
  rw [markPrepaid, if_pos ⟨by omega, by omega, hunpaid⟩] at hagain
  cases hagain

/-- What is marked as paid is respected, unless it was given up or deleted. -/
lemma respected_markPrepaid (h : ¬IsGonePrepaid T r)
    (hgentle : Gentle T ((markPrepaid T regDate r).getD r) r') : RespectedRow T r r' := by
  by_cases hprepaid : 1 ≤ r.cycleNo ∧ r.cycleNo ≤ 3 ∧ isPaid T r = false
  · obtain ⟨hlow, hhigh, hunpaid⟩ := hprepaid
    have hpaid : isPaid T ((markPrepaid T regDate r).getD r) = true := isPaid_markPrepaid hlow hhigh
    have hkept : ¬(isGivenUp r = true ∨ r.isDeleted = true) := fun hgone => h ⟨hlow, hhigh, hunpaid, hgone⟩
    have hdeleted : r.isDeleted = false := by
      rw [not_or, Bool.not_eq_true] at hkept
      simpa using hkept.2
    have hmarked : ((markPrepaid T regDate r).getD r).isDeleted = r.isDeleted ∧
        ((markPrepaid T regDate r).getD r).annuityId = r.annuityId := by
      unfold markPrepaid
      split <;> exact ⟨rfl, rfl⟩
    refine ⟨hgentle.annuityId_eq.trans hmarked.2, fun h => ?_, fun huser => ?_, fun _ _ => ?_,
      fun _ hgone => absurd hgone hkept⟩
    · rw [hunpaid] at h
      cases h
    · rw [not_isUserDeleted_of_live hdeleted] at huser
      cases huser
    · exact hgentle.live (hmarked.1.trans hdeleted) (.inl hpaid)
  · rw [markPrepaid, if_neg hprepaid] at hgentle
    exact hgentle.respected

lemma gentle_unsplit {env : CallEnv} {c : Int} (h : ¬IsManualUnpaid T c r) :
    Gentle T r ((unsplit T env c r).getD r) := by
  unfold unsplit
  split
  · next hcycle =>
    cases hauto : isAutoGenerated r with
    | true => exact gentle_softDelete hauto
    | false =>
      have hnone : softDeleteUnpaid T env.now
          "auto_reconcile:trademark_registration_payment_term".toList r = none := by
        rw [softDelete_eq_none]
        by_contra hkept
        rw [not_or, Bool.not_eq_true, Bool.not_eq_true] at hkept
        exact h ⟨hcycle, hkept.1, hkept.2, hauto⟩
      rw [hnone]
      exact gentle_refl T r
  · exact gentle_refl T r

/-- A row of another cycle stays deleted. -/
def StaysDeleted (c : Int) (r r' : AnnuityItem) : Prop :=
  r'.cycleNo = r.cycleNo ∧ (r.cycleNo ≠ c → r.isDeleted = true → r'.isDeleted = true)

lemma staysDeleted_refl (c : Int) (r : AnnuityItem) : StaysDeleted c r r := ⟨rfl, fun _ h => h⟩

lemma staysDeleted_trans (c : Int) (r r' r'' : AnnuityItem) (h : StaysDeleted c r r')
    (h' : StaysDeleted c r' r'') : StaysDeleted c r r'' := by
  refine ⟨h'.1.trans h.1, fun hne hdeleted => h'.2 ?_ (h.2 hne hdeleted)⟩
  rw [h.1]
  exact hne

variable {R : RelativeDelta} {cfg : AnnuityConfig} {facts : AnnuityFacts} {env : CallEnv}
  {startYear endYear : Option Int} {expiry : PyDate} {expected : List Int} {rows : List AnnuityItem}

lemma staysDeleted_renewal : StepKeeps (StaysDeleted (trademarkCycleNoFromDates regDate expiry))
    (ensureRenewalItem T R cfg facts env startYear endYear regDate expiry) := by
  unfold ensureRenewalItem
  dsimp only
  split
  · exact stepKeeps_skips (staysDeleted_refl _)
  · split
    · exact stepKeeps_skips (staysDeleted_refl _)
    · split
      · exact stepKeeps_raises (staysDeleted_refl _)
      · next plan _ =>
        intro rows
        refine eachRow_ensureItem (staysDeleted_refl _) (fun r hcycle => ?_) rows
        have hgentle : Gentle T r ((touchItem (updateTrademark T facts.defaultOwner plan) r).getD r) :=
          gentle_touchItem (fun _ huser => gentle_updateTrademark plan huser) r
        exact ⟨hgentle.cycleNo_eq, fun hne => absurd hcycle hne⟩

lemma staysDeleted_pruned (c : Int) :
    StepKeeps (StaysDeleted c) (returns (changeRows (pruneStale T env startYear endYear expected))) := by
  intro rows
  apply (eachRow_changeRows (pruneStale T env startYear endYear expected) rows).mono
  rintro r - r' rfl
  cases hprune : pruneStale T env startYear endYear expected r with
  | none => exact staysDeleted_refl c r
  | some s =>
    obtain ⟨-, -, hcycle, hdeleted, -⟩ := softDelete_facts (pruneStale_facts hprune)
    exact ⟨hcycle, fun _ _ => hdeleted⟩

/-- What the call respects of all rows. -/
def Respects (T : UnicodeTables) (rows rows' : List AnnuityItem) : Prop := EachRow (RespectedRow T) rows rows'

lemma respects_of_gentle {rows' : List AnnuityItem} (h : EachRow (Gentle T) rows rows') :
    Respects T rows rows' := h.mono (fun _ _ _ hgentle => hgentle.respected)

variable (T R cfg facts env startYear endYear regDate rows) in
lemma respects_nonTrademark_iff (rightType : RightType) :
    Respects T rows (ensureNonTrademark T R cfg facts env rightType regDate startYear endYear rows).1 ↔
      ¬(facts.isDomestic = true ∧
        (yearRange cfg facts rightType regDate startYear endYear rows).isSome = true ∧
          ∃ r ∈ rows, IsGonePrepaid T r) := by
  cases hrange : yearRange cfg facts rightType regDate startYear endYear rows with
  | none =>
    rw [ensureNonTrademark_of_none hrange]
    exact iff_of_true (respects_of_gentle (eachRow_refl (gentle_refl T) rows)) (by simp)
  | some range =>
    obtain ⟨first, last⟩ := range
    rw [ensureNonTrademark_of_range hrange]
    dsimp only
    have hyears := @eachRow_ensureYears T R cfg facts env regDate (yearList first last)
      (prepaidRows T facts regDate rows).1
    cases hdomestic : facts.isDomestic with
    | false =>
      have hsame : (prepaidRows T facts regDate rows).1 = rows := by
        unfold prepaidRows
        rw [hdomestic]
        rfl
      rw [hsame] at hyears
      unfold generatedRows
      rw [hsame]
      exact iff_of_true (respects_of_gentle hyears) (by simp)
    | true =>
      have hmarked : EachRow (fun r r' => r' = (markPrepaid T regDate r).getD r) rows
          (prepaidRows T facts regDate rows).1 := by
        unfold prepaidRows
        rw [if_pos hdomestic]
        exact eachRow_changeRows _ rows
      have hboth := hmarked.comp hyears
      constructor
      · rintro hrespects ⟨-, -, r, hr, hlow, hhigh, hunpaid, hgone⟩
        obtain ⟨i, hi⟩ := List.getElem?_of_mem hr
        obtain ⟨r', hr', m, rfl, hgentle⟩ := hboth i r hi
        obtain ⟨s, hs, hrespected⟩ := hrespects i r hi
        have hsame : s = r' := Option.some_inj.mp (hs.symm.trans hr')
        have hpaid : isPaid T r' = true := hgentle.isPaid_eq.trans (isPaid_markPrepaid hlow hhigh)
        have hkept := hrespected.unpaid hunpaid hgone
        rw [hsame, hpaid] at hkept
        cases hkept
      · intro hnone
        apply hboth.mono
        rintro r hr r' ⟨m, rfl, hgentle⟩
        exact respected_markPrepaid (fun hgone => hnone ⟨rfl, rfl, r, hr, hgone⟩) hgentle

variable (T R cfg facts env startYear endYear regDate rows) in
lemma respects_trademark_iff :
    Respects T rows (ensureTrademark T R cfg facts env startYear endYear regDate rows).1 ↔
      ¬∃ expiry c, resolveTermExpiryDate R cfg facts regDate = some expiry ∧
        droppedCycle R startYear endYear regDate expiry (registrationPaymentTerm cfg facts rows) = some c ∧
          ∃ r ∈ rows, IsManualUnpaid T c r := by
  have hrefl : Respects T rows rows := respects_of_gentle (eachRow_refl (gentle_refl T) rows)
  cases hexpiry : resolveTermExpiryDate R cfg facts regDate with
  | none =>
    have hsame : (ensureTrademark T R cfg facts env startYear endYear regDate rows).1 = rows := by
      unfold ensureTrademark
      rw [hexpiry]
      rfl
    rw [hsame]
    exact iff_of_true hrefl (by simp)
  | some expiry =>
    obtain ⟨hnone, hsplit⟩ | ⟨c, hdropped, hsplit⟩ := @split_cases T R cfg facts env startYear endYear
      regDate expiry (registrationPaymentTerm cfg facts rows)
    · have hgentle : EachRow (Gentle T) rows
          (ensureTrademark T R cfg facts env startYear endYear regDate rows).1 := by
        unfold ensureTrademark
        rw [hexpiry]
        dsimp only
        split
        · exact stepKeeps_raises (gentle_refl T) rows
        · exact StepKeeps.andThen (gentle_trans T) hsplit
            (StepKeeps.andThen (gentle_trans T) stepKeeps_renewal stepKeeps_pruned) rows
      refine iff_of_true (respects_of_gentle hgentle) ?_
      rintro ⟨expiry', c, hsame, hdropped, -⟩
      rw [← Option.some_inj.mp hsame, hnone] at hdropped
      cases hdropped
    · obtain ⟨splitDue, hdate, -, hdue, hcycle⟩ := droppedCycle_eq_some.mp hdropped
      have hlt : c < trademarkCycleNoFromDates regDate expiry := by
        rw [← hcycle]
        apply (cycleNo_splitDue hdate).2
        unfold SplitIsDue at hdue
        omega
      let rest := (ensureRenewalItem T R cfg facts env startYear endYear regDate expiry).andThen
        (returns (changeRows (pruneStale T env startYear endYear
          (expectedList startYear endYear (trademarkCycleNoFromDates regDate splitDue)
            (trademarkCycleNoFromDates regDate expiry) (registrationPaymentTerm cfg facts rows)))))
      have hrows : (ensureTrademark T R cfg facts env startYear endYear regDate rows).1 =
          (rest (changeRows (unsplit T env c) rows).1).1 := by
        rw [ensureTrademark_eq hexpiry hdate, trademarkSteps, hsplit]
        rfl
      have hdeleted := eachRow_changeRows (unsplit T env c) rows
      have hgentle : StepKeeps (Gentle T) rest :=
        StepKeeps.andThen (gentle_trans T) stepKeeps_renewal stepKeeps_pruned
      have hstays : StepKeeps (StaysDeleted (trademarkCycleNoFromDates regDate expiry)) rest :=
        StepKeeps.andThen (staysDeleted_trans _) staysDeleted_renewal (staysDeleted_pruned _)
      rw [hrows]
      constructor
      · rintro hrespects ⟨expiry', c', hsame, hdropped', r, hr, hcycle', hlive, hunpaid, hmanual⟩
        rw [← Option.some_inj.mp hsame, hdropped, Option.some_inj] at hdropped'
        obtain ⟨i, hi⟩ := List.getElem?_of_mem hr
        obtain ⟨r', hr', m, rfl, hkept⟩ := hdeleted.comp (hstays _) i r hi
        obtain ⟨s, hs, hrespected⟩ := hrespects i r hi
        have hsame : s = r' := Option.some_inj.mp (hs.symm.trans hr')
        have hgone : ((unsplit T env c r).getD r).isDeleted = true ∧
            ((unsplit T env c r).getD r).cycleNo = r.cycleNo := by
          rw [unsplit, if_pos (hcycle'.trans hdropped'.symm), softDeleteUnpaid,
            if_neg (by rw [hlive, hunpaid]; simp)]
          exact ⟨rfl, rfl⟩
        have hstill : r'.isDeleted = true := hkept.2 (by rw [hgone.2]; omega) hgone.1
        rw [← hsame, hrespected.live hlive (.inr hmanual)] at hstill
        cases hstill
      · intro hnone
        apply (hdeleted.comp (hgentle _)).mono
        rintro r hr r' ⟨m, rfl, h⟩
        exact (gentle_trans T _ _ _ (gentle_unsplit (fun hmanual =>
          hnone ⟨expiry, c, rfl, hdropped, r, hr, hmanual⟩)) h).respected

/-- Prepaid years are generated, and one of their rows is given up or deleted. -/
def PrepaysGone (T : UnicodeTables) (cfg : AnnuityConfig) (facts : AnnuityFacts)
    (startYear endYear : Option Int) (rows : List AnnuityItem) : Prop :=
  ∃ rightType regDate, Generates cfg facts rightType regDate ∧ rightType ≠ .trademark ∧
    facts.isDomestic = true ∧ (yearRange cfg facts rightType regDate startYear endYear rows).isSome = true ∧
      ∃ r ∈ rows, IsGonePrepaid T r

/-- A second payment is not due, and a row of its cycle was created by hand. -/
def DropsManual (T : UnicodeTables) (R : RelativeDelta) (cfg : AnnuityConfig) (facts : AnnuityFacts)
    (startYear endYear : Option Int) (rows : List AnnuityItem) : Prop :=
  ∃ regDate expiry c, Generates cfg facts .trademark regDate ∧ facts.isUspto = false ∧
    resolveTermExpiryDate R cfg facts regDate = some expiry ∧
    droppedCycle R startYear endYear regDate expiry (registrationPaymentTerm cfg facts rows) = some c ∧
      ∃ r ∈ rows, IsManualUnpaid T c r

variable (T R cfg facts env startYear endYear rows) in
/-- A call respects what users recorded exactly if it prepays no row that is given up or deleted, and drops
no second payment that was created by hand. -/
theorem respects_iff :
    Respects T rows (ensureAnnuitiesForMatter T R cfg facts env startYear endYear rows).1 ↔
      ¬PrepaysGone T cfg facts startYear endYear rows ∧
        ¬DropsManual T R cfg facts startYear endYear rows := by
  have hrefl : Respects T rows rows := respects_of_gentle (eachRow_refl (gentle_refl T) rows)
  by_cases hgenerates : ∃ rightType regDate, Generates cfg facts rightType regDate
  · obtain ⟨rightType, regDate, h⟩ := hgenerates
    rw [ensureAnnuities_of_generates T R env startYear endYear h]
    by_cases htrademark : rightType = .trademark
    · subst htrademark
      have hprepays : ¬PrepaysGone T cfg facts startYear endYear rows := by
        rintro ⟨rightType', regDate', h', hne, -⟩
        exact hne (h.unique h').1
      rw [if_pos rfl, and_iff_right hprepays]
      cases huspto : facts.isUspto with
      | true =>
        rw [if_pos rfl]
        refine iff_of_true (respects_of_gentle (stepKeeps_ensureUspto rows)) ?_
        rintro ⟨_, _, _, -, hnot, -⟩
        rw [huspto] at hnot
        cases hnot
      | false =>
        rw [if_neg Bool.false_ne_true, respects_trademark_iff T regDate R cfg facts env startYear endYear rows]
        apply not_congr
        constructor
        · rintro ⟨expiry, c, hexpiry, hdropped, hmanual⟩
          exact ⟨regDate, expiry, c, h, huspto, hexpiry, hdropped, hmanual⟩
        · rintro ⟨regDate', expiry, c, h', -, hexpiry, hdropped, hmanual⟩
          rw [(h.unique h').2] at hexpiry hdropped
          exact ⟨expiry, c, hexpiry, hdropped, hmanual⟩
    · have hdrops : ¬DropsManual T R cfg facts startYear endYear rows := by
        rintro ⟨regDate', _, _, h', -⟩
        exact htrademark (h.unique h').1.symm
      rw [if_neg htrademark, and_iff_left hdrops]
      apply (respects_nonTrademark_iff T regDate R cfg facts env startYear endYear rows rightType).trans
      apply not_congr
      constructor
      · rintro ⟨hdomestic, hrange, hgone⟩
        exact ⟨rightType, regDate, h, htrademark, hdomestic, hrange, hgone⟩
      · rintro ⟨rightType', regDate', h', -, hdomestic, hrange, hgone⟩
        rw [(h.unique h').1, (h.unique h').2] at hrange
        exact ⟨hdomestic, hrange, hgone⟩
  · have hnone : ∀ rightType regDate, ¬Generates cfg facts rightType regDate :=
      fun rightType regDate h => hgenerates ⟨rightType, regDate, h⟩
    rw [ensureAnnuities_of_not hnone rows]
    refine iff_of_true hrefl ⟨?_, ?_⟩
    · rintro ⟨rightType, regDate, h, -⟩
      exact hnone rightType regDate h
    · rintro ⟨regDate, _, _, h, -⟩
      exact hnone .trademark regDate h

/-- A row of the matter that nobody has paid, with no memo. -/
def recordedRow (cycleNo : Int) (status : String) : AnnuityItem where
  annuityId := "a".toList
  matterId := "m-1".toList
  cycleNo := cycleNo
  annuityStatus := some status.toList

/-- The second year of a patent was given up, and is marked as paid. The payment of the fifth year of a
trademark that was paid for ten years was entered by hand, and is deleted. -/
theorem records_are_overwritten :
    ¬Respects asciiTables [recordedRow 2 "giveup"]
        (ensureAnnuitiesForMatter asciiTables calendarDelta {} (registeredFacts .patent none)
          ⟨1, fun _ => "b".toList⟩ none none [recordedRow 2 "giveup"]).1 ∧
      ¬Respects asciiTables [recordedRow 5 "pending"]
        (ensureAnnuitiesForMatter asciiTables calendarDelta {}
          { registeredFacts .trademark (some ⟨2030, 3, 10, by decide, by decide, by decide⟩) with
            explicitPaymentTerm := some .ten }
          ⟨1, fun _ => "b".toList⟩ none none [recordedRow 5 "pending"]).1 := by
  constructor
  · intro h
    obtain ⟨r', hr', hrow⟩ := h 0 (recordedRow 2 "giveup") rfl
    have hpaid : ((ensureAnnuitiesForMatter asciiTables calendarDelta {} (registeredFacts .patent none)
        ⟨1, fun _ => "b".toList⟩ none none [recordedRow 2 "giveup"]).1[0]?).map (isPaid asciiTables) =
          some true := by decide +kernel
    rw [hr', Option.map_some, hrow.unpaid (by decide) (by decide)] at hpaid
    cases hpaid
  · intro h
    obtain ⟨r', hr', hrow⟩ := h 0 (recordedRow 5 "pending") rfl
    have hdeleted : ((ensureAnnuitiesForMatter asciiTables calendarDelta {}
        { registeredFacts .trademark (some ⟨2030, 3, 10, by decide, by decide, by decide⟩) with
          explicitPaymentTerm := some .ten }
        ⟨1, fun _ => "b".toList⟩ none none [recordedRow 5 "pending"]).1[0]?).map (·.isDeleted) =
          some true := by decide +kernel
    rw [hr', Option.map_some, hrow.live rfl (.inr (by decide))] at hdeleted
    cases hdeleted

end Respects
end IpDocket.Annuity
