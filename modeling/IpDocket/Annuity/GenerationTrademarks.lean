import IpDocket.Annuity.GenerationSteps

/-!
# Trademarks generated twice

The second call meets the rows of the first. It changes none of them unless the owner is never found in
the row that it was written to, or the payment term, which is read from the rows, has changed: a live
row of a fifth year may be deleted as stale, or one may be made by the renewal.
-/

namespace IpDocket.Annuity
open IpDocket.Lib IpDocket.Deletion

section Steps

/-- A step that changes nothing is one that leaves the rows alone. -/
def Counts (step : Step) : Prop := ∀ rows rows', step rows = (rows', some 0) → rows' = rows

lemma andThen_eq_some {first second : Step} {rows rows' : List AnnuityItem} {n : Nat} :
    first.andThen second rows = (rows', some n) ↔
      ∃ between a b, first rows = (between, some a) ∧ second between = (rows', some b) ∧ a + b = n := by
  unfold Step.andThen
  obtain ⟨between, count⟩ := first rows
  cases count with
  | none => simp
  | some a =>
    dsimp only
    rw [Prod.mk.injEq, Option.map_eq_some_iff]
    constructor
    · rintro ⟨hrows, b, hcount, hsum⟩
      exact ⟨between, a, b, rfl, Prod.ext hrows hcount, hsum⟩
    · rintro ⟨between', a', b, h, h', hsum⟩
      cases h
      rw [h']
      exact ⟨rfl, b, rfl, hsum⟩

lemma andThen_eq_self {first second : Step} (hfirst : Counts first) {rows : List AnnuityItem} :
    first.andThen second rows = (rows, some 0) ↔
      first rows = (rows, some 0) ∧ second rows = (rows, some 0) := by
  rw [andThen_eq_some]
  constructor
  · rintro ⟨between, a, b, h, h', hsum⟩
    obtain ⟨rfl, rfl⟩ : a = 0 ∧ b = 0 := by omega
    have hsame := hfirst rows between h
    subst hsame
    exact ⟨h, h'⟩
  · rintro ⟨h, h'⟩
    exact ⟨rows, 0, 0, h, h', rfl⟩

lemma returns_eq_some {f : List AnnuityItem → List AnnuityItem × Nat} {rows rows' : List AnnuityItem}
    {n : Nat} : returns f rows = (rows', some n) ↔ f rows = (rows', n) := by
  unfold returns
  rw [Prod.mk.injEq, Option.some_inj, Prod.ext_iff]

lemma counts_skips : Counts skips := by
  intro rows rows' h
  cases h
  rfl

lemma counts_raises : Counts raises := by
  intro rows rows' h
  cases h

lemma counts_changeRows (f : AnnuityItem → Option AnnuityItem) : Counts (returns (changeRows f)) := by
  intro rows rows' h
  rw [returns_eq_some] at h
  have hcount : (changeRows f rows).2 = 0 := by rw [h]
  rw [changeRows_eq_self (changeRows_count_eq_zero.mp hcount)] at h
  cases h
  rfl

lemma counts_ensureItem (update : AnnuityItem → AnnuityItem × Bool) (new : AnnuityItem) :
    Counts (returns (ensureItem update new)) := by
  intro rows rows' h
  rw [returns_eq_some] at h
  cases hrow : rowAt rows new.cycleNo with
  | none =>
    rw [ensureItem_of_none hrow] at h
    cases h
  | some r =>
    rw [ensureItem_of_rowAt hrow, ← returns_eq_some] at h
    exact counts_changeRows _ rows rows' h

end Steps

section Ensured

variable (T : UnicodeTables) (facts : AnnuityFacts)

def UserDeletedAt (rows : List AnnuityItem) (c : Int) : Prop :=
  ∃ r, rowAt rows c = some r ∧ isUserDeleted r = true

/-- What the generator makes of the row of a cycle: it is as a user has deleted it, or it is live, paid if
it was, and dated by the plan. -/
def EnsuredAt (plan : ItemPlan) (c : Int) (rows rows' : List AnnuityItem) : Prop :=
  ∃ r, rowAt rows' c = some r ∧
    ((isUserDeleted r = true ∧ rowAt rows c = some r) ∨
      (r.isDeleted = false ∧ ¬UserDeletedAt rows c ∧ isPaid T r = (rowAt rows c).any (isPaid T) ∧
        (StrippedOwner facts.defaultOwner →
          touchItem (updateTrademark T facts.defaultOwner plan) r = none)))

/-- The second call finds the owner that the first has written, or a row that it passes over. -/
def RowKept (rows : List AnnuityItem) (c : Int) : Prop :=
  StrippedOwner facts.defaultOwner ∨ UserDeletedAt rows c

variable {T facts} {rows rows' : List AnnuityItem} {plan : ItemPlan} {c : Int}

lemma touchItem_eq_none {update : AnnuityItem → AnnuityItem × Bool} {r : AnnuityItem} :
    touchItem update r = none ↔ isUserDeleted r = true ∨ (update r).2 = false := by
  unfold touchItem
  by_cases huser : isUserDeleted r = true
  · simp [huser]
  · cases hchanged : (update r).2 with
    | true => simp [huser]
    | false => simp [huser]

lemma live_of_updateTrademark {r : AnnuityItem} {owner : Option Text}
    (h : (updateTrademark T owner plan r).2 = false) : r.isDeleted = false := by
  cases hpaid : isPaid T r with
  | true =>
    rw [updateTrademark_paid hpaid, Bool.or_eq_false_iff] at h
    exact h.1
  | false =>
    rw [updateTrademark_unpaid hpaid] at h
    simp only [Bool.or_eq_false_iff] at h
    exact h.1.1.1.1.1

lemma ensuredAt_ensureItem {env : CallEnv} {fields : List (String × Text)} :
    EnsuredAt T facts plan c rows (ensureItem (updateTrademark T facts.defaultOwner plan)
      (newItem facts env c plan fields) rows).1 := by
  have hkeeps : ∀ r, (updateTrademark T facts.defaultOwner plan r).1.cycleNo = r.cycleNo :=
    fun r => (updateTrademark_facts T facts.defaultOwner plan r).2.1
  have hrow := @rowAt_ensureItem_self _ (newItem facts env c plan fields) rows hkeeps
  refine ⟨_, hrow, ?_⟩
  have hcycle : (newItem facts env c plan fields).cycleNo = c := rfl
  rw [hcycle]
  cases hold : rowAt rows c with
  | none =>
    refine .inr ⟨rfl, ?_, isPaid_newItem, fun howner => touchItem_newTrademark howner⟩
    rintro ⟨r, hr, -⟩
    rw [hold] at hr
    cases hr
  | some r =>
    rw [Option.map_some, Option.getD_some]
    by_cases huser : isUserDeleted r = true
    · have hnone : touchItem (updateTrademark T facts.defaultOwner plan) r = none :=
        touchItem_eq_none.mpr (.inl huser)
      rw [hnone]
      exact .inl ⟨huser, rfl⟩
    · refine .inr ⟨?_, ?_, ?_, fun howner => touchItem_again (settles_updateTrademark howner plan) r⟩
      · cases htouch : touchItem (updateTrademark T facts.defaultOwner plan) r with
        | none => exact live_of_updateTrademark ((touchItem_eq_none.mp htouch).resolve_left huser)
        | some r' =>
          unfold touchItem at htouch
          rw [if_neg huser] at htouch
          split at htouch
          · rw [Option.getD_some, ← Option.some_inj.mp htouch]
            exact (updateTrademark_facts T _ plan r).1
          · cases htouch
      · rintro ⟨s, hs, hdeleted⟩
        rw [hold, Option.some_inj] at hs
        rw [hs] at huser
        exact huser hdeleted
      · rw [Option.any_some]
        cases htouch : touchItem (updateTrademark T facts.defaultOwner plan) r with
        | none => rfl
        | some r' =>
          unfold touchItem at htouch
          rw [if_neg huser] at htouch
          split at htouch
          · rw [Option.getD_some, ← Option.some_inj.mp htouch]
            exact (updateTrademark_facts T _ plan r).2.2
          · cases htouch

lemma EnsuredAt.of_rowAt_eq {rows'' : List AnnuityItem} (h : EnsuredAt T facts plan c rows rows')
    (hafter : rowAt rows'' c = rowAt rows' c) : EnsuredAt T facts plan c rows rows'' := by
  obtain ⟨r, hr, hcases⟩ := h
  exact ⟨r, hafter.trans hr, hcases⟩

lemma EnsuredAt.of_before_eq {before : List AnnuityItem} (h : EnsuredAt T facts plan c rows rows')
    (hbefore : rowAt rows c = rowAt before c) : EnsuredAt T facts plan c before rows' := by
  unfold EnsuredAt UserDeletedAt at *
  rw [hbefore] at h
  exact h

/-- The same update leaves the row alone exactly if it is kept. -/
lemma EnsuredAt.settledAt_iff (h : EnsuredAt T facts plan c rows rows') :
    SettledAt (updateTrademark T facts.defaultOwner plan) c rows' ↔ RowKept facts rows c := by
  obtain ⟨r, hr, hcases⟩ := h
  constructor
  · rintro ⟨s, hs, htouch⟩
    rw [hr, Option.some_inj] at hs
    subst hs
    by_cases howner : StrippedOwner facts.defaultOwner
    · exact .inl howner
    · obtain ⟨huser, hbefore⟩ | ⟨hlive, -⟩ := hcases
      · exact .inr ⟨r, hbefore, huser⟩
      · obtain huser | hsame := touchItem_eq_none.mp htouch
        · rw [not_isUserDeleted_of_live hlive] at huser
          cases huser
        · rw [updateTrademark_changes howner] at hsame
          cases hsame
  · intro hkept
    refine ⟨r, hr, ?_⟩
    obtain ⟨huser, -⟩ | ⟨-, hnot, -, hstripped⟩ := hcases
    · exact touchItem_eq_none.mpr (.inl huser)
    · exact hstripped (hkept.resolve_right hnot)

end Ensured

/-! ### The steps of a trademark -/

section Trademark

variable (T : UnicodeTables) (R : RelativeDelta) (cfg : AnnuityConfig) (facts : AnnuityFacts)
  (env : CallEnv) (startYear endYear : Option Int) (regDate expiry : PyDate) {splitDue : PyDate}
  (term : PaymentTerm)

/-- The second payment is due. -/
def SplitIsDue : Prop := term = .five ∨ trademarkCycleNoFromDates regDate expiry ≤ 5

instance : Decidable (SplitIsDue regDate expiry term) :=
  inferInstanceAs (Decidable (term = .five ∨ trademarkCycleNoFromDates regDate expiry ≤ 5))

def unsplit (T : UnicodeTables) (env : CallEnv) (cycleNo : Int) (r : AnnuityItem) : Option AnnuityItem :=
  if r.cycleNo = cycleNo then
    softDeleteUnpaid T env.now "auto_reconcile:trademark_registration_payment_term".toList r
  else none

variable {T R cfg facts env startYear endYear regDate expiry term}

lemma cycleNo_splitDue (h : splitDueDate R regDate expiry = some splitDue) :
    (trademarkCycleNoFromDates regDate expiry ≤ 5 →
        trademarkCycleNoFromDates regDate splitDue = trademarkCycleNoFromDates regDate expiry) ∧
      (5 < trademarkCycleNoFromDates regDate expiry →
        trademarkCycleNoFromDates regDate splitDue < trademarkCycleNoFromDates regDate expiry) := by
  unfold splitDueDate at h
  split at h
  · next hle =>
    cases h
    exact ⟨fun _ => rfl, fun hlt => by omega⟩
  · next hlt =>
    refine ⟨fun hle => by omega, fun _ => ?_⟩
    have hyear := (anniversary_fields h).1
    unfold trademarkCycleNoFromDates at hlt ⊢
    dsimp only at hlt ⊢
    split at hlt <;> split <;> omega

lemma split_of_out (h : splitDueDate R regDate expiry = some splitDue)
    (hout : withinRequestedCycleRange startYear endYear (trademarkCycleNoFromDates regDate splitDue) = false) :
    ensureSplitPaymentItem T R cfg facts env startYear endYear regDate expiry term = skips := by
  unfold ensureSplitPaymentItem
  rw [h]
  dsimp only
  rw [if_pos hout]

variable (T facts env) in
lemma split_of_due (h : splitDueDate R regDate expiry = some splitDue)
    (hin : withinRequestedCycleRange startYear endYear (trademarkCycleNoFromDates regDate splitDue) = true)
    (hdue : SplitIsDue regDate expiry term) {plan : ItemPlan} (hplan : splitPlan cfg splitDue = some plan) :
    ∃ fields, ensureSplitPaymentItem T R cfg facts env startYear endYear regDate expiry term =
      returns (ensureItem (updateTrademark T facts.defaultOwner plan)
        (newItem facts env (trademarkCycleNoFromDates regDate splitDue) plan fields)) := by
  unfold SplitIsDue at hdue
  unfold ensureSplitPaymentItem
  rw [h]
  dsimp only
  rw [if_neg (by simp [hin]), if_pos hdue, hplan]
  exact ⟨_, rfl⟩

lemma split_of_no_plan (h : splitDueDate R regDate expiry = some splitDue)
    (hin : withinRequestedCycleRange startYear endYear (trademarkCycleNoFromDates regDate splitDue) = true)
    (hdue : SplitIsDue regDate expiry term) (hplan : splitPlan cfg splitDue = none) :
    ensureSplitPaymentItem T R cfg facts env startYear endYear regDate expiry term = raises := by
  unfold SplitIsDue at hdue
  unfold ensureSplitPaymentItem
  rw [h]
  dsimp only
  rw [if_neg (by simp [hin]), if_pos hdue, hplan]

lemma split_of_not_due (h : splitDueDate R regDate expiry = some splitDue)
    (hin : withinRequestedCycleRange startYear endYear (trademarkCycleNoFromDates regDate splitDue) = true)
    (hdue : ¬SplitIsDue regDate expiry term) :
    ensureSplitPaymentItem T R cfg facts env startYear endYear regDate expiry term =
      returns (changeRows (unsplit T env (trademarkCycleNoFromDates regDate splitDue))) := by
  unfold ensureSplitPaymentItem
  rw [h]
  dsimp only
  rw [if_neg (by simp [hin])]
  exact if_neg hdue

lemma renewal_of_out (h : trademarkCycleNoFromDates regDate expiry ≤ 5 ∨
      withinRequestedCycleRange startYear endYear (trademarkCycleNoFromDates regDate expiry) = false) :
    ensureRenewalItem T R cfg facts env startYear endYear regDate expiry = skips := by
  unfold ensureRenewalItem
  dsimp only
  split
  · rfl
  · next hlt => rw [if_pos (h.resolve_left hlt)]

variable (T facts env) in
lemma renewal_of_plan (hlt : 5 < trademarkCycleNoFromDates regDate expiry)
    (hin : withinRequestedCycleRange startYear endYear (trademarkCycleNoFromDates regDate expiry) = true)
    {plan : ItemPlan} (hplan : renewalPlan R cfg expiry = some plan) :
    ∃ fields, ensureRenewalItem T R cfg facts env startYear endYear regDate expiry =
      returns (ensureItem (updateTrademark T facts.defaultOwner plan)
        (newItem facts env (trademarkCycleNoFromDates regDate expiry) plan fields)) := by
  unfold ensureRenewalItem
  dsimp only
  rw [if_neg (by omega), if_neg (by simp [hin]), hplan]
  exact ⟨_, rfl⟩

lemma renewal_of_no_plan (hlt : 5 < trademarkCycleNoFromDates regDate expiry)
    (hin : withinRequestedCycleRange startYear endYear (trademarkCycleNoFromDates regDate expiry) = true)
    (hplan : renewalPlan R cfg expiry = none) :
    ensureRenewalItem T R cfg facts env startYear endYear regDate expiry = raises := by
  unfold ensureRenewalItem
  dsimp only
  rw [if_neg (by omega), if_neg (by simp [hin]), hplan]

/-- The cycles that are expected, with the cycle of the second payment given. -/
def expectedList (startYear endYear : Option Int) (splitCycleNo renewalCycleNo : Int)
    (term : PaymentTerm) : List Int :=
  (if renewalCycleNo ≤ 5 then [renewalCycleNo]
    else if term = .five then [splitCycleNo, renewalCycleNo]
    else [renewalCycleNo]).filter (withinRequestedCycleRange startYear endYear)

lemma expectedCycles_eq (h : splitDueDate R regDate expiry = some splitDue) :
    expectedCycles R startYear endYear regDate expiry term =
      some (expectedList startYear endYear (trademarkCycleNoFromDates regDate splitDue)
        (trademarkCycleNoFromDates regDate expiry) term) := by
  unfold splitDueDate at h
  unfold expectedCycles expectedList
  dsimp only
  split at h
  · next hle => rw [if_pos hle, if_pos hle]
  · next hlt =>
    rw [if_neg hlt, if_neg hlt, h]
    split <;> rfl

variable (startYear endYear term) in
/-- The cycles that are expected are those of the rows that are ensured. -/
lemma mem_expectedList (h : splitDueDate R regDate expiry = some splitDue) {c : Int} :
    c ∈ expectedList startYear endYear (trademarkCycleNoFromDates regDate splitDue)
        (trademarkCycleNoFromDates regDate expiry) term ↔
      withinRequestedCycleRange startYear endYear c = true ∧
        ((c = trademarkCycleNoFromDates regDate splitDue ∧ SplitIsDue regDate expiry term) ∨
          (c = trademarkCycleNoFromDates regDate expiry ∧ 5 < trademarkCycleNoFromDates regDate expiry)) := by
  have hsame := (cycleNo_splitDue h).1
  unfold expectedList SplitIsDue
  rw [List.mem_filter, and_comm]
  apply and_congr_right
  intro _
  by_cases hle : trademarkCycleNoFromDates regDate expiry ≤ 5
  · rw [if_pos hle, List.mem_singleton, hsame hle]
    have hlt : ¬5 < trademarkCycleNoFromDates regDate expiry := by omega
    simp [hle, hlt]
  · have hlt : 5 < trademarkCycleNoFromDates regDate expiry := by omega
    rw [if_neg hle]
    by_cases hfive : term = .five
    · simp [hfive, hlt]
    · simp [hfive, hle, hlt]

lemma softDelete_eq_none {now : Nat} {reason : Text} {r : AnnuityItem} :
    softDeleteUnpaid T now reason r = none ↔ r.isDeleted = true ∨ isPaid T r = true := by
  unfold softDeleteUnpaid
  split
  · next h => simp [h]
  · next h => simp [h]

lemma softDelete_facts {now : Nat} {reason : Text} {r r' : AnnuityItem}
    (h : softDeleteUnpaid T now reason r = some r') :
    r.isDeleted = false ∧ isPaid T r = false ∧ r'.cycleNo = r.cycleNo ∧ r'.isDeleted = true ∧
      r'.deleteReason = some reason := by
  unfold softDeleteUnpaid at h
  split at h
  · cases h
  · next hne =>
    rw [not_or, Bool.not_eq_true, Bool.not_eq_true] at hne
    rw [← Option.some_inj.mp h]
    exact ⟨hne.1, hne.2, rfl, rfl, rfl⟩

/-- The reasons of the generators are none of a user. -/
def AutoReason (reason : Text) : Prop := pyStrip reason ∉ userDeleteReasons

lemma isUserDeleted_softDelete {now : Nat} {reason : Text} (hreason : AutoReason reason) (r : AnnuityItem) :
    isUserDeleted ((softDeleteUnpaid T now reason r).getD r) = isUserDeleted r := by
  cases h : softDeleteUnpaid T now reason r with
  | none => rfl
  | some r' =>
    obtain ⟨hlive, -, -, -, hreason'⟩ := softDelete_facts h
    rw [not_isUserDeleted_of_live hlive, Option.getD_some]
    unfold isUserDeleted
    rw [hreason', Option.getD_some, Bool.and_eq_false_iff]
    exact .inr (decide_eq_false hreason)

lemma unsplit_keeps (c : Int) : KeepsCycle (unsplit T env c) := by
  intro r r' h
  unfold unsplit at h
  split at h
  · exact (softDelete_facts h).2.2.1
  · cases h

/-- The row is stale: the second call of the cleanup would delete it. -/
def isStale (T : UnicodeTables) (startYear endYear : Option Int) (expected : List Int) (r : AnnuityItem) :
    Bool :=
  expected ≠ [] && (!r.isDeleted && (0 < r.cycleNo && (r.cycleNo ∉ expected &&
    (withinRequestedCycleRange startYear endYear r.cycleNo && (isAutoGenerated r && !isPaid T r)))))

variable {expected : List Int}

lemma pruneStale_eq_none {r : AnnuityItem} :
    pruneStale T env startYear endYear expected r = none ↔ isStale T startYear endYear expected r = false := by
  unfold pruneStale isStale
  split
  · next h =>
    refine iff_of_true rfl ?_
    obtain h | h | h | h | h | h := h
    · simp [h]
    · simp [h]
    · have hcycle : ¬0 < r.cycleNo := not_lt.mpr h
      simp [hcycle]
    · simp [h]
    · simp [h]
    · simp [h]
  · next h =>
    simp only [not_or, Bool.not_eq_true, Bool.not_eq_false, not_le] at h
    obtain ⟨hne, hlive, hcycle, hmem, hin, hauto⟩ := h
    rw [softDelete_eq_none]
    simp [hne, hlive, hcycle, hmem, hin, hauto]

lemma pruneStale_facts {r r' : AnnuityItem}
    (h : pruneStale T env startYear endYear expected r = some r') :
    softDeleteUnpaid T env.now "auto_reconcile:trademark_term_expiry_date".toList r = some r' := by
  unfold pruneStale at h
  split at h
  · cases h
  · exact h

lemma pruneStale_keeps : KeepsCycle (pruneStale T env startYear endYear expected) := by
  intro r r' h
  exact (softDelete_facts (pruneStale_facts h)).2.2.1

lemma pruneStale_of_expected {r : AnnuityItem} (h : r.cycleNo ∈ expected) :
    pruneStale T env startYear endYear expected r = none := by
  rw [pruneStale_eq_none]
  simp [isStale, h]

lemma pruneStale_of_gone {r : AnnuityItem} (h : r.isDeleted = true ∨ isPaid T r = true) :
    pruneStale T env startYear endYear expected r = none := by
  rw [pruneStale_eq_none]
  obtain h | h := h
  · simp [isStale, h]
  · simp [isStale, h]

variable (env) in
lemma pruneStale_again (r : AnnuityItem) :
    pruneStale T env startYear endYear expected
      ((pruneStale T env startYear endYear expected r).getD r) = none := by
  cases h : pruneStale T env startYear endYear expected r with
  | none => exact h
  | some r' => exact pruneStale_of_gone (.inl (softDelete_facts (pruneStale_facts h)).2.2.2.1)

lemma pruneStale_unsplit {c : Int} {r : AnnuityItem} (hc : r.cycleNo = c) :
    pruneStale T env startYear endYear expected ((unsplit T env c r).getD r) = none := by
  unfold unsplit
  rw [if_pos hc]
  cases h : softDeleteUnpaid T env.now
      "auto_reconcile:trademark_registration_payment_term".toList r with
  | none => exact pruneStale_of_gone (softDelete_eq_none.mp h)
  | some r' => exact pruneStale_of_gone (.inl (softDelete_facts h).2.2.2.1)

variable {rows rows' : List AnnuityItem} {n : Nat}

lemma updateTrademark_cycleNo {owner : Option Text} (plan : ItemPlan) (r : AnnuityItem) :
    (updateTrademark T owner plan r).1.cycleNo = r.cycleNo := (updateTrademark_facts T _ plan r).2.1

/-- What the step for the second payment leaves. -/
structure SplitLeft (T : UnicodeTables) (cfg : AnnuityConfig) (facts : AnnuityFacts) (env : CallEnv)
    (startYear endYear : Option Int) (regDate expiry splitDue : PyDate) (term : PaymentTerm)
    (rows rows' : List AnnuityItem) : Prop where
  distinct : DistinctCycles rows'
  others : ∀ c, c ≠ trademarkCycleNoFromDates regDate splitDue → rowAt rows' c = rowAt rows c
  skipped : withinRequestedCycleRange startYear endYear (trademarkCycleNoFromDates regDate splitDue) = false →
    rows' = rows
  ensured : withinRequestedCycleRange startYear endYear (trademarkCycleNoFromDates regDate splitDue) = true →
    SplitIsDue regDate expiry term → ∃ plan, splitPlan cfg splitDue = some plan ∧
      EnsuredAt T facts plan (trademarkCycleNoFromDates regDate splitDue) rows rows'
  deleted : withinRequestedCycleRange startYear endYear (trademarkCycleNoFromDates regDate splitDue) = true →
    ¬SplitIsDue regDate expiry term → rowAt rows' (trademarkCycleNoFromDates regDate splitDue) =
      (rowAt rows (trademarkCycleNoFromDates regDate splitDue)).map (fun r =>
        (unsplit T env (trademarkCycleNoFromDates regDate splitDue) r).getD r)

lemma splitLeft_of_run (hsplit : splitDueDate R regDate expiry = some splitDue) (hrows : DistinctCycles rows)
    (h : ensureSplitPaymentItem T R cfg facts env startYear endYear regDate expiry term rows =
      (rows', some n)) :
    SplitLeft T cfg facts env startYear endYear regDate expiry splitDue term rows rows' := by
  cases hin : withinRequestedCycleRange startYear endYear (trademarkCycleNoFromDates regDate splitDue) with
  | false =>
    rw [split_of_out hsplit hin] at h
    cases h
    refine ⟨hrows, fun _ _ => rfl, fun _ => rfl, fun h => ?_, fun h => ?_⟩
    · rw [hin] at h
      cases h
    · rw [hin] at h
      cases h
  | true =>
    by_cases hdue : SplitIsDue regDate expiry term
    · cases hplan : splitPlan cfg splitDue with
      | none =>
        rw [split_of_no_plan hsplit hin hdue hplan] at h
        cases h
      | some plan =>
        obtain ⟨fields, hstep⟩ := split_of_due T facts env hsplit hin hdue hplan
        rw [hstep, returns_eq_some] at h
        have hrows' := congrArg Prod.fst h
        dsimp only at hrows'
        subst hrows'
        refine ⟨distinct_ensureItem (updateTrademark_cycleNo plan) hrows, fun c hc =>
          rowAt_ensureItem_of_ne (updateTrademark_cycleNo plan) hc, fun h => ?_,
          fun _ _ => ⟨plan, hplan, ensuredAt_ensureItem⟩, fun _ h => absurd hdue h⟩
        rw [hin] at h
        cases h
    · rw [split_of_not_due hsplit hin hdue, returns_eq_some] at h
      have hrows' := congrArg Prod.fst h
      dsimp only at hrows'
      subst hrows'
      refine ⟨distinct_changeRows (unsplit_keeps _) hrows, fun c hc => ?_, fun h => ?_,
        fun _ h => absurd h hdue, fun _ _ => rowAt_changeRows (unsplit_keeps _) _ _⟩
      · rw [rowAt_changeRows (unsplit_keeps _)]
        cases hrow : rowAt rows c with
        | none => rfl
        | some r =>
          rw [Option.map_some, unsplit, if_neg (fun heq => hc ((cycleNo_of_rowAt hrow).symm.trans heq))]
          rfl
      · rw [hin] at h
        cases h

/-- What the step for the renewal leaves. -/
structure RenewalLeft (T : UnicodeTables) (R : RelativeDelta) (cfg : AnnuityConfig) (facts : AnnuityFacts)
    (startYear endYear : Option Int) (regDate expiry : PyDate) (rows rows' : List AnnuityItem) : Prop where
  distinct : DistinctCycles rows'
  others : ∀ c, c ≠ trademarkCycleNoFromDates regDate expiry → rowAt rows' c = rowAt rows c
  skipped : trademarkCycleNoFromDates regDate expiry ≤ 5 ∨
    withinRequestedCycleRange startYear endYear (trademarkCycleNoFromDates regDate expiry) = false →
      rows' = rows
  ensured : 5 < trademarkCycleNoFromDates regDate expiry →
    withinRequestedCycleRange startYear endYear (trademarkCycleNoFromDates regDate expiry) = true →
      ∃ plan, renewalPlan R cfg expiry = some plan ∧
        EnsuredAt T facts plan (trademarkCycleNoFromDates regDate expiry) rows rows'

lemma renewalLeft_of_run (hrows : DistinctCycles rows)
    (h : ensureRenewalItem T R cfg facts env startYear endYear regDate expiry rows = (rows', some n)) :
    RenewalLeft T R cfg facts startYear endYear regDate expiry rows rows' := by
  by_cases hout : trademarkCycleNoFromDates regDate expiry ≤ 5 ∨
      withinRequestedCycleRange startYear endYear (trademarkCycleNoFromDates regDate expiry) = false
  · rw [renewal_of_out hout] at h
    cases h
    refine ⟨hrows, fun _ _ => rfl, fun _ => rfl, fun hlt hin => ?_⟩
    obtain hle | hfalse := hout
    · omega
    · rw [hin] at hfalse
      cases hfalse
  · rw [not_or, not_le, Bool.not_eq_false] at hout
    obtain ⟨hlt, hin⟩ := hout
    cases hplan : renewalPlan R cfg expiry with
    | none =>
      rw [renewal_of_no_plan hlt hin hplan] at h
      cases h
    | some plan =>
      obtain ⟨fields, hstep⟩ := renewal_of_plan T facts env hlt hin hplan
      rw [hstep, returns_eq_some] at h
      have hrows' := congrArg Prod.fst h
      dsimp only at hrows'
      subst hrows'
      refine ⟨distinct_ensureItem (updateTrademark_cycleNo plan) hrows, fun c hc =>
        rowAt_ensureItem_of_ne (updateTrademark_cycleNo plan) hc, fun h => ?_,
        fun _ _ => ⟨plan, hplan, ensuredAt_ensureItem⟩⟩
      obtain hle | hfalse := h
      · omega
      · rw [hin] at hfalse
        cases hfalse

end Trademark
end IpDocket.Annuity
