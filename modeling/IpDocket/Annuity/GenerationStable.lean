import IpDocket.Annuity.GenerationRuns
import IpDocket.Annuity.GenerationYears

/-!
# Generation is complete and stable

For a right that is no trademark every year of the range gets its row, and a second call changes
nothing. For a trademark the second call reads the payment term anew from the rows that the first has
left: a stale row of a fifth year is gone by then, or the renewal is itself one.
-/

namespace IpDocket.Annuity
open IpDocket.Lib IpDocket.Deletion

section SecondCall

variable (T : UnicodeTables) (R : RelativeDelta) (cfg : AnnuityConfig) (facts : AnnuityFacts)
  (env env' : CallEnv) (startYear endYear : Option Int) (regDate expiry splitDue : PyDate)
  (term : PaymentTerm) (rows : List AnnuityItem)

/-- The second payment is due by the payment term that the next call reads. -/
def DueAfter : Prop :=
  ReadsFive cfg facts (LiveAfter T startYear endYear regDate expiry splitDue term rows) ∨
    trademarkCycleNoFromDates regDate expiry ≤ 5

/-- The next call leaves the row of the second payment alone. Where the payment is due to both calls the
row is kept like every row; where it is due to the first only, the row must not be one that is deleted
when it is not; where it is due to the second only, there must be a row as it should be. -/
def SplitKept : Prop :=
  (SplitIsDue regDate expiry term →
    (DueAfter T cfg facts startYear endYear regDate expiry splitDue term rows →
      RowKept facts rows (trademarkCycleNoFromDates regDate splitDue)) ∧
    (¬DueAfter T cfg facts startYear endYear regDate expiry splitDue term rows →
      UserDeletedAt rows (trademarkCycleNoFromDates regDate splitDue) ∨
        ∃ r, rowAt rows (trademarkCycleNoFromDates regDate splitDue) = some r ∧ isPaid T r = true)) ∧
  (¬SplitIsDue regDate expiry term →
    DueAfter T cfg facts startYear endYear regDate expiry splitDue term rows →
      (splitPlan cfg splitDue).isSome = true ∧
        ∃ r, rowAt rows (trademarkCycleNoFromDates regDate splitDue) = some r ∧
          (isUserDeleted r = true ∨
            (r.isDeleted = false ∧ isPaid T r = true ∧ ownerChanges facts.defaultOwner r = false)))

variable {T R cfg facts env env' startYear endYear regDate expiry splitDue term rows}
  {rows' : List AnnuityItem} {after : PaymentTerm} {n : Nat}

lemma EnsuredAt.gone_iff {plan : ItemPlan} {c : Int} (h : EnsuredAt T facts plan c rows rows') :
    (∀ r, rowAt rows' c = some r → r.isDeleted = true ∨ isPaid T r = true) ↔
      UserDeletedAt rows c ∨ ∃ r, rowAt rows c = some r ∧ isPaid T r = true := by
  obtain ⟨r, hr, hcases⟩ := h
  simp only [hr, Option.some_inj, forall_eq']
  obtain ⟨huser, hbefore⟩ | ⟨hlive, hnot, hpaid, -⟩ := hcases
  · refine iff_of_true (.inl ?_) (.inl ⟨r, hbefore, huser⟩)
    unfold isUserDeleted at huser
    rw [Bool.and_eq_true] at huser
    exact huser.1
  · rw [hlive, hpaid]
    simp only [hnot, Bool.false_eq_true, false_or]
    rw [Option.any_eq_true]

/-- A row that is deleted unless it is paid is left alone by the update if a user has deleted it, or if
it is live, paid and has its owner. -/
lemma settledAt_unsplit {plan : ItemPlan} {c : Int}
    (h : rowAt rows' c = (rowAt rows c).map (fun r => (unsplit T env c r).getD r)) :
    SettledAt (updateTrademark T facts.defaultOwner plan) c rows' ↔
      ∃ r, rowAt rows c = some r ∧ (isUserDeleted r = true ∨
        (r.isDeleted = false ∧ isPaid T r = true ∧ ownerChanges facts.defaultOwner r = false)) := by
  unfold SettledAt
  rw [h]
  cases hrow : rowAt rows c with
  | none => simp
  | some r =>
    have hreason : AutoReason "auto_reconcile:trademark_registration_payment_term".toList := by
      unfold AutoReason
      decide
    have huser := @isUserDeleted_softDelete T env.now _ hreason r
    simp only [Option.map_some, Option.some_inj, exists_eq_left']
    unfold unsplit
    rw [if_pos (cycleNo_of_rowAt hrow), touchItem_eq_none, huser]
    apply or_congr_right
    cases hdelete : softDeleteUnpaid T env.now
        "auto_reconcile:trademark_registration_payment_term".toList r with
    | none =>
      rw [Option.getD_none]
      constructor
      · intro hsame
        have hlive := live_of_updateTrademark hsame
        have hpaid := (softDelete_eq_none.mp hdelete).resolve_left (by simp [hlive])
        rw [updateTrademark_paid hpaid, hlive] at hsame
        exact ⟨hlive, hpaid, hsame⟩
      · rintro ⟨hlive, hpaid, howner⟩
        rw [updateTrademark_paid hpaid, hlive]
        exact howner
    | some r' =>
      obtain ⟨-, hunpaid, -, hdeleted, -⟩ := softDelete_facts hdelete
      refine iff_of_false ?_ ?_
      · intro hsame
        have hlive := live_of_updateTrademark hsame
        rw [Option.getD_some, hdeleted] at hlive
        cases hlive
      · rintro ⟨-, hpaid, -⟩
        rw [hunpaid] at hpaid
        cases hpaid

lemma StepsLeft.splitIdle_iff
    (h : StepsLeft T R cfg facts env startYear endYear regDate expiry splitDue term rows rows')
    (hin : withinRequestedCycleRange startYear endYear (trademarkCycleNoFromDates regDate splitDue) = true)
    (hafter : SplitIsDue regDate expiry after ↔
      DueAfter T cfg facts startYear endYear regDate expiry splitDue term rows) :
    SplitIdle T cfg facts regDate expiry splitDue after rows' ↔
      SplitKept T cfg facts startYear endYear regDate expiry splitDue term rows := by
  unfold SplitIdle SplitKept
  rw [hafter]
  by_cases hdue : SplitIsDue regDate expiry term
  · obtain ⟨plan, hplan, hensured⟩ := h.splitEnsured hin hdue
    simp only [hdue, hplan, true_imp_iff, not_true_eq_false, false_imp_iff, and_true, Option.some_inj,
      exists_eq_left']
    rw [hensured.settledAt_iff, hensured.gone_iff]
  · have hrow := h.splitDeleted hin hdue
    simp only [hdue, not_false_eq_true, true_imp_iff, false_imp_iff, true_and]
    have hgone : ∀ r, rowAt rows' (trademarkCycleNoFromDates regDate splitDue) = some r →
        r.isDeleted = true ∨ isPaid T r = true := by
      intro r hr
      rw [hrow] at hr
      obtain ⟨s, hs, rfl⟩ := Option.map_eq_some_iff.mp hr
      rw [unsplit, if_pos (cycleNo_of_rowAt hs)]
      cases hdelete : softDeleteUnpaid T env.now
          "auto_reconcile:trademark_registration_payment_term".toList s with
      | none => exact softDelete_eq_none.mp hdelete
      | some s' => exact .inl (softDelete_facts hdelete).2.2.2.1
    constructor
    · rintro ⟨hsettled, -⟩ hdueAfter
      obtain ⟨plan, hplan, hsettled⟩ := hsettled hdueAfter
      rw [hplan]
      exact ⟨rfl, (settledAt_unsplit hrow).mp hsettled⟩
    · intro hkept
      refine ⟨fun hdueAfter => ?_, fun _ => hgone⟩
      obtain ⟨hplan, hsettled⟩ := hkept hdueAfter
      obtain ⟨plan, hplan⟩ := Option.isSome_iff_exists.mp hplan
      exact ⟨plan, hplan, (settledAt_unsplit hrow).mpr hsettled⟩

lemma expectedList_of_le (startYear endYear : Option Int) {splitCycleNo renewalCycleNo : Int}
    (term after : PaymentTerm) (hle : renewalCycleNo ≤ 5) :
    expectedList startYear endYear splitCycleNo renewalCycleNo term =
      expectedList startYear endYear splitCycleNo renewalCycleNo after := by
  unfold expectedList
  rw [if_pos hle, if_pos hle]

/-- The term that is read changes to five years only if the renewal was made by the first call. -/
lemma renewal_in_range (hsplit : splitDueDate R regDate expiry = some splitDue) (hrows : DistinctCycles rows)
    (h : StepsLeft T R cfg facts env startYear endYear regDate expiry splitDue
      (registrationPaymentTerm cfg facts rows) rows rows')
    (hlt : 5 < trademarkCycleNoFromDates regDate expiry)
    (hbefore : registrationPaymentTerm cfg facts rows ≠ .five)
    (hafter : registrationPaymentTerm cfg facts rows' = .five) :
    withinRequestedCycleRange startYear endYear (trademarkCycleNoFromDates regDate expiry) = true := by
  by_contra hout
  apply hbefore
  rw [registrationPaymentTerm_eq_five hrows]
  have hnone : ∀ c, c ∉ expectedList startYear endYear (trademarkCycleNoFromDates regDate splitDue)
      (trademarkCycleNoFromDates regDate expiry) (registrationPaymentTerm cfg facts rows) := by
    intro c hc
    obtain ⟨hin, ⟨-, hfive | hle⟩ | ⟨rfl, -⟩⟩ := (mem_expectedList startYear endYear _ hsplit).mp hc
    · exact hbefore hfive
    · omega
    · exact hout hin
  obtain hexplicit | ⟨hexplicit, ⟨c, hc, hlive⟩ | hcfg⟩ := (h.term_iff hsplit).mp hafter
  · exact .inl hexplicit
  · obtain ⟨hmem, -⟩ | ⟨-, r, hr, hlive, -⟩ := hlive
    · exact absurd hmem (hnone c)
    · exact .inr ⟨hexplicit, .inl ⟨c, hc, r, hr, hlive⟩⟩
  · exact .inr ⟨hexplicit, .inr hcfg⟩

/-- The cleanup of the second call finds nothing that the first has left, whatever the payment term is
by then. -/
lemma StepsLeft.pruned_again (hsplit : splitDueDate R regDate expiry = some splitDue)
    (hrows : DistinctCycles rows)
    (h : StepsLeft T R cfg facts env startYear endYear regDate expiry splitDue
      (registrationPaymentTerm cfg facts rows) rows rows')
    (hidle : withinRequestedCycleRange startYear endYear (trademarkCycleNoFromDates regDate splitDue) = true →
      SplitIdle T cfg facts regDate expiry splitDue (registrationPaymentTerm cfg facts rows') rows') :
    ∀ r ∈ rows', isStale T startYear endYear
      (expectedList startYear endYear (trademarkCycleNoFromDates regDate splitDue)
        (trademarkCycleNoFromDates regDate expiry) (registrationPaymentTerm cfg facts rows')) r = false := by
  intro r hr
  have hold := h.pruned r hr
  by_cases hle : trademarkCycleNoFromDates regDate expiry ≤ 5
  · rw [expectedList_of_le startYear endYear _ _ hle] at hold
    exact hold
  rw [not_le] at hle
  by_contra hstale
  rw [Bool.not_eq_false] at hstale
  unfold isStale at hstale hold
  simp only [Bool.and_eq_true, Bool.not_eq_true', decide_eq_true_eq] at hstale
  obtain ⟨hne, hlive, hpos, hmem, hin, hauto, hunpaid⟩ := hstale
  simp only [hlive, hpos, hin, hauto, hunpaid, decide_true, Bool.not_false, Bool.and_true,
    Bool.true_and, Bool.and_eq_false_iff, decide_eq_false_iff_not, not_not] at hold
  rw [mem_expectedList startYear endYear _ hsplit] at hmem
  obtain hempty | hmember := hold
  · -- the first call has expected nothing, so that the renewal is not in the range
    obtain ⟨c, hc⟩ := List.exists_mem_of_ne_nil _ hne
    rw [mem_expectedList startYear endYear _ hsplit] at hc
    have hrenewal : withinRequestedCycleRange startYear endYear
        (trademarkCycleNoFromDates regDate expiry) = true := by
      obtain ⟨hwithin, ⟨rfl, hfive | hle'⟩ | ⟨rfl, -⟩⟩ := hc
      · by_cases hbefore : registrationPaymentTerm cfg facts rows = .five
        · have hmem' := (mem_expectedList startYear endYear (registrationPaymentTerm cfg facts rows)
            hsplit).mpr ⟨hwithin, .inl ⟨rfl, .inl hbefore⟩⟩
          rw [hempty] at hmem'
          cases hmem'
        · exact renewal_in_range hsplit hrows h hle hbefore hfive
      · omega
      · exact hwithin
    have hmem' := (mem_expectedList startYear endYear (registrationPaymentTerm cfg facts rows)
      hsplit).mpr ⟨hrenewal, .inr ⟨rfl, hle⟩⟩
    rw [hempty] at hmem'
    cases hmem'
  · -- the row is expected by the first call only: it is that of the second payment
    obtain ⟨-, ⟨hcycle, -⟩ | hrenewal⟩ := (mem_expectedList startYear endYear _ hsplit).mp hmember
    · have hdue : ¬SplitIsDue regDate expiry (registrationPaymentTerm cfg facts rows') :=
        fun hdue => hmem ⟨hin, .inl ⟨hcycle, hdue⟩⟩
      have hrow := rowAt_of_mem h.distinct hr
      rw [hcycle] at hrow hin
      obtain hdeleted | hpaid := (hidle hin).2 hdue r hrow
      · rw [hlive] at hdeleted
        cases hdeleted
      · rw [hunpaid] at hpaid
        cases hpaid
    · exact hmem ⟨hin, .inr hrenewal⟩

lemma andThen_returns {first second : Step} (hfirst : ∃ between a, first rows = (between, some a))
    (hsecond : ∀ between, ∃ rows' b, second between = (rows', some b)) :
    ∃ rows' n, first.andThen second rows = (rows', some n) := by
  obtain ⟨between, a, hfirst⟩ := hfirst
  obtain ⟨rows', b, hsecond⟩ := hsecond between
  exact ⟨rows', a + b, andThen_eq_some.mpr ⟨between, a, b, hfirst, hsecond, rfl⟩⟩

lemma andThen_raises {first second : Step} (h : ∀ rows, (second rows).2 = none) (rows : List AnnuityItem) :
    (first.andThen second rows).2 = none := by
  unfold Step.andThen
  obtain ⟨between, count⟩ := first rows
  cases count with
  | none => rfl
  | some a =>
    dsimp only
    rw [h, Option.map_none]

lemma steps_return (hsplit : splitDueDate R regDate expiry = some splitDue)
    (h : StepsReturn R cfg startYear endYear regDate expiry splitDue term) :
    ∃ rows' n, trademarkSteps T R cfg facts env startYear endYear regDate expiry splitDue term rows =
      (rows', some n) := by
  unfold trademarkSteps
  apply andThen_returns
  · cases hin : withinRequestedCycleRange startYear endYear (trademarkCycleNoFromDates regDate splitDue) with
    | false =>
      rw [split_of_out hsplit hin]
      exact ⟨rows, 0, rfl⟩
    | true =>
      by_cases hdue : SplitIsDue regDate expiry term
      · obtain ⟨plan, hplan⟩ := Option.isSome_iff_exists.mp (h.1 hin hdue)
        obtain ⟨fields, hstep⟩ := split_of_due T facts env hsplit hin hdue hplan
        rw [hstep]
        exact ⟨_, _, rfl⟩
      · rw [split_of_not_due hsplit hin hdue]
        exact ⟨_, _, rfl⟩
  · intro between
    apply andThen_returns
    · by_cases hout : trademarkCycleNoFromDates regDate expiry ≤ 5 ∨
          withinRequestedCycleRange startYear endYear (trademarkCycleNoFromDates regDate expiry) = false
      · rw [renewal_of_out hout]
        exact ⟨between, 0, rfl⟩
      · rw [not_or, not_le, Bool.not_eq_false] at hout
        obtain ⟨plan, hplan⟩ := Option.isSome_iff_exists.mp (h.2 hout.1 hout.2)
        obtain ⟨fields, hstep⟩ := renewal_of_plan T facts env hout.1 hout.2 hplan
        rw [hstep]
        exact ⟨_, _, rfl⟩
    · intro renewed
      exact ⟨_, _, rfl⟩

/-- A step that raises leaves the rows alone, or it raises whatever the rows are. -/
lemma steps_raise (hsplit : splitDueDate R regDate expiry = some splitDue)
    (h : ¬StepsReturn R cfg startYear endYear regDate expiry splitDue term) :
    trademarkSteps T R cfg facts env startYear endYear regDate expiry splitDue term rows = (rows, none) ∨
      ∀ env after rows, (trademarkSteps T R cfg facts env startYear endYear regDate expiry splitDue
        after rows).2 = none := by
  unfold StepsReturn at h
  rw [not_and_or] at h
  obtain h | h := h
  · left
    push Not at h
    obtain ⟨hin, hdue, hplan⟩ := h
    rw [ne_eq, Option.not_isSome_iff_eq_none] at hplan
    unfold trademarkSteps
    rw [split_of_no_plan hsplit hin hdue hplan]
    rfl
  · right
    intro env after rows
    push Not at h
    obtain ⟨hlt, hin, hplan⟩ := h
    rw [ne_eq, Option.not_isSome_iff_eq_none] at hplan
    unfold trademarkSteps
    apply andThen_raises
    intro rows
    rw [renewal_of_no_plan hlt hin hplan]
    rfl

lemma ensureTrademark_eq (hexpiry : resolveTermExpiryDate R cfg facts regDate = some expiry)
    (hsplit : splitDueDate R regDate expiry = some splitDue) :
    ensureTrademark T R cfg facts env startYear endYear regDate rows =
      trademarkSteps T R cfg facts env startYear endYear regDate expiry splitDue
        (registrationPaymentTerm cfg facts rows) rows := by
  unfold ensureTrademark trademarkSteps
  rw [hexpiry]
  dsimp only
  rw [expectedCycles_eq hsplit]

lemma ensureTrademark_raises (h : ∀ expiry, resolveTermExpiryDate R cfg facts regDate = some expiry →
      splitDueDate R regDate expiry = none) :
    ensureTrademark T R cfg facts env startYear endYear regDate rows = (rows, none) := by
  unfold ensureTrademark
  cases hexpiry : resolveTermExpiryDate R cfg facts regDate with
  | none => rfl
  | some expiry =>
    dsimp only
    cases expectedCycles R startYear endYear regDate expiry (registrationPaymentTerm cfg facts rows) with
    | none => rfl
    | some expected =>
      dsimp only
      unfold ensureSplitPaymentItem
      rw [h expiry hexpiry]
      rfl

variable (T R cfg facts startYear endYear regDate rows) in
/-- One call settles the rows of a trademark: the dates are in range, and the second call leaves the
rows of the second payment and of the renewal alone. -/
def TrademarkSettles : Prop :=
  ∃ expiry splitDue, resolveTermExpiryDate R cfg facts regDate = some expiry ∧
    splitDueDate R regDate expiry = some splitDue ∧
    StepsReturn R cfg startYear endYear regDate expiry splitDue (registrationPaymentTerm cfg facts rows) ∧
    (withinRequestedCycleRange startYear endYear (trademarkCycleNoFromDates regDate splitDue) = true →
      SplitKept T cfg facts startYear endYear regDate expiry splitDue
        (registrationPaymentTerm cfg facts rows) rows) ∧
    (5 < trademarkCycleNoFromDates regDate expiry →
      withinRequestedCycleRange startYear endYear (trademarkCycleNoFromDates regDate expiry) = true →
        RowKept facts rows (trademarkCycleNoFromDates regDate expiry))

lemma StepsLeft.idle_iff (hsplit : splitDueDate R regDate expiry = some splitDue)
    (hrows : DistinctCycles rows)
    (h : StepsLeft T R cfg facts env startYear endYear regDate expiry splitDue
      (registrationPaymentTerm cfg facts rows) rows rows') :
    trademarkSteps T R cfg facts env' startYear endYear regDate expiry splitDue
        (registrationPaymentTerm cfg facts rows') rows' = (rows', some 0) ↔
      (withinRequestedCycleRange startYear endYear (trademarkCycleNoFromDates regDate splitDue) = true →
        SplitKept T cfg facts startYear endYear regDate expiry splitDue
          (registrationPaymentTerm cfg facts rows) rows) ∧
      (5 < trademarkCycleNoFromDates regDate expiry →
        withinRequestedCycleRange startYear endYear (trademarkCycleNoFromDates regDate expiry) = true →
          RowKept facts rows (trademarkCycleNoFromDates regDate expiry)) := by
  have hafter : SplitIsDue regDate expiry (registrationPaymentTerm cfg facts rows') ↔
      DueAfter T cfg facts startYear endYear regDate expiry splitDue
        (registrationPaymentTerm cfg facts rows) rows := or_congr (h.term_iff hsplit) Iff.rfl
  have hrenewal : (5 < trademarkCycleNoFromDates regDate expiry →
      withinRequestedCycleRange startYear endYear (trademarkCycleNoFromDates regDate expiry) = true →
        ∃ plan, renewalPlan R cfg expiry = some plan ∧
          SettledAt (updateTrademark T facts.defaultOwner plan)
            (trademarkCycleNoFromDates regDate expiry) rows') ↔
      (5 < trademarkCycleNoFromDates regDate expiry →
        withinRequestedCycleRange startYear endYear (trademarkCycleNoFromDates regDate expiry) = true →
          RowKept facts rows (trademarkCycleNoFromDates regDate expiry)) := by
    refine forall_congr' (fun hlt => forall_congr' (fun hin => ?_))
    obtain ⟨plan, hplan, hensured⟩ := h.renewalEnsured hlt hin
    rw [hplan]
    simp only [Option.some_inj, exists_eq_left']
    exact hensured.settledAt_iff
  rw [steps_idle hsplit h.distinct, hrenewal, and_congr_left_iff.mpr]
  · constructor
    · rintro ⟨hkept, hrow, -⟩
      exact ⟨hkept, hrow⟩
    · rintro ⟨hkept, hrow⟩
      exact ⟨hkept, hrow, h.pruned_again hsplit hrows
        (fun hin => (h.splitIdle_iff hin hafter).mpr (hkept hin))⟩
  · intro _
    exact forall_congr' (fun hin => h.splitIdle_iff hin hafter)

/-- The second call for a trademark finds nothing to do exactly if the first has settled its rows. -/
lemma ensureTrademark_again_iff (hrows : DistinctCycles rows) :
    ensureTrademark T R cfg facts env' startYear endYear regDate
        (ensureTrademark T R cfg facts env startYear endYear regDate rows).1 =
        ((ensureTrademark T R cfg facts env startYear endYear regDate rows).1, some 0) ↔
      TrademarkSettles T R cfg facts startYear endYear regDate rows := by
  unfold TrademarkSettles
  by_cases hdates : ∃ expiry splitDue, resolveTermExpiryDate R cfg facts regDate = some expiry ∧
      splitDueDate R regDate expiry = some splitDue
  · obtain ⟨expiry, splitDue, hexpiry, hsplit⟩ := hdates
    simp only [hexpiry, hsplit, Option.some_inj, exists_and_left, exists_eq_left']
    rw [ensureTrademark_eq hexpiry hsplit, ensureTrademark_eq hexpiry hsplit]
    by_cases hreturn : StepsReturn R cfg startYear endYear regDate expiry splitDue
        (registrationPaymentTerm cfg facts rows)
    · obtain ⟨rows', n, hrun⟩ := @steps_return T R cfg facts env startYear endYear regDate expiry splitDue
        _ rows hsplit hreturn
      rw [hrun]
      simp only [hreturn, true_and]
      exact (stepsLeft_of_run hsplit hrows hrun).idle_iff hsplit hrows
    · refine iff_of_false ?_ (fun h => hreturn h.1)
      intro hsecond
      obtain hraise | hraise := @steps_raise T R cfg facts env startYear endYear regDate expiry splitDue
        _ rows hsplit hreturn
      · rw [hraise] at hsecond
        obtain hraise' | hraise' := @steps_raise T R cfg facts env' startYear endYear regDate expiry splitDue
          _ rows hsplit hreturn
        · rw [hraise'] at hsecond
          cases hsecond
        · have := congrArg Prod.snd hsecond
          rw [hraise'] at this
          cases this
      · have := congrArg Prod.snd hsecond
        rw [hraise] at this
        cases this
  · refine iff_of_false ?_ ?_
    · have hnone : ∀ expiry, resolveTermExpiryDate R cfg facts regDate = some expiry →
          splitDueDate R regDate expiry = none := by
        intro expiry hexpiry
        by_contra hne
        obtain ⟨splitDue, hsplit⟩ := Option.ne_none_iff_exists'.mp hne
        exact hdates ⟨expiry, splitDue, hexpiry, hsplit⟩
      rw [ensureTrademark_raises hnone, ensureTrademark_raises hnone]
      intro h
      cases h
    · rintro ⟨expiry, splitDue, hexpiry, hsplit, -⟩
      exact hdates ⟨expiry, splitDue, hexpiry, hsplit⟩

end SecondCall

/-! ### A trademark at the USPTO -/

section Uspto

variable (T : UnicodeTables) (R : RelativeDelta) (cfg : AnnuityConfig) (facts : AnnuityFacts)
  (env env' : CallEnv) (startYear endYear : Option Int) (regDate : PyDate) (rows : List AnnuityItem)

/-- The dates of a row, with the window in which the declaration may be filed. -/
def usptoPlan (due windowOpen : PyDate) : Option ItemPlan :=
  match daysBefore cfg.trademarkNoticeDays due, R.shift 0 6 due with
  | some notice, some extended => some ⟨due, some extended, some windowOpen, notice⟩
  | _, _ => none

/-- The row of a cycle is settled by one call: a user has deleted it, or its dates are in range and its
owner is found again. -/
def UsptoSettlesAt (cycleNo : Int) (due windowOpen : PyDate) : Prop :=
  withinRequestedCycleRange startYear endYear cycleNo = true → UserDeletedAt rows cycleNo ∨
    ((usptoPlan R cfg due windowOpen).isSome = true ∧ StrippedOwner facts.defaultOwner)

def UsptoSettles : Prop :=
  ∃ dates, usptoDates R facts regDate = some dates ∧
    UsptoSettlesAt R cfg facts startYear endYear rows 6 dates.section8Due dates.section8Open ∧
    UsptoSettlesAt R cfg facts startYear endYear rows dates.renewalCycleNo dates.renewalDue dates.renewalOpen

variable {T R cfg facts env env' startYear endYear regDate rows} {rows' : List AnnuityItem}
  {cycleNo : Int} {due windowOpen : PyDate} {renewalType : String} {n : Nat}

lemma any_isUserDeleted : (rowAt rows cycleNo).any isUserDeleted = true ↔ UserDeletedAt rows cycleNo := by
  rw [Option.any_eq_true]
  rfl

lemma uspto_of_out (h : withinRequestedCycleRange startYear endYear cycleNo = false ∨
      UserDeletedAt rows cycleNo) :
    ensureUsptoItem T R cfg facts env startYear endYear regDate cycleNo due windowOpen renewalType rows =
      (rows, some 0) := by
  unfold ensureUsptoItem
  by_cases hout : withinRequestedCycleRange startYear endYear cycleNo = false
  · rw [if_pos hout]
    rfl
  · rw [if_neg hout, if_pos (any_isUserDeleted.mpr (h.resolve_left hout))]
    rfl

lemma uspto_of_no_plan (hin : withinRequestedCycleRange startYear endYear cycleNo = true)
    (huser : ¬UserDeletedAt rows cycleNo) (hplan : usptoPlan R cfg due windowOpen = none) :
    ensureUsptoItem T R cfg facts env startYear endYear regDate cycleNo due windowOpen renewalType rows =
      (rows, none) := by
  unfold ensureUsptoItem
  rw [if_neg (by simp [hin]), if_neg (fun h => huser (any_isUserDeleted.mp h))]
  unfold usptoPlan at hplan
  split
  · next hnotice hextended =>
    rw [hnotice, hextended] at hplan
    cases hplan
  · rfl

variable (T facts env regDate renewalType) in
lemma uspto_of_plan (hin : withinRequestedCycleRange startYear endYear cycleNo = true) {plan : ItemPlan}
    (hplan : usptoPlan R cfg due windowOpen = some plan) :
    ∃ fields, ∀ rows, ¬UserDeletedAt rows cycleNo →
      ensureUsptoItem T R cfg facts env startYear endYear regDate cycleNo due windowOpen renewalType rows =
        returns (ensureItem (updateTrademark T facts.defaultOwner plan)
          (newItem facts env cycleNo plan fields)) rows := by
  unfold usptoPlan at hplan
  split at hplan
  · next hnotice hextended =>
    rw [← Option.some_inj.mp hplan]
    refine ⟨[("generated_at", dumpsStr facts.today.isoformat),
      ("registration_date", dumpsStr regDate.isoformat),
      ("window_open_date", dumpsStr windowOpen.isoformat),
      ("right_type", dumpsStr "TRADEMARK".toList), ("jurisdiction", dumpsStr "USPTO".toList),
      ("renewal_type", dumpsStr renewalType.toList)], fun rows huser => ?_⟩
    unfold ensureUsptoItem
    rw [if_neg (by simp [hin]), if_neg (fun h => huser (any_isUserDeleted.mp h)), hnotice, hextended]
    rfl
  · cases hplan

lemma counts_uspto : Counts (ensureUsptoItem T R cfg facts env startYear endYear regDate cycleNo due
    windowOpen renewalType) := by
  intro rows rows' h
  by_cases hout : withinRequestedCycleRange startYear endYear cycleNo = false ∨ UserDeletedAt rows cycleNo
  · rw [uspto_of_out hout] at h
    cases h
    rfl
  · rw [not_or, Bool.not_eq_false] at hout
    cases hplan : usptoPlan R cfg due windowOpen with
    | none =>
      rw [uspto_of_no_plan hout.1 hout.2 hplan] at h
      cases h
    | some plan =>
      obtain ⟨fields, hstep⟩ := uspto_of_plan T facts env regDate renewalType hout.1 hplan
      rw [hstep rows hout.2] at h
      exact counts_ensureItem _ _ rows rows' h

/-- What the step for a cycle leaves. -/
structure UsptoLeft (T : UnicodeTables) (R : RelativeDelta) (cfg : AnnuityConfig) (facts : AnnuityFacts)
    (startYear endYear : Option Int) (cycleNo : Int) (due windowOpen : PyDate)
    (rows rows' : List AnnuityItem) : Prop where
  distinct : DistinctCycles rows'
  others : ∀ c, c ≠ cycleNo → rowAt rows' c = rowAt rows c
  ensured : withinRequestedCycleRange startYear endYear cycleNo = true →
    (UserDeletedAt rows cycleNo ∧ rowAt rows' cycleNo = rowAt rows cycleNo) ∨
      ∃ plan, usptoPlan R cfg due windowOpen = some plan ∧ ¬UserDeletedAt rows cycleNo ∧
        EnsuredAt T facts plan cycleNo rows rows'

lemma usptoLeft_of_run (hrows : DistinctCycles rows)
    (h : ensureUsptoItem T R cfg facts env startYear endYear regDate cycleNo due windowOpen renewalType rows =
      (rows', some n)) :
    UsptoLeft T R cfg facts startYear endYear cycleNo due windowOpen rows rows' := by
  by_cases hout : withinRequestedCycleRange startYear endYear cycleNo = false ∨ UserDeletedAt rows cycleNo
  · rw [uspto_of_out hout] at h
    cases h
    refine ⟨hrows, fun _ _ => rfl, fun hin => .inl ⟨?_, rfl⟩⟩
    exact hout.resolve_left (by simp [hin])
  · rw [not_or, Bool.not_eq_false] at hout
    cases hplan : usptoPlan R cfg due windowOpen with
    | none =>
      rw [uspto_of_no_plan hout.1 hout.2 hplan] at h
      cases h
    | some plan =>
      obtain ⟨fields, hstep⟩ := uspto_of_plan T facts env regDate renewalType hout.1 hplan
      rw [hstep rows hout.2, returns_eq_some] at h
      have hrows' := congrArg Prod.fst h
      dsimp only at hrows'
      subst hrows'
      exact ⟨distinct_ensureItem (updateTrademark_cycleNo plan) hrows,
        fun c hc => rowAt_ensureItem_of_ne (updateTrademark_cycleNo plan) hc,
        fun _ => .inr ⟨plan, hplan, hout.2, ensuredAt_ensureItem⟩⟩

/-- The step finds nothing to do in the rows that a call has left. -/
lemma UsptoLeft.idle_iff {left : List AnnuityItem} (hleft : DistinctCycles left)
    (h : UsptoLeft T R cfg facts startYear endYear cycleNo due windowOpen rows rows')
    (hsame : withinRequestedCycleRange startYear endYear cycleNo = true →
      rowAt left cycleNo = rowAt rows' cycleNo) :
    ensureUsptoItem T R cfg facts env' startYear endYear regDate cycleNo due windowOpen renewalType left =
        (left, some 0) ↔
      UsptoSettlesAt R cfg facts startYear endYear rows cycleNo due windowOpen := by
  unfold UsptoSettlesAt
  by_cases hin : withinRequestedCycleRange startYear endYear cycleNo = true
  · simp only [hin, true_imp_iff]
    obtain ⟨huser, hrow⟩ | ⟨plan, hplan, huser, hensured⟩ := h.ensured hin
    · refine iff_of_true (uspto_of_out (.inr ?_)) (.inl huser)
      obtain ⟨r, hr, hdeleted⟩ := huser
      exact ⟨r, ((hsame hin).trans hrow).trans hr, hdeleted⟩
    · have hlive := (hensured.liveAt_iff).mpr huser
      have huser' : ¬UserDeletedAt left cycleNo := by
        rintro ⟨r, hr, hdeleted⟩
        obtain ⟨s, hs, hlive⟩ := hlive
        rw [hsame hin, hs, Option.some_inj] at hr
        rw [← hr, not_isUserDeleted_of_live hlive] at hdeleted
        cases hdeleted
      obtain ⟨fields, hstep⟩ := uspto_of_plan T facts env' regDate renewalType hin hplan
      rw [hstep left huser', ensureItem_idle hleft]
      have hsettled := (hensured.of_rowAt_eq (hsame hin)).settledAt_iff
      refine hsettled.trans ?_
      unfold RowKept
      simp only [huser, or_false, false_or, hplan, Option.isSome_some, true_and]
  · rw [Bool.not_eq_true] at hin
    refine iff_of_true (uspto_of_out (.inl hin)) (fun h => ?_)
    rw [hin] at h
    cases h

/-- The cycle of the renewal is not the sixth year. -/
lemma renewalCycleNo_of_usptoDates {dates : UsptoDates} (h : usptoDates R facts regDate = some dates) :
    10 ≤ dates.renewalCycleNo := by
  unfold usptoDates at h
  obtain ⟨section8Due, -, h⟩ := Option.bind_eq_some_iff.mp h
  obtain ⟨section8Open, -, h⟩ := Option.bind_eq_some_iff.mp h
  obtain ⟨⟨renewalCycleNo, renewalDue⟩, hrenewal, h⟩ := Option.bind_eq_some_iff.mp h
  obtain ⟨renewalOpen, -, h⟩ := Option.bind_eq_some_iff.mp h
  rw [← Option.some_inj.mp h]
  unfold usptoRenewal at hrenewal
  obtain ⟨resolved, -, hrenewal⟩ := Option.bind_eq_some_iff.mp hrenewal
  dsimp only at hrenewal ⊢
  split at hrenewal
  · obtain ⟨ten, -, hrenewal⟩ := Option.bind_eq_some_iff.mp hrenewal
    have hcycle := congrArg Prod.fst (Option.some_inj.mp hrenewal)
    dsimp only at hcycle
    omega
  · have hcycle := congrArg Prod.fst (Option.some_inj.mp hrenewal)
    dsimp only at hcycle
    omega

/-- A step that raises changes nothing, and every call raises there. -/
lemma uspto_raises (h : (ensureUsptoItem T R cfg facts env startYear endYear regDate cycleNo due windowOpen
      renewalType rows).2 = none) :
    (∀ env, ensureUsptoItem T R cfg facts env startYear endYear regDate cycleNo due windowOpen renewalType rows =
      (rows, none)) ∧
      ¬UsptoSettlesAt R cfg facts startYear endYear rows cycleNo due windowOpen := by
  by_cases hout : withinRequestedCycleRange startYear endYear cycleNo = false ∨ UserDeletedAt rows cycleNo
  · rw [uspto_of_out hout] at h
    cases h
  · rw [not_or, Bool.not_eq_false] at hout
    cases hplan : usptoPlan R cfg due windowOpen with
    | none =>
      refine ⟨fun env => uspto_of_no_plan hout.1 hout.2 hplan, fun hsettles => ?_⟩
      have hsome := ((hsettles hout.1).resolve_left hout.2).1
      rw [hplan] at hsome
      cases hsome
    | some plan =>
      obtain ⟨fields, hstep⟩ := uspto_of_plan T facts env regDate renewalType hout.1 hplan
      rw [hstep rows hout.2] at h
      cases h

lemma settlesAt_congr (h : rowAt rows' cycleNo = rowAt rows cycleNo) :
    UsptoSettlesAt R cfg facts startYear endYear rows' cycleNo due windowOpen ↔
      UsptoSettlesAt R cfg facts startYear endYear rows cycleNo due windowOpen := by
  unfold UsptoSettlesAt UserDeletedAt
  rw [h]

lemma ensureUspto_eq {dates : UsptoDates} (h : usptoDates R facts regDate = some dates) :
    ensureUspto T R cfg facts env startYear endYear regDate =
      (ensureUsptoItem T R cfg facts env startYear endYear regDate 6 dates.section8Due dates.section8Open
        "USPTO_SECTION_8").andThen
        ((ensureUsptoItem T R cfg facts env startYear endYear regDate dates.renewalCycleNo
          dates.renewalDue dates.renewalOpen "USPTO_SECTION_8_9").andThen
          (returns (changeRows (pruneStale T env startYear endYear
            ([6, dates.renewalCycleNo].filter (withinRequestedCycleRange startYear endYear)))))) := by
  unfold ensureUspto
  rw [h]

/-- The second call for a trademark at the USPTO finds nothing to do exactly if the first has settled its
rows. -/
lemma ensureUspto_again_iff (hrows : DistinctCycles rows) :
    ensureUspto T R cfg facts env' startYear endYear regDate
        (ensureUspto T R cfg facts env startYear endYear regDate rows).1 =
        ((ensureUspto T R cfg facts env startYear endYear regDate rows).1, some 0) ↔
      UsptoSettles R cfg facts startYear endYear regDate rows := by
  unfold UsptoSettles
  cases hdates : usptoDates R facts regDate with
  | none =>
    have hraises : ∀ env, ensureUspto T R cfg facts env startYear endYear regDate = raises := by
      intro env
      unfold ensureUspto
      rw [hdates]
    rw [hraises, hraises]
    simp [raises]
  | some dates =>
    simp only [Option.some_inj, exists_eq_left']
    rw [ensureUspto_eq hdates, ensureUspto_eq hdates, andThen_eq_self counts_uspto,
      andThen_eq_self counts_uspto]
    have hten := renewalCycleNo_of_usptoDates hdates
    generalize hfirst : ensureUsptoItem T R cfg facts env startYear endYear regDate 6 dates.section8Due
      dates.section8Open "USPTO_SECTION_8" rows = first
    obtain ⟨declared, count⟩ := first
    cases count with
    | none =>
      obtain ⟨hraises, hnot⟩ := uspto_raises (congrArg Prod.snd hfirst)
      rw [hraises env] at hfirst
      cases hfirst
      refine iff_of_false ?_ (fun h => hnot h.1)
      unfold Step.andThen
      rw [hraises env]
      rintro ⟨h, -⟩
      rw [hraises env'] at h
      cases h
    | some k =>
      have hdeclared := usptoLeft_of_run hrows hfirst
      have hrenewalRow := hdeclared.others dates.renewalCycleNo (by omega)
      rw [← settlesAt_congr hrenewalRow]
      generalize hsecond : ensureUsptoItem T R cfg facts env startYear endYear regDate dates.renewalCycleNo
        dates.renewalDue dates.renewalOpen "USPTO_SECTION_8_9" declared = second
      obtain ⟨renewed, count⟩ := second
      unfold Step.andThen
      rw [hfirst]
      dsimp only
      rw [hsecond]
      cases count with
      | none =>
        obtain ⟨hraises, hnot⟩ := uspto_raises (congrArg Prod.snd hsecond)
        rw [hraises env] at hsecond
        cases hsecond
        refine iff_of_false ?_ (fun h => hnot h.2)
        rintro ⟨-, h, -⟩
        rw [hraises env'] at h
        cases h
      | some l =>
        dsimp only
        have hrenewed := usptoLeft_of_run hdeclared.distinct hsecond
        have hleft := @distinct_changeRows renewed (pruneStale T env startYear endYear
          ([6, dates.renewalCycleNo].filter (withinRequestedCycleRange startYear endYear)))
          pruneStale_keeps hrenewed.distinct
        unfold returns
        dsimp only
        rw [hdeclared.idle_iff hleft, hrenewed.idle_iff hleft]
        · refine and_congr_right (fun _ => and_iff_left ?_)
          rw [← returns, changeRows_idle]
          intro r hr
          exact pruneStale_eq_none.mpr (not_stale_pruned r hr)
        · intro hin
          exact rowAt_pruned renewed (List.mem_filter.mpr ⟨by simp, hin⟩)
        · intro hin
          exact (rowAt_pruned renewed (List.mem_filter.mpr ⟨by simp, hin⟩)).trans
            (hrenewed.others 6 (by omega))

end Uspto

/-! ### Every right -/

section Matter

variable (T : UnicodeTables) (R : RelativeDelta) (cfg : AnnuityConfig) (facts : AnnuityFacts)
  (env env' : CallEnv) (startYear endYear : Option Int) (rows : List AnnuityItem)

/-- The call reaches the generator of the right. -/
structure Generates (rightType : RightType) (regDate : PyDate) : Prop where
  enabled : facts.managementDisabled = false
  allowed : (facts.isForeign && !cfg.allowForeign) = false
  rightType_eq : facts.rightType = some rightType
  regDate_eq : facts.regDate = some regDate

/-- After the call every year of the range of a right that is no trademark has exactly one good row, and
a second call returns 0 and changes no row. -/
structure CompleteAndStable : Prop where
  complete : ∀ rightType regDate, Generates cfg facts rightType regDate → rightType ≠ .trademark →
    ∀ first last, yearRange cfg facts rightType regDate startYear endYear rows = some (first, last) →
      ∀ year, first ≤ year → year ≤ last →
        HasYear T R regDate (ensureAnnuitiesForMatter T R cfg facts env startYear endYear rows).1 year
  stable : ensureAnnuitiesForMatter T R cfg facts env' startYear endYear
      (ensureAnnuitiesForMatter T R cfg facts env startYear endYear rows).1 =
    ((ensureAnnuitiesForMatter T R cfg facts env startYear endYear rows).1, some 0)

/-- One call settles the rows of the matter. A year whose dates are out of range has its row already. -/
def SettlesRows : Prop :=
  ∀ rightType regDate, Generates cfg facts rightType regDate →
    (rightType ≠ .trademark → ∀ first last,
      yearRange cfg facts rightType regDate startYear endYear rows = some (first, last) →
        ∀ year, first ≤ year → year ≤ last → (yearPlan R cfg regDate year).isSome = true ∨
          ∃ r, rowAt rows year = some r ∧ GoodRow T R regDate year r) ∧
    (rightType = .trademark →
      (facts.isUspto = true → UsptoSettles R cfg facts startYear endYear regDate rows) ∧
      (facts.isUspto = false → TrademarkSettles T R cfg facts startYear endYear regDate rows))

variable {T R cfg facts env env' startYear endYear rows} {rightType : RightType} {regDate : PyDate}

lemma ensureAnnuities_of_not (h : ∀ rightType regDate, ¬Generates cfg facts rightType regDate)
    (rows : List AnnuityItem) :
    ensureAnnuitiesForMatter T R cfg facts env startYear endYear rows = (rows, some 0) := by
  unfold ensureAnnuitiesForMatter
  by_cases hdisabled : facts.managementDisabled = true
  · rw [if_pos hdisabled]
    rfl
  · rw [if_neg hdisabled]
    by_cases hforeign : (facts.isForeign && !cfg.allowForeign) = true
    · rw [if_pos hforeign]
      rfl
    · rw [if_neg hforeign]
      split
      · next rightType regDate hright hreg =>
        exact absurd ⟨by simpa using hdisabled, by simpa using hforeign, hright, hreg⟩ (h rightType regDate)
      · rfl

variable (T R env startYear endYear) in
lemma ensureAnnuities_of_generates (h : Generates cfg facts rightType regDate) (rows : List AnnuityItem) :
    ensureAnnuitiesForMatter T R cfg facts env startYear endYear rows =
      if rightType = .trademark then
        if facts.isUspto then ensureUspto T R cfg facts env startYear endYear regDate rows
        else ensureTrademark T R cfg facts env startYear endYear regDate rows
      else returns (ensureNonTrademark T R cfg facts env rightType regDate startYear endYear) rows := by
  unfold ensureAnnuitiesForMatter
  rw [h.enabled, h.allowed, h.rightType_eq, h.regDate_eq]
  rfl

lemma Generates.unique (h : Generates cfg facts rightType regDate) {rightType' : RightType}
    {regDate' : PyDate} (h' : Generates cfg facts rightType' regDate') :
    rightType' = rightType ∧ regDate' = regDate := by
  have hright := h'.rightType_eq.symm.trans h.rightType_eq
  have hreg := h'.regDate_eq.symm.trans h.regDate_eq
  exact ⟨Option.some_inj.mp hright, Option.some_inj.mp hreg⟩

/-- The rows of a right that is no trademark are complete exactly if the dates of its years are in range
or the rows are there. -/
lemma ensureNonTrademark_complete_iff (hrows : DistinctCycles rows) {first last : Int}
    (h : yearRange cfg facts rightType regDate startYear endYear rows = some (first, last)) :
    (∀ year, first ≤ year → year ≤ last → HasYear T R regDate
      (ensureNonTrademark T R cfg facts env rightType regDate startYear endYear rows).1 year) ↔
      ∀ year, first ≤ year → year ≤ last → (yearPlan R cfg regDate year).isSome = true ∨
        ∃ r, rowAt rows year = some r ∧ GoodRow T R regDate year r := by
  rw [ensureNonTrademark_of_range h]
  refine forall_congr' (fun year => forall_congr' (fun hlow => forall_congr' (fun hhigh => ?_)))
  exact hasYear_generatedRows hrows h hlow hhigh

/-- Annuity rows are complete and the generation is stable exactly if the first call settles the rows. -/
theorem complete_and_stable_iff (T : UnicodeTables) (R : RelativeDelta) (cfg : AnnuityConfig)
    (facts : AnnuityFacts) (env env' : CallEnv) (startYear endYear : Option Int)
    (rows : List AnnuityItem) (hrows : DistinctCycles rows) :
    CompleteAndStable T R cfg facts env env' startYear endYear rows ↔
      SettlesRows T R cfg facts startYear endYear rows := by
  by_cases hgenerates : ∃ rightType regDate, Generates cfg facts rightType regDate
  swap
  · -- nothing is generated
    have hnot : ∀ rightType regDate, ¬Generates cfg facts rightType regDate :=
      fun rightType regDate h => hgenerates ⟨rightType, regDate, h⟩
    refine iff_of_true ⟨fun rightType regDate h => absurd h (hnot rightType regDate), ?_⟩
      (fun rightType regDate h => absurd h (hnot rightType regDate))
    rw [ensureAnnuities_of_not hnot, ensureAnnuities_of_not hnot]
  obtain ⟨rightType, regDate, h⟩ := hgenerates
  have hcall := fun env => ensureAnnuities_of_generates T R env startYear endYear h
  by_cases htrademark : rightType = .trademark
  · have hstable : CompleteAndStable T R cfg facts env env' startYear endYear rows ↔
        ensureAnnuitiesForMatter T R cfg facts env' startYear endYear
          (ensureAnnuitiesForMatter T R cfg facts env startYear endYear rows).1 =
          ((ensureAnnuitiesForMatter T R cfg facts env startYear endYear rows).1, some 0) := by
      refine ⟨CompleteAndStable.stable, fun hstable => ⟨fun rightType' regDate' h' hne => ?_, hstable⟩⟩
      exact absurd ((h.unique h').1.trans htrademark) hne
    have hsettles : SettlesRows T R cfg facts startYear endYear rows ↔
        (facts.isUspto = true → UsptoSettles R cfg facts startYear endYear regDate rows) ∧
          (facts.isUspto = false → TrademarkSettles T R cfg facts startYear endYear regDate rows) := by
      refine ⟨fun hsettles => (hsettles rightType regDate h).2 htrademark, ?_⟩
      rintro hboth rightType' regDate' h'
      obtain ⟨rfl, rfl⟩ := h.unique h'
      exact ⟨fun hne => absurd htrademark hne, fun _ => hboth⟩
    rw [hstable, hsettles, hcall, hcall, if_pos htrademark, if_pos htrademark]
    cases facts.isUspto with
    | true => simpa using ensureUspto_again_iff hrows
    | false => simpa using ensureTrademark_again_iff hrows
  · have hagain : ensureNonTrademark T R cfg facts env' rightType regDate startYear endYear
        (ensureNonTrademark T R cfg facts env rightType regDate startYear endYear rows).1 =
        ((ensureNonTrademark T R cfg facts env rightType regDate startYear endYear rows).1, 0) :=
      ensureNonTrademark_again hrows env'
    constructor
    · intro hboth rightType' regDate' h'
      obtain ⟨rfl, rfl⟩ := h.unique h'
      refine ⟨fun hne first last hrange => ?_, fun heq => absurd heq htrademark⟩
      have hcomplete := hboth.complete _ _ h hne first last hrange
      rw [hcall, if_neg htrademark] at hcomplete
      exact (ensureNonTrademark_complete_iff hrows hrange).mp hcomplete
    · intro hsettles
      refine ⟨fun rightType' regDate' h' hne first last hrange => ?_, ?_⟩
      · obtain ⟨rfl, rfl⟩ := h.unique h'
        rw [hcall, if_neg htrademark]
        exact (ensureNonTrademark_complete_iff hrows hrange).mpr ((hsettles _ _ h).1 hne first last hrange)
      · rw [hcall, hcall, if_neg htrademark, if_neg htrademark]
        exact returns_eq_some.mpr hagain

/-- A matter that was registered on 10 March 2020, as it is seen on 2 January 2025. -/
def registeredFacts (rightType : RightType) (termExpiryDate : Option PyDate) : AnnuityFacts where
  matterId := "m-1".toList
  isDomestic := true
  rightType := some rightType
  regDate := some ((PyDate.make 2020 3 10).get (Eq.refl true))
  termExpiryDate := termExpiryDate
  today := (PyDate.make 2025 1 2).get (Eq.refl true)

/-- A paid row, one that a user has deleted and one that was made by hand. -/
def patentRows : List AnnuityItem :=
  [{ annuityId := "p4".toList, matterId := "m-1".toList, cycleNo := 4,
     annuityStatus := some "paid".toList, paidDate := some "2024-03-01".toList,
     paidAmount := some 400, memo := some "[AutoCreate]".toList },
   { annuityId := "p5".toList, matterId := "m-1".toList, cycleNo := 5,
     memo := some "[AutoCreate]".toList, isDeleted := true, deletedAt := some 0,
     deletedBy := some 3, deleteReason := some "renewal_fee_delete".toList },
   { annuityId := "p6".toList, matterId := "m-1".toList, cycleNo := 6,
     dueDate := some "2026-03-10".toList, memo := some "agreed by phone".toList }]

/-- A patent of which the years of these rows and the one after them are asked for. -/
theorem complete_and_stable_patent :
    CompleteAndStable asciiTables calendarDelta {} (registeredFacts .patent none)
      ⟨1, fun _ => "a".toList⟩ ⟨2, fun _ => "b".toList⟩ (some 4) (some 7) patentRows := by
  apply (complete_and_stable_iff _ _ _ _ _ _ _ _ _ (by unfold DistinctCycles; decide)).mpr
  intro rightType regDate h
  have hright := Option.some_inj.mp h.rightType_eq
  have hreg := Option.some_inj.mp h.regDate_eq
  subst hright hreg
  refine ⟨fun _ first last hrange year hlow hhigh => .inl ?_, fun h => by cases h⟩
  have hyears : some ((4 : Int), (7 : Int)) = some (first, last) := hrange
  obtain ⟨rfl, rfl⟩ := Prod.mk.inj (Option.some_inj.mp hyears)
  obtain rfl | rfl | rfl | rfl : year = 4 ∨ year = 5 ∨ year = 6 ∨ year = 7 := by omega
  all_goals decide +kernel

/-- The expiry is a day before the tenth anniversary, so that the cycles are 4 and 9. The live row of the
fifth year decides on a second payment and is deleted as stale; the second call deletes the row of the
second payment in its turn. -/
theorem second_payment_is_deleted :
    DistinctCycles [⟨"a".toList, "m-1".toList, none, 5, some "pending".toList, none, none, none, none, none,
        none, none, some "[AutoCreate]".toList, false, none, none, none, none⟩] ∧
      ¬CompleteAndStable asciiTables calendarDelta {}
        (registeredFacts .trademark (some ⟨2030, 3, 9, by decide, by decide, by decide⟩))
        ⟨1, fun _ => "b".toList⟩ ⟨2, fun _ => "c".toList⟩ none none
        [⟨"a".toList, "m-1".toList, none, 5, some "pending".toList, none, none, none, none, none,
          none, none, some "[AutoCreate]".toList, false, none, none, none, none⟩] := by
  refine ⟨List.nodup_singleton _, fun h => ?_⟩
  have hsecond := congrArg Prod.snd h.stable
  revert hsecond
  decide +kernel

end Matter

end IpDocket.Annuity
