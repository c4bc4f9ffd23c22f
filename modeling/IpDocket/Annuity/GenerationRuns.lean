import IpDocket.Annuity.GenerationTrademarks

/-!
# A call for a trademark after a call

What the three steps of a call leave for the next one, and when the next one, whose payment term may be
another, finds nothing to do.
-/

namespace IpDocket.Annuity
open IpDocket.Lib IpDocket.Deletion

section Runs

variable (T : UnicodeTables) (R : RelativeDelta) (cfg : AnnuityConfig) (facts : AnnuityFacts)
  (env env' : CallEnv) (startYear endYear : Option Int) (regDate expiry splitDue : PyDate)
  (term after : PaymentTerm)

/-- The three steps of a call, with the payment term and the cycles that are expected. -/
def trademarkSteps : Step :=
  (ensureSplitPaymentItem T R cfg facts env startYear endYear regDate expiry term).andThen
    ((ensureRenewalItem T R cfg facts env startYear endYear regDate expiry).andThen
      (returns (changeRows (pruneStale T env startYear endYear
        (expectedList startYear endYear (trademarkCycleNoFromDates regDate splitDue)
          (trademarkCycleNoFromDates regDate expiry) term)))))

/-- The dates that the steps need are in range. -/
def StepsReturn : Prop :=
  (withinRequestedCycleRange startYear endYear (trademarkCycleNoFromDates regDate splitDue) = true →
      SplitIsDue regDate expiry term → (splitPlan cfg splitDue).isSome = true) ∧
    (5 < trademarkCycleNoFromDates regDate expiry →
      withinRequestedCycleRange startYear endYear (trademarkCycleNoFromDates regDate expiry) = true →
        (renewalPlan R cfg expiry).isSome = true)

/-- What the three steps leave, cycle by cycle. -/
structure StepsLeft (rows rows' : List AnnuityItem) : Prop where
  distinct : DistinctCycles rows'
  splitEnsured : withinRequestedCycleRange startYear endYear
      (trademarkCycleNoFromDates regDate splitDue) = true → SplitIsDue regDate expiry term →
    ∃ plan, splitPlan cfg splitDue = some plan ∧
      EnsuredAt T facts plan (trademarkCycleNoFromDates regDate splitDue) rows rows'
  splitDeleted : withinRequestedCycleRange startYear endYear
      (trademarkCycleNoFromDates regDate splitDue) = true → ¬SplitIsDue regDate expiry term →
    rowAt rows' (trademarkCycleNoFromDates regDate splitDue) =
      (rowAt rows (trademarkCycleNoFromDates regDate splitDue)).map (fun r =>
        (unsplit T env (trademarkCycleNoFromDates regDate splitDue) r).getD r)
  renewalEnsured : 5 < trademarkCycleNoFromDates regDate expiry →
    withinRequestedCycleRange startYear endYear (trademarkCycleNoFromDates regDate expiry) = true →
      ∃ plan, renewalPlan R cfg expiry = some plan ∧
        EnsuredAt T facts plan (trademarkCycleNoFromDates regDate expiry) rows rows'
  others : ∀ c, c ∉ expectedList startYear endYear (trademarkCycleNoFromDates regDate splitDue)
      (trademarkCycleNoFromDates regDate expiry) term →
    (c = trademarkCycleNoFromDates regDate splitDue → withinRequestedCycleRange startYear endYear c = false) →
      rowAt rows' c = (rowAt rows c).map (fun r => (pruneStale T env startYear endYear
        (expectedList startYear endYear (trademarkCycleNoFromDates regDate splitDue)
          (trademarkCycleNoFromDates regDate expiry) term) r).getD r)
  pruned : ∀ r ∈ rows', isStale T startYear endYear
    (expectedList startYear endYear (trademarkCycleNoFromDates regDate splitDue)
      (trademarkCycleNoFromDates regDate expiry) term) r = false

variable {T R cfg facts env env' startYear endYear regDate expiry splitDue term after}
  {rows rows' : List AnnuityItem} {n : Nat}

lemma rowAt_pruned (rows : List AnnuityItem) {expected : List Int} {c : Int} (hc : c ∈ expected) :
    rowAt (changeRows (pruneStale T env startYear endYear expected) rows).1 c = rowAt rows c := by
  rw [rowAt_changeRows pruneStale_keeps]
  cases hrow : rowAt rows c with
  | none => rfl
  | some r =>
    have hmem : r.cycleNo ∈ expected := by rw [cycleNo_of_rowAt hrow]; exact hc
    rw [Option.map_some, pruneStale_of_expected hmem]
    rfl

/-- Nothing is stale after the cleanup. -/
lemma not_stale_pruned {expected : List Int} :
    ∀ r ∈ (changeRows (pruneStale T env startYear endYear expected) rows).1,
      isStale T startYear endYear expected r = false := by
  intro r hr
  unfold changeRows at hr
  obtain ⟨s, -, rfl⟩ := List.mem_map.mp hr
  exact pruneStale_eq_none.mp (pruneStale_again env s)

lemma stepsLeft_of_run (hsplit : splitDueDate R regDate expiry = some splitDue)
    (hrows : DistinctCycles rows)
    (h : trademarkSteps T R cfg facts env startYear endYear regDate expiry splitDue term rows =
      (rows', some n)) :
    StepsLeft T R cfg facts env startYear endYear regDate expiry splitDue term rows rows' := by
  unfold trademarkSteps at h
  obtain ⟨paid, a, b, hfirst, h, -⟩ := andThen_eq_some.mp h
  obtain ⟨renewed, k, l, hsecond, hthird, -⟩ := andThen_eq_some.mp h
  have hpaid := splitLeft_of_run hsplit hrows hfirst
  have hrenewed := renewalLeft_of_run hpaid.distinct hsecond
  rw [returns_eq_some] at hthird
  have hrows' := congrArg Prod.fst hthird
  dsimp only at hrows'
  subst hrows'
  obtain ⟨hsame, hearlier⟩ := cycleNo_splitDue hsplit
  -- the renewal leaves the row of the second payment alone
  have hsecondRow : rowAt renewed (trademarkCycleNoFromDates regDate splitDue) =
      rowAt paid (trademarkCycleNoFromDates regDate splitDue) := by
    by_cases hle : trademarkCycleNoFromDates regDate expiry ≤ 5
    · rw [hrenewed.skipped (.inl hle)]
    · have hlt := hearlier (not_le.mp hle)
      exact hrenewed.others _ (by omega)
  refine ⟨distinct_changeRows pruneStale_keeps hrenewed.distinct, ?_, ?_, ?_, ?_, not_stale_pruned⟩
  · intro hin hdue
    obtain ⟨plan, hplan, hensured⟩ := hpaid.ensured hin hdue
    have hmem := (mem_expectedList startYear endYear term hsplit).mpr ⟨hin, .inl ⟨rfl, hdue⟩⟩
    exact ⟨plan, hplan, hensured.of_rowAt_eq ((rowAt_pruned renewed hmem).trans hsecondRow)⟩
  · intro hin hdue
    rw [rowAt_changeRows pruneStale_keeps, hsecondRow, hpaid.deleted hin hdue]
    cases hrow : rowAt rows (trademarkCycleNoFromDates regDate splitDue) with
    | none => rfl
    | some r =>
      rw [Option.map_some, Option.map_some, pruneStale_unsplit (cycleNo_of_rowAt hrow)]
      rfl
  · intro hlt hin
    obtain ⟨plan, hplan, hensured⟩ := hrenewed.ensured hlt hin
    have hmem := (mem_expectedList startYear endYear term hsplit).mpr ⟨hin, .inr ⟨rfl, hlt⟩⟩
    have hbefore := hpaid.others (trademarkCycleNoFromDates regDate expiry) (by have := hearlier hlt; omega)
    exact ⟨plan, hplan, (hensured.of_before_eq hbefore).of_rowAt_eq (rowAt_pruned renewed hmem)⟩
  · intro c hc hout
    rw [rowAt_changeRows pruneStale_keeps]
    have hrenewedRow : rowAt renewed c = rowAt paid c := by
      by_cases heq : c = trademarkCycleNoFromDates regDate expiry
      · by_cases hle : trademarkCycleNoFromDates regDate expiry ≤ 5
        · rw [hrenewed.skipped (.inl hle)]
        · cases hin : withinRequestedCycleRange startYear endYear c with
          | false =>
            rw [heq] at hin
            rw [hrenewed.skipped (.inr hin)]
          | true => exact absurd ((mem_expectedList startYear endYear term hsplit).mpr ⟨hin, .inr ⟨heq, not_le.mp hle⟩⟩) hc
      · exact hrenewed.others c heq
    have hpaidRow : rowAt paid c = rowAt rows c := by
      by_cases heq : c = trademarkCycleNoFromDates regDate splitDue
      · have hin := hout heq
        rw [heq] at hin
        rw [hpaid.skipped hin]
      · exact hpaid.others c heq
    rw [hrenewedRow, hpaidRow]

lemma changeRows_idle {f : AnnuityItem → Option AnnuityItem} :
    returns (changeRows f) rows = (rows, some 0) ↔ ∀ r ∈ rows, f r = none := by
  rw [returns_eq_some]
  constructor
  · intro h
    exact changeRows_count_eq_zero.mp (congrArg Prod.snd h)
  · exact changeRows_eq_self

lemma ensureItem_idle {update : AnnuityItem → AnnuityItem × Bool} {new : AnnuityItem}
    (hrows : DistinctCycles rows) :
    returns (ensureItem update new) rows = (rows, some 0) ↔ SettledAt update new.cycleNo rows := by
  rw [returns_eq_some]
  constructor
  · intro h
    exact settledAt_of_count (congrArg Prod.snd h)
  · exact ensureItem_of_settledAt hrows

lemma counts_split (hsplit : splitDueDate R regDate expiry = some splitDue) :
    Counts (ensureSplitPaymentItem T R cfg facts env startYear endYear regDate expiry term) := by
  cases hin : withinRequestedCycleRange startYear endYear (trademarkCycleNoFromDates regDate splitDue) with
  | false =>
    rw [split_of_out hsplit hin]
    exact counts_skips
  | true =>
    by_cases hdue : SplitIsDue regDate expiry term
    · cases hplan : splitPlan cfg splitDue with
      | none =>
        rw [split_of_no_plan hsplit hin hdue hplan]
        exact counts_raises
      | some plan =>
        obtain ⟨fields, hstep⟩ := split_of_due T facts env hsplit hin hdue hplan
        rw [hstep]
        exact counts_ensureItem _ _
    · rw [split_of_not_due hsplit hin hdue]
      exact counts_changeRows _

lemma counts_renewal :
    Counts (ensureRenewalItem T R cfg facts env startYear endYear regDate expiry) := by
  by_cases hout : trademarkCycleNoFromDates regDate expiry ≤ 5 ∨
      withinRequestedCycleRange startYear endYear (trademarkCycleNoFromDates regDate expiry) = false
  · rw [renewal_of_out hout]
    exact counts_skips
  · rw [not_or, not_le, Bool.not_eq_false] at hout
    cases hplan : renewalPlan R cfg expiry with
    | none =>
      rw [renewal_of_no_plan hout.1 hout.2 hplan]
      exact counts_raises
    | some plan =>
      obtain ⟨fields, hstep⟩ := renewal_of_plan T facts env hout.1 hout.2 hplan
      rw [hstep]
      exact counts_ensureItem _ _

/-- The row of the second payment is as the step with the payment term wants it. -/
def SplitIdle (T : UnicodeTables) (cfg : AnnuityConfig) (facts : AnnuityFacts) (regDate expiry splitDue : PyDate)
    (term : PaymentTerm) (rows : List AnnuityItem) : Prop :=
  (SplitIsDue regDate expiry term → ∃ plan, splitPlan cfg splitDue = some plan ∧
      SettledAt (updateTrademark T facts.defaultOwner plan) (trademarkCycleNoFromDates regDate splitDue) rows) ∧
    (¬SplitIsDue regDate expiry term → ∀ r, rowAt rows (trademarkCycleNoFromDates regDate splitDue) = some r →
      r.isDeleted = true ∨ isPaid T r = true)

lemma unsplit_idle (hrows : DistinctCycles rows) {c : Int} :
    (∀ r ∈ rows, unsplit T env c r = none) ↔
      ∀ r, rowAt rows c = some r → r.isDeleted = true ∨ isPaid T r = true := by
  constructor
  · intro h r hr
    have hnone := h r (mem_of_rowAt hr)
    rw [unsplit, if_pos (cycleNo_of_rowAt hr)] at hnone
    exact softDelete_eq_none.mp hnone
  · intro h r hr
    unfold unsplit
    split
    · next heq => exact softDelete_eq_none.mpr (h r (heq ▸ rowAt_of_mem hrows hr))
    · rfl

lemma split_idle (hsplit : splitDueDate R regDate expiry = some splitDue) (hrows : DistinctCycles rows) :
    ensureSplitPaymentItem T R cfg facts env startYear endYear regDate expiry term rows = (rows, some 0) ↔
      (withinRequestedCycleRange startYear endYear (trademarkCycleNoFromDates regDate splitDue) = true →
        SplitIdle T cfg facts regDate expiry splitDue term rows) := by
  unfold SplitIdle
  cases hin : withinRequestedCycleRange startYear endYear (trademarkCycleNoFromDates regDate splitDue) with
  | false =>
    rw [split_of_out hsplit hin]
    exact iff_of_true rfl (fun h => by cases h)
  | true =>
    rw [eq_self_iff_true, true_imp_iff]
    by_cases hdue : SplitIsDue regDate expiry term
    · cases hplan : splitPlan cfg splitDue with
      | none =>
        rw [split_of_no_plan hsplit hin hdue hplan]
        simp [raises, hdue]
      | some plan =>
        obtain ⟨fields, hstep⟩ := split_of_due T facts env hsplit hin hdue hplan
        rw [hstep, ensureItem_idle hrows]
        simp [hdue, newItem]
    · rw [split_of_not_due hsplit hin hdue, changeRows_idle, unsplit_idle hrows]
      simp [hdue]

lemma renewal_idle (hrows : DistinctCycles rows) :
    ensureRenewalItem T R cfg facts env startYear endYear regDate expiry rows = (rows, some 0) ↔
      (5 < trademarkCycleNoFromDates regDate expiry →
        withinRequestedCycleRange startYear endYear (trademarkCycleNoFromDates regDate expiry) = true →
          ∃ plan, renewalPlan R cfg expiry = some plan ∧
            SettledAt (updateTrademark T facts.defaultOwner plan)
              (trademarkCycleNoFromDates regDate expiry) rows) := by
  by_cases hout : trademarkCycleNoFromDates regDate expiry ≤ 5 ∨
      withinRequestedCycleRange startYear endYear (trademarkCycleNoFromDates regDate expiry) = false
  · rw [renewal_of_out hout]
    refine iff_of_true rfl (fun hlt hin => ?_)
    obtain hle | hfalse := hout
    · omega
    · rw [hin] at hfalse
      cases hfalse
  · rw [not_or, not_le, Bool.not_eq_false] at hout
    cases hplan : renewalPlan R cfg expiry with
    | none =>
      rw [renewal_of_no_plan hout.1 hout.2 hplan]
      simp [raises, hout]
    | some plan =>
      obtain ⟨fields, hstep⟩ := renewal_of_plan T facts env hout.1 hout.2 hplan
      rw [hstep, ensureItem_idle hrows]
      simp [hout, newItem]

/-- A call that finds nothing to do. -/
lemma steps_idle (hsplit : splitDueDate R regDate expiry = some splitDue) (hrows : DistinctCycles rows) :
    trademarkSteps T R cfg facts env startYear endYear regDate expiry splitDue term rows = (rows, some 0) ↔
      (withinRequestedCycleRange startYear endYear (trademarkCycleNoFromDates regDate splitDue) = true →
        SplitIdle T cfg facts regDate expiry splitDue term rows) ∧
      (5 < trademarkCycleNoFromDates regDate expiry →
        withinRequestedCycleRange startYear endYear (trademarkCycleNoFromDates regDate expiry) = true →
          ∃ plan, renewalPlan R cfg expiry = some plan ∧
            SettledAt (updateTrademark T facts.defaultOwner plan)
              (trademarkCycleNoFromDates regDate expiry) rows) ∧
      ∀ r ∈ rows, isStale T startYear endYear
        (expectedList startYear endYear (trademarkCycleNoFromDates regDate splitDue)
          (trademarkCycleNoFromDates regDate expiry) term) r = false := by
  unfold trademarkSteps
  rw [andThen_eq_self (counts_split hsplit), andThen_eq_self counts_renewal, split_idle hsplit hrows,
    renewal_idle hrows, changeRows_idle]
  simp only [pruneStale_eq_none]

/-- The payment term is five years, if these are the cycles with a live row. -/
def ReadsFive (cfg : AnnuityConfig) (facts : AnnuityFacts) (live : Int → Prop) : Prop :=
  facts.explicitPaymentTerm = some .five ∨
    (facts.explicitPaymentTerm = none ∧ ((∃ c, c % 10 = 5 ∧ live c) ∨ cfg.paymentTerm = .five))

def LiveAt (rows : List AnnuityItem) (c : Int) : Prop := ∃ r, rowAt rows c = some r ∧ r.isDeleted = false

lemma registrationPaymentTerm_eq_five (hrows : DistinctCycles rows) :
    registrationPaymentTerm cfg facts rows = .five ↔ ReadsFive cfg facts (LiveAt rows) := by
  have hany : rows.any isSplitCycle = true ↔ ∃ c, c % 10 = 5 ∧ LiveAt rows c := by
    rw [List.any_eq_true]
    constructor
    · rintro ⟨r, hr, hcycle⟩
      unfold isSplitCycle at hcycle
      rw [Bool.and_eq_true, decide_eq_true_eq, Bool.not_eq_true'] at hcycle
      exact ⟨r.cycleNo, hcycle.1, r, rowAt_of_mem hrows hr, hcycle.2⟩
    · rintro ⟨c, hc, r, hr, hlive⟩
      refine ⟨r, mem_of_rowAt hr, ?_⟩
      unfold isSplitCycle
      rw [Bool.and_eq_true, decide_eq_true_eq, Bool.not_eq_true', cycleNo_of_rowAt hr]
      exact ⟨hc, hlive⟩
  unfold registrationPaymentTerm ReadsFive
  cases facts.explicitPaymentTerm with
  | some explicit => simp
  | none =>
    dsimp only
    rw [← hany]
    cases rows.any isSplitCycle with
    | true => simp
    | false => simp

/-- The steps delete the row, if it is live: it is that of a second payment that is not due, or it is
stale. -/
def IsDropped (T : UnicodeTables) (startYear endYear : Option Int) (regDate expiry splitDue : PyDate)
    (term : PaymentTerm) (r : AnnuityItem) : Prop :=
  (r.cycleNo = trademarkCycleNoFromDates regDate splitDue ∧
      withinRequestedCycleRange startYear endYear r.cycleNo = true ∧ ¬SplitIsDue regDate expiry term ∧
      isPaid T r = false) ∨
    isStale T startYear endYear (expectedList startYear endYear (trademarkCycleNoFromDates regDate splitDue)
      (trademarkCycleNoFromDates regDate expiry) term) r = true

/-- The cycle has a live row after the steps: one that is expected unless a user has deleted it, or one
that is not dropped. -/
def LiveAfter (T : UnicodeTables) (startYear endYear : Option Int) (regDate expiry splitDue : PyDate)
    (term : PaymentTerm) (rows : List AnnuityItem) (c : Int) : Prop :=
  (c ∈ expectedList startYear endYear (trademarkCycleNoFromDates regDate splitDue)
      (trademarkCycleNoFromDates regDate expiry) term ∧ ¬UserDeletedAt rows c) ∨
    (c ∉ expectedList startYear endYear (trademarkCycleNoFromDates regDate splitDue)
      (trademarkCycleNoFromDates regDate expiry) term ∧ ∃ r, rowAt rows c = some r ∧
        r.isDeleted = false ∧ ¬IsDropped T startYear endYear regDate expiry splitDue term r)

lemma EnsuredAt.liveAt_iff {plan : ItemPlan} {c : Int} (h : EnsuredAt T facts plan c rows rows') :
    LiveAt rows' c ↔ ¬UserDeletedAt rows c := by
  obtain ⟨r, hr, ⟨huser, hbefore⟩ | ⟨hlive, hnot, -⟩⟩ := h
  · refine iff_of_false ?_ (not_not.mpr ⟨r, hbefore, huser⟩)
    rintro ⟨s, hs, hlive⟩
    rw [hr, Option.some_inj] at hs
    rw [hs, not_isUserDeleted_of_live hlive] at huser
    cases huser
  · exact iff_of_true ⟨r, hr, hlive⟩ hnot

/-- A row that a change deletes or leaves alone is live afterwards if it was and the change is none. -/
lemma liveAt_changed {f : AnnuityItem → Option AnnuityItem} {c : Int}
    (hf : ∀ r r', f r = some r' → r'.isDeleted = true)
    (h : rowAt rows' c = (rowAt rows c).map (fun r => (f r).getD r)) :
    LiveAt rows' c ↔ ∃ r, rowAt rows c = some r ∧ r.isDeleted = false ∧ f r = none := by
  unfold LiveAt
  rw [h]
  cases rowAt rows c with
  | none => simp
  | some r =>
    cases hr : f r with
    | none => simp [hr]
    | some r' => simp [hr, hf r r' hr]

lemma StepsLeft.liveAt_iff (hsplit : splitDueDate R regDate expiry = some splitDue)
    (h : StepsLeft T R cfg facts env startYear endYear regDate expiry splitDue term rows rows') (c : Int) :
    LiveAt rows' c ↔ LiveAfter T startYear endYear regDate expiry splitDue term rows c := by
  unfold LiveAfter
  by_cases hmem : c ∈ expectedList startYear endYear (trademarkCycleNoFromDates regDate splitDue)
      (trademarkCycleNoFromDates regDate expiry) term
  · simp only [hmem, true_and, not_true_eq_false, false_and, or_false]
    obtain ⟨hin, ⟨rfl, hdue⟩ | ⟨rfl, hlt⟩⟩ := (mem_expectedList startYear endYear term hsplit).mp hmem
    · obtain ⟨plan, -, hensured⟩ := h.splitEnsured hin hdue
      exact hensured.liveAt_iff
    · obtain ⟨plan, -, hensured⟩ := h.renewalEnsured hlt hin
      exact hensured.liveAt_iff
  · simp only [hmem, false_and, not_false_eq_true, true_and, false_or]
    by_cases hsecond : c = trademarkCycleNoFromDates regDate splitDue ∧
        withinRequestedCycleRange startYear endYear c = true
    · obtain ⟨rfl, hin⟩ := hsecond
      have hdue : ¬SplitIsDue regDate expiry term := fun hdue =>
        hmem ((mem_expectedList startYear endYear term hsplit).mpr ⟨hin, .inl ⟨rfl, hdue⟩⟩)
      have hdeletes : ∀ r r', unsplit T env (trademarkCycleNoFromDates regDate splitDue) r = some r' →
          r'.isDeleted = true := by
        intro r r' hr
        unfold unsplit at hr
        split at hr
        · exact (softDelete_facts hr).2.2.2.1
        · cases hr
      rw [liveAt_changed hdeletes (h.splitDeleted hin hdue)]
      refine exists_congr (fun r => and_congr_right (fun hr => and_congr_right (fun hlive => ?_)))
      have hcycle := cycleNo_of_rowAt hr
      unfold IsDropped
      rw [unsplit, if_pos hcycle, softDelete_eq_none, hlive, hcycle]
      cases hpaid : isPaid T r with
      | true => simp [isStale, hpaid]
      | false => simp [hin, hdue]
    · have hout : c = trademarkCycleNoFromDates regDate splitDue →
          withinRequestedCycleRange startYear endYear c = false := by
        intro heq
        rw [Bool.eq_false_iff]
        exact fun hin => hsecond ⟨heq, hin⟩
      have hdeletes : ∀ r r', pruneStale T env startYear endYear
          (expectedList startYear endYear (trademarkCycleNoFromDates regDate splitDue)
            (trademarkCycleNoFromDates regDate expiry) term) r = some r' → r'.isDeleted = true :=
        fun r r' hr => (softDelete_facts (pruneStale_facts hr)).2.2.2.1
      rw [liveAt_changed hdeletes (h.others c hmem hout)]
      refine exists_congr (fun r => and_congr_right (fun hr => and_congr_right (fun _ => ?_)))
      rw [pruneStale_eq_none, IsDropped, cycleNo_of_rowAt hr, not_or, Bool.not_eq_true]
      constructor
      · intro hstale
        exact ⟨fun hfirst => hsecond ⟨hfirst.1, hfirst.2.1⟩, hstale⟩
      · exact fun hboth => hboth.2

/-- The payment term that the next call reads. -/
lemma StepsLeft.term_iff (hsplit : splitDueDate R regDate expiry = some splitDue)
    (h : StepsLeft T R cfg facts env startYear endYear regDate expiry splitDue term rows rows') :
    registrationPaymentTerm cfg facts rows' = .five ↔
      ReadsFive cfg facts (LiveAfter T startYear endYear regDate expiry splitDue term rows) := by
  have hlive : LiveAt rows' = LiveAfter T startYear endYear regDate expiry splitDue term rows := by
    funext c
    exact propext (h.liveAt_iff hsplit c)
  rw [registrationPaymentTerm_eq_five h.distinct, hlive]

end Runs
end IpDocket.Annuity
