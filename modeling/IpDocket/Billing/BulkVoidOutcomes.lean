import IpDocket.Billing.BulkVoid

/-!
# Outcomes of a bulk void

After the commit an invoice should be void without an application left, or as it was, and what becomes of
it should not depend on the other invoices of the list. That is so if the balances take what is given
back, every invoice is given up, stays as it is, or is voided by one of its attempts, and nothing is voided
when the transaction is lost; and where the balances take it, not otherwise.
-/

namespace IpDocket.Billing
open IpDocket.Lib

/-- The invoice is void and all its applications are cancelled. -/
def FullyVoided (db : DepositDb) (id : Nat) : Prop :=
  uncanceledApplies db.ledger.rows id = [] ∧ ∃ row, db.invoices.find id = some row ∧
    row.billingStatus = .void ∧ row.status = .void

/-- The row of the invoice and its entries are what they were. -/
def Untouched (db db' : DepositDb) (id : Nat) : Prop :=
  db'.invoices.find id = db.invoices.find id ∧
    invoiceEntries db'.ledger.rows id = invoiceEntries db.ledger.rows id

def SameOutcome (db db' : DepositDb) (id : Nat) : Prop :=
  db.invoices.find id = db'.invoices.find id ∧
    uncanceledApplies db.ledger.rows id = uncanceledApplies db'.ledger.rows id

/-- Every invoice is voided as a whole or not at all, as its own attempts would have it alone. -/
def VoidsCleanly (U : UpperTable) (db : DepositDb) (attempts : List (Nat × Option CancelFault)) : Prop :=
  (∀ id, FullyVoided (committedVoid U db attempts) id ∨ Untouched db (committedVoid U db attempts) id) ∧
    ∀ id, SameOutcome (committedVoid U db attempts)
      (committedVoid U db (attempts.filter (fun p => p.1 = id))) id

section Condition

variable (U : UpperTable)

/-- One of the attempts on the invoice loses the transaction. -/
def GivesUp (db : DepositDb) (attempts : List (Nat × Option CancelFault)) (id : Nat) : Prop :=
  standingAfter U db id (.start db id) (faultsOf attempts id) = none

/-- An attempt changes nothing: the selection fails, or the first application to cancel is not reached or
not accepted, or there is none and the invoice is void as it is. -/
def Idles (inv : Invoice) (applied : List LedgerEntry) (fault : Option CancelFault) : Prop :=
  fault.map CancelFault.after = some none ∨
    match applied.find? (fun a => !skipsApply U a) with
    | none => inv.withStatus .void .none false = inv
    | some a => acceptsCancel U inv a = false ∨ fault.map CancelFault.after = some (some 0)

/-- One of the attempts gets to the end of so many applications. -/
def completes : Nat → List (Option CancelFault) → Bool
  | _, [] => false
  | n, fault :: faults =>
    match fault.map CancelFault.after with
    | none => true
    | some none => completes n faults
    | some (some k) => n ≤ k || completes (n - k) faults

/-- Every application can be cancelled. -/
def AllCancel (inv : Invoice) (applied : List LedgerEntry) : Prop :=
  ∀ a ∈ applied, skipsApply U a = false ∧ acceptsCancel U inv a = true

/-- What becomes of an invoice that may be voided. -/
def VoidsWhole (db : DepositDb) (attempts : List (Nat × Option CancelFault)) (id : Nat) (inv : Invoice) :
    Prop :=
  let applied := uncanceledApplies db.ledger.rows id
  GivesUp U db attempts id ∨ (∀ fault ∈ faultsOf attempts id, Idles U inv applied fault) ∨
    ((AllCancel U inv applied ∧ completes applied.length (faultsOf attempts id) = true) ∧
      ∀ j, ¬GivesUp U db attempts j)

/-- The balances take what is given back, and every invoice is voided as a whole or not at all. -/
structure WholeVoids (db : DepositDb) (attempts : List (Nat × Option CancelFault)) : Prop where
  covered : ∀ p ∈ attempts, Covered U db p.1
  whole : ∀ id inv, voidable db id = some inv → VoidsWhole U db attempts id inv

end Condition

section Release

variable {U : UpperTable} {inv : Invoice} {as : List LedgerEntry} {limit : Option Nat}

lemma release_sublist : (release U inv limit as).1.Sublist as := by
  induction as generalizing limit with
  | nil => exact List.Sublist.refl _
  | cons a as ih =>
    rw [release]
    split
    · exact ih.cons_cons a
    · split
      · exact List.Sublist.refl _
      · split
        · exact ih.cons a
        · exact List.Sublist.refl _

lemma release_nil (h : (release U inv limit as).1 = []) : (release U inv limit as).2 = .done := by
  induction as generalizing limit with
  | nil => rfl
  | cons a as ih =>
    rw [release] at h ⊢
    split at h
    · cases h
    · next hskip =>
      rw [if_neg hskip]
      split at h
      · cases h
      · next hlimit =>
        rw [if_neg hlimit]
        split at h
        · next haccepts =>
          rw [if_pos haccepts]
          exact ih h
        · cases h

/-- Where there is nothing to cancel the loop ends at once. -/
lemma release_of_skips (h : as.find? (fun a => !skipsApply U a) = none) :
    release U inv limit as = (as, .done) := by
  induction as with
  | nil => rfl
  | cons a as ih =>
    have hall := List.find?_eq_none.mp h
    have hskip : skipsApply U a = true := by simpa using hall a List.mem_cons_self
    have hrest := ih (List.find?_eq_none.mpr (fun q hq => hall q (List.mem_cons_of_mem a hq)))
    rw [release, if_pos hskip, hrest]

lemma release_of_refused {a : LedgerEntry} (h : as.find? (fun a => !skipsApply U a) = some a)
    (hrefused : acceptsCancel U inv a = false ∨ limit = some 0) :
    (release U inv limit as).1 = as ∧ (release U inv limit as).2 ≠ .done := by
  induction as with
  | nil => cases h
  | cons b as ih =>
    rw [release]
    cases hskip : skipsApply U b with
    | true =>
      rw [List.find?_cons_of_neg (by simpa using hskip)] at h
      obtain ⟨hsame, hend⟩ := ih h
      simp only [if_true]
      rw [hsame]
      exact ⟨rfl, hend⟩
    | false =>
      rw [List.find?_cons_of_pos (by simpa using hskip)] at h
      cases h
      simp only [Bool.false_eq_true, if_false]
      split
      · exact ⟨rfl, by simp⟩
      · next hlimit =>
        obtain hnot | hzero := hrefused
        · rw [if_neg (by simp [hnot])]
          exact ⟨rfl, by simp⟩
        · exact absurd hzero hlimit

lemma release_of_accepted {a : LedgerEntry} (h : as.find? (fun a => !skipsApply U a) = some a)
    (haccepts : acceptsCancel U inv a = true) (hlimit : limit ≠ some 0) :
    (release U inv limit as).1 ≠ as := by
  induction as with
  | nil => cases h
  | cons b as ih =>
    rw [release]
    cases hskip : skipsApply U b with
    | true =>
      rw [List.find?_cons_of_neg (by simpa using hskip)] at h
      simp only [if_true]
      intro hsame
      exact ih h (List.cons_inj_right b |>.mp hsame)
    | false =>
      rw [List.find?_cons_of_pos (by simpa using hskip)] at h
      cases h
      simp only [Bool.false_eq_true, if_false]
      rw [if_neg hlimit, if_pos haccepts]
      intro hsame
      have hle := (@release_sublist U inv as (limit.map Nat.pred)).length_le
      rw [hsame, List.length_cons] at hle
      omega

/-- Applications that can all be cancelled are cancelled up to the failure. -/
lemma release_of_allCancel (h : AllCancel U inv as) (limit : Option Nat) :
    release U inv limit as =
      match limit with
      | none => ([], .done)
      | some k => if as.length ≤ k then ([], .done) else (as.drop k, .failed) := by
  induction as generalizing limit with
  | nil => cases limit <;> rfl
  | cons a as ih =>
    obtain ⟨hskip, haccepts⟩ := h a List.mem_cons_self
    have hrest : AllCancel U inv as := fun q hq => h q (List.mem_cons_of_mem a hq)
    rw [release, if_neg (by simp [hskip]), if_pos haccepts, ih hrest]
    cases limit with
    | none => rfl
    | some k =>
      cases k with
      | zero => rfl
      | succ k =>
        simp only [Option.map_some, Nat.pred_succ, List.length_cons, Nat.add_le_add_iff_right,
          List.drop_succ_cons, Option.some_inj, Nat.succ_ne_zero, if_false]

/-- An application that cannot be cancelled stays. -/
lemma release_not_allCancel (h : ¬AllCancel U inv as) (limit : Option Nat) :
    ¬AllCancel U inv (release U inv limit as).1 := by
  induction as generalizing limit with
  | nil => exact absurd (fun _ hq => absurd hq List.not_mem_nil) h
  | cons a as ih =>
    intro hleft
    rw [release] at hleft
    split at hleft
    · next hskip =>
      have hnot := (hleft a List.mem_cons_self).1
      rw [hskip] at hnot
      cases hnot
    · next hskip =>
      split at hleft
      · exact h hleft
      · split at hleft
        · next haccepts =>
          refine ih (fun hrest => h ?_) _ hleft
          intro q hq
          obtain rfl | hq := List.mem_cons.mp hq
          · exact ⟨by simpa using hskip, haccepts⟩
          · exact hrest q hq
        · exact h hleft

end Release

section Attempts

variable {U : UpperTable} {db : DepositDb} {id : Nat} {inv : Invoice} {st st' : Standing}
  {fault : Option CancelFault}

/-- What an attempt does, by the end of the cancellation. -/
lemma attempt_eq_some (h : st.attempt U inv fault = some st') :
    (fault.map CancelFault.after = some none ∧ st' = st) ∨
      (fault.map CancelFault.after ≠ some none ∧
        st'.applied = (release U inv (fault.map CancelFault.after).join st.applied).1 ∧
        st'.voided = (st.voided ||
          decide ((release U inv (fault.map CancelFault.after).join st.applied).2 = .done))) := by
  unfold Standing.attempt at h
  dsimp only at h
  split at h
  · next hselect =>
    split at h
    · cases h
    · cases h
      exact .inl ⟨hselect, rfl⟩
  · next hselect =>
    refine .inr ⟨hselect, ?_⟩
    generalize release U inv (fault.map CancelFault.after).join st.applied = r at h
    obtain ⟨left, cancelEnd⟩ := r
    cases cancelEnd with
    | done =>
      cases h
      exact ⟨rfl, by simp⟩
    | refused =>
      cases h
      exact ⟨rfl, by simp⟩
    | failed =>
      dsimp only at h
      split at h
      · cases h
      · cases h
        exact ⟨rfl, by simp⟩

lemma standingAfter_cons (hinv : voidable db id = some inv) {faults : List (Option CancelFault)}
    (h : standingAfter U db id st (fault :: faults) = some st') :
    ∃ next, st.attempt U inv fault = some next ∧ standingAfter U db id next faults = some st' := by
  rw [standingAfter, hinv] at h
  exact Option.bind_eq_some_iff.mp h

lemma attempt_sublist (h : st.attempt U inv fault = some st') : st'.applied.Sublist st.applied := by
  obtain ⟨-, rfl⟩ | ⟨-, happlied, -⟩ := attempt_eq_some h
  · exact List.Sublist.refl _
  · rw [happlied]
    exact release_sublist

lemma standingAfter_sublist (hinv : voidable db id = some inv) {faults : List (Option CancelFault)}
    (h : standingAfter U db id st faults = some st') : st'.applied.Sublist st.applied := by
  induction faults generalizing st with
  | nil =>
    cases h
    exact List.Sublist.refl _
  | cons fault faults ih =>
    obtain ⟨next, hnext, hrest⟩ := standingAfter_cons hinv h
    exact (ih hrest).trans (attempt_sublist hnext)

/-- The invoice is as it was before the attempts. -/
def Standing.Same (inv : Invoice) (applied : List LedgerEntry) (st : Standing) : Prop :=
  st.applied = applied ∧ (st.voided = true → inv.withStatus .void .none false = inv)

lemma attempt_same_iff (h : st.attempt U inv fault = some st') :
    st'.Same inv st.applied ↔ st.Same inv st.applied ∧ Idles U inv st.applied fault := by
  unfold Standing.Same Idles
  obtain ⟨hselect, rfl⟩ | ⟨hselect, happlied, hvoided⟩ := attempt_eq_some h
  · constructor
    · exact fun hsame => ⟨hsame, .inl hselect⟩
    · exact And.left
  · have hlimit : (fault.map CancelFault.after).join = some 0 ↔
        fault.map CancelFault.after = some (some 0) := by
      cases fault with
      | none => simp
      | some fault => simp
    rw [or_iff_right hselect, happlied, hvoided]
    cases hfirst : st.applied.find? (fun a => !skipsApply U a) with
    | none =>
      rw [release_of_skips hfirst]
      simp only [decide_true, Bool.or_true, true_and, forall_const]
      exact ⟨fun hrow => ⟨fun _ => hrow, hrow⟩, And.right⟩
    | some a =>
      dsimp only
      rw [← hlimit]
      by_cases hrefused : acceptsCancel U inv a = false ∨ (fault.map CancelFault.after).join = some 0
      · obtain ⟨hsame, hend⟩ := release_of_refused hfirst hrefused
        rw [hsame, decide_eq_false hend, Bool.or_false]
        exact (and_iff_left hrefused).symm
      · have hboth := not_or.mp hrefused
        have hne := release_of_accepted hfirst (by simpa using hboth.1) hboth.2
        exact iff_of_false (fun hsame => hne hsame.1) (fun hsame => hrefused hsame.2)

/-- The invoice stays as it is exactly if every attempt idles. -/
lemma standingAfter_same_iff (hinv : voidable db id = some inv) {faults : List (Option CancelFault)}
    (h : standingAfter U db id st faults = some st') :
    st'.Same inv st.applied ↔
      st.Same inv st.applied ∧ ∀ fault ∈ faults, Idles U inv st.applied fault := by
  induction faults generalizing st with
  | nil =>
    cases h
    simp
  | cons fault faults ih =>
    obtain ⟨next, hnext, hrest⟩ := standingAfter_cons hinv h
    have hstep := attempt_same_iff hnext
    rw [List.forall_mem_cons, ← and_assoc, ← hstep]
    constructor
    · intro hsame
      have happlied : next.applied = st.applied := by
        apply (attempt_sublist hnext).antisymm
        rw [← hsame.1]
        exact standingAfter_sublist hinv hrest
      rw [← happlied] at hsame ⊢
      exact (ih hrest).mp hsame
    · rintro ⟨hsame, hall⟩
      have happlied := hsame.1
      rw [← happlied] at hsame hall ⊢
      exact (ih hrest).mpr ⟨hsame, hall⟩

/-- The invoice is voided with all its applications exactly if they can all be cancelled and an attempt
gets to their end. -/
lemma standingAfter_whole_iff (hinv : voidable db id = some inv) {faults : List (Option CancelFault)}
    (h : standingAfter U db id st faults = some st') :
    (st'.applied = [] ∧ st'.voided = true) ↔
      (st.applied = [] ∧ st.voided = true) ∨
        (AllCancel U inv st.applied ∧ completes st.applied.length faults = true) := by
  induction faults generalizing st with
  | nil =>
    cases h
    simp [completes]
  | cons fault faults ih =>
    obtain ⟨next, hnext, hrest⟩ := standingAfter_cons hinv h
    rw [ih hrest, completes]
    obtain ⟨hselect, rfl⟩ | ⟨hselect, happlied, hvoided⟩ := attempt_eq_some hnext
    · rw [hselect]
    · by_cases hall : AllCancel U inv st.applied
      · rw [release_of_allCancel hall] at happlied hvoided
        match hlimit : fault.map CancelFault.after with
        | none =>
          rw [hlimit] at happlied hvoided
          simp only [Option.join_none, decide_true, Bool.or_true] at happlied hvoided
          simp [happlied, hvoided, hall]
        | some none => exact absurd hlimit hselect
        | some (some k) =>
          rw [hlimit] at happlied hvoided
          simp only [Option.join_some] at happlied hvoided
          by_cases hk : st.applied.length ≤ k
          · simp only [if_pos hk, decide_true, Bool.or_true] at happlied hvoided
            simp [happlied, hvoided, hall, hk]
          · rw [if_neg hk] at happlied
            have hne : st.applied ≠ [] := by
              rintro hnil
              rw [hnil] at hk
              exact hk (Nat.zero_le k)
            have hne' : next.applied ≠ [] := by
              intro hnil
              rw [happlied, List.drop_eq_nil_iff] at hnil
              exact hk hnil
            have hall' : AllCancel U inv next.applied := by
              intro a ha
              rw [happlied] at ha
              exact hall a (List.mem_of_mem_drop ha)
            have hlength : next.applied.length = st.applied.length - k := by
              rw [happlied, List.length_drop]
            simp [hne, hne', hall, hall', hlength, hk]
      · have hall' : ¬AllCancel U inv next.applied := by
          rw [happlied]
          exact release_not_allCancel hall _
        have hnil : ∀ {applied : List LedgerEntry}, ¬AllCancel U inv applied → applied ≠ [] := by
          rintro applied hnot rfl
          exact hnot (fun _ hq => absurd hq List.not_mem_nil)
        simp [hall, hall', hnil hall, hnil hall']

/-- Applications that have all gone have gone in an attempt that voided the invoice. -/
lemma standingAfter_nil (hinv : voidable db id = some inv) {faults : List (Option CancelFault)}
    (h : standingAfter U db id st faults = some st') (hnil : st'.applied = []) (hopen : st'.voided = false) :
    st.applied = [] ∧ st.voided = false := by
  induction faults generalizing st with
  | nil =>
    cases h
    exact ⟨hnil, hopen⟩
  | cons fault faults ih =>
    obtain ⟨next, hnext, hrest⟩ := standingAfter_cons hinv h
    obtain ⟨hnone, hclosed⟩ := ih hrest
    obtain ⟨-, rfl⟩ | ⟨-, happlied, hvoided⟩ := attempt_eq_some hnext
    · exact ⟨hnone, hclosed⟩
    · rw [happlied] at hnone
      rw [hvoided, release_nil hnone] at hclosed
      simp at hclosed

end Attempts

/-! ### Bulk voids -/

section Bulk

variable {U : UpperTable} {db s : DepositDb} {id : Nat} {inv : Invoice} {st : Standing}
  {attempts : List (Nat × Option CancelFault)}

lemma Shows.untouched_iff (h : Shows db s id st) (hinv : voidable db id = some inv) :
    Untouched db s id ↔ st.Same inv (uncanceledApplies db.ledger.rows id) := by
  obtain ⟨hfind, -⟩ := Option.filter_eq_some_iff.mp hinv
  obtain ⟨added, hadded, hlength⟩ := h.entries
  have hrow : s.invoices.find id = db.invoices.find id ↔
      (st.voided = true → inv.withStatus .void .none false = inv) := by
    rw [h.row, hfind, Option.map_some, Option.some_inj]
    constructor
    · intro hsame hvoided
      rwa [if_pos hvoided] at hsame
    · intro hsame
      split
      · next hvoided => exact hsame hvoided
      · rfl
  have happlied : invoiceEntries s.ledger.rows id = invoiceEntries db.ledger.rows id ↔
      st.applied = uncanceledApplies db.ledger.rows id := by
    rw [hadded, List.append_right_eq_self]
    constructor
    · rintro rfl
      rw [List.length_nil, Nat.zero_add] at hlength
      exact h.fewer.eq_of_length hlength
    · intro hsame
      rw [hsame] at hlength
      exact List.length_eq_zero_iff.mp (by omega)
  unfold Untouched Standing.Same
  rw [hrow, happlied, and_comm]

/-- A void invoice without an application has been voided now, or had no application before. -/
lemma Shows.fullyVoided_iff (h : Shows db s id st) (hinv : voidable db id = some inv)
    {faults : List (Option CancelFault)} (hst : standingAfter U db id (.start db id) faults = some st) :
    FullyVoided s id ∨ Untouched db s id ↔
      (st.applied = [] ∧ st.voided = true) ∨ st.Same inv (uncanceledApplies db.ledger.rows id) := by
  rw [h.untouched_iff hinv]
  obtain ⟨hfind, -⟩ := Option.filter_eq_some_iff.mp hinv
  have hrow := h.row
  rw [hfind, Option.map_some] at hrow
  constructor
  · rintro (⟨hnil, -⟩ | hsame)
    · rw [h.applied] at hnil
      cases hvoided : st.voided with
      | true => exact .inl ⟨hnil, rfl⟩
      | false =>
        obtain ⟨hstart, -⟩ := standingAfter_nil hinv hst hnil hvoided
        refine .inr ⟨hnil.trans hstart.symm, ?_⟩
        intro hcontra
        rw [hvoided] at hcontra
        cases hcontra
    · exact .inr hsame
  · rintro (⟨hnil, hvoided⟩ | hsame)
    · rw [if_pos hvoided] at hrow
      exact .inl ⟨h.applied.trans hnil, _, hrow, rfl, rfl⟩
    · exact .inr hsame

lemma Shows.sameOutcome {s' : DepositDb} (h : Shows db s id st) (h' : Shows db s' id st) :
    SameOutcome s s' id :=
  ⟨h.row.trans h'.row.symm, h.applied.trans h'.applied.symm⟩

lemma Shows.sameOutcome_iff (h : Shows db s id st) (hinv : voidable db id = some inv) :
    SameOutcome db s id ↔ st.Same inv (uncanceledApplies db.ledger.rows id) := by
  rw [← h.untouched_iff hinv]
  constructor
  · rintro ⟨hrow, happlied⟩
    have hiff := h.untouched_iff hinv
    refine hiff.mpr ⟨h.applied.symm.trans happlied.symm, ?_⟩
    intro hvoided
    have hsame := h.row
    rw [← hrow, (Option.filter_eq_some_iff.mp hinv).1, Option.map_some, if_pos hvoided] at hsame
    exact (Option.some.inj hsame).symm
  · intro huntouched
    have hsame := (h.untouched_iff hinv).mp huntouched
    exact ⟨huntouched.1.symm, hsame.1.symm.trans h.applied.symm⟩

lemma shows_not_voidable (h : Shows db s id st) (hinv : voidable db id = none) :
    s.invoices.find id = db.invoices.find id := by
  have hopen : ¬st.voided = true := by
    intro hvoided
    have hsome := h.allowed hvoided
    rw [hinv] at hsome
    cases hsome
  rw [h.row]
  simp only [if_neg hopen]
  exact Option.map_id'

/-- After the commit every invoice shows what its own attempts have made of it, unless the transaction is
lost. -/
lemma committedVoid_shows (hcover : ∀ p ∈ attempts, Covered U db p.1) :
    ((∃ j, GivesUp U db attempts j) ∧ committedVoid U db attempts = db) ∨
      ((∀ j, ¬GivesUp U db attempts j) ∧ ∀ j, ∃ st,
        standingAfter U db j (.start db j) (faultsOf attempts j) = some st ∧
          Shows db (committedVoid U db attempts) j st) := by
  unfold GivesUp committedVoid
  obtain ⟨hcode, hgone⟩ | ⟨s', hcode, hshows⟩ :=
    bulkVoid_shows (fun j => shows_start db j) hcover
  · rw [hcode]
    exact .inl ⟨hgone, rfl⟩
  · rw [hcode]
    refine .inr ⟨?_, hshows⟩
    intro j hgone
    obtain ⟨st', hst, -⟩ := hshows j
    rw [hst] at hgone
    cases hgone

lemma faultsOf_filter (id j : Nat) :
    faultsOf (attempts.filter (fun p => p.1 = id)) j = if j = id then faultsOf attempts j else [] := by
  unfold faultsOf
  rw [List.filter_filter]
  split
  · next h =>
    subst h
    simp
  · next h =>
    rw [List.map_eq_nil_iff, List.filter_eq_nil_iff]
    rintro ⟨k, fault⟩ -
    simp only [← Bool.decide_and, decide_eq_true_eq]
    rintro ⟨rfl, rfl⟩
    exact h rfl

/-- The attempts on one invoice, without those on the others. -/
lemma committedVoid_alone (hcover : ∀ p ∈ attempts, Covered U db p.1) (id : Nat) :
    (GivesUp U db attempts id ∧ committedVoid U db (attempts.filter (fun p => p.1 = id)) = db) ∨
      ∃ st, standingAfter U db id (.start db id) (faultsOf attempts id) = some st ∧
        Shows db (committedVoid U db (attempts.filter (fun p => p.1 = id))) id st := by
  have hown := @faultsOf_filter attempts id
  have hcover' : ∀ p ∈ attempts.filter (fun p => p.1 = id), Covered U db p.1 :=
    fun p hp => hcover p (List.mem_of_mem_filter hp)
  obtain ⟨⟨j, hj⟩, hdb⟩ | ⟨-, hshows⟩ := committedVoid_shows hcover'
  · unfold GivesUp at hj ⊢
    rw [hown] at hj
    by_cases hid : j = id
    · subst hid
      rw [if_pos rfl] at hj
      exact .inl ⟨hj, hdb⟩
    · rw [if_neg hid] at hj
      cases hj
  · obtain ⟨st, hst, hshow⟩ := hshows id
    rw [hown, if_pos rfl] at hst
    exact .inr ⟨st, hst, hshow⟩

/-- What the condition says of an invoice that is not given up. -/
lemma whole_or_same_iff (hinv : voidable db id = some inv)
    (hst : standingAfter U db id (.start db id) (faultsOf attempts id) = some st) :
    ((∀ fault ∈ faultsOf attempts id, Idles U inv (uncanceledApplies db.ledger.rows id) fault) ↔
        st.Same inv (uncanceledApplies db.ledger.rows id)) ∧
      ((st.applied = [] ∧ st.voided = true) ↔
        AllCancel U inv (uncanceledApplies db.ledger.rows id) ∧
          completes (uncanceledApplies db.ledger.rows id).length (faultsOf attempts id) = true) := by
  have hsame := standingAfter_same_iff hinv hst
  have hwhole := standingAfter_whole_iff hinv hst
  have hstart : (Standing.start db id).Same inv (uncanceledApplies db.ledger.rows id) :=
    ⟨rfl, fun h => by cases h⟩
  have hopen : ¬((Standing.start db id).applied = [] ∧ (Standing.start db id).voided = true) := by
    rintro ⟨-, h⟩
    cases h
  rw [or_iff_right hopen] at hwhole
  exact ⟨(hsame.trans (and_iff_right hstart)).symm, hwhole⟩

/-- Where the balances take what is given back, a clean bulk void leaves every invoice as the condition
says. -/
lemma whole_of_voidsCleanly (hcover : ∀ p ∈ attempts, Covered U db p.1)
    (h : VoidsCleanly U db attempts) (hinv : voidable db id = some inv) : VoidsWhole U db attempts id inv := by
  obtain ⟨hwhole, hown⟩ := h
  unfold VoidsWhole
  dsimp only
  obtain ⟨hgone, -⟩ | ⟨st, hst, halone⟩ := committedVoid_alone hcover id
  · exact .inl hgone
  · obtain ⟨hsame, hvoided⟩ := whole_or_same_iff hinv hst
    obtain ⟨-, hdb⟩ | ⟨hkept, hshows⟩ := committedVoid_shows hcover
    · -- the transaction is lost, and the invoice alone has to be as it was
      have houtcome := hown id
      rw [hdb] at houtcome
      exact .inr (.inl (hsame.mpr ((halone.sameOutcome_iff hinv).mp houtcome)))
    · obtain ⟨st', hst', hshow⟩ := hshows id
      rw [hst] at hst'
      cases hst'
      obtain hdone | hstays := (hshow.fullyVoided_iff hinv hst).mp (hwhole id)
      · exact .inr (.inr ⟨hvoided.mp hdone, hkept⟩)
      · exact .inr (.inl (hsame.mpr hstays))

/-- A lost transaction is clean if no other invoice would have been voided alone. -/
lemma WholeVoids.sameOutcome_of_lost (h : WholeVoids U db attempts) {k : Nat}
    (hk : GivesUp U db attempts k) (id : Nat) :
    SameOutcome db (committedVoid U db (attempts.filter (fun p => p.1 = id))) id := by
  obtain ⟨-, hdb'⟩ | ⟨st, hst, halone⟩ := committedVoid_alone h.covered id
  · rw [hdb']
    exact ⟨rfl, rfl⟩
  · cases hinv : voidable db id with
    | none =>
      rw [standingAfter_not_voidable hinv] at hst
      cases hst
      exact (shows_start db id).sameOutcome halone
    | some inv =>
      obtain ⟨hsame, -⟩ := whole_or_same_iff hinv hst
      apply (halone.sameOutcome_iff hinv).mpr
      obtain hgone | hidle | ⟨-, hkept⟩ := h.whole id inv hinv
      · unfold GivesUp at hgone
        rw [hst] at hgone
        cases hgone
      · exact hsame.mp hidle
      · exact absurd hk (hkept k)

/-- An invoice that nobody gives up is voided as a whole or is what it was. -/
lemma WholeVoids.whole_or_untouched (h : WholeVoids U db attempts) (hkept : ¬GivesUp U db attempts id)
    (hst : standingAfter U db id (.start db id) (faultsOf attempts id) = some st) (hshow : Shows db s id st) :
    FullyVoided s id ∨ Untouched db s id := by
  cases hinv : voidable db id with
  | none =>
    rw [standingAfter_not_voidable hinv] at hst
    cases hst
    obtain ⟨added, hadded, hlength⟩ := hshow.entries
    have hstart : (Standing.start db id).applied.length = (uncanceledApplies db.ledger.rows id).length := rfl
    have hnil : added = [] := List.length_eq_zero_iff.mp (by omega)
    rw [hnil, List.append_nil] at hadded
    exact .inr ⟨shows_not_voidable hshow hinv, hadded⟩
  | some inv =>
    obtain ⟨hsame, hvoided⟩ := whole_or_same_iff hinv hst
    apply (hshow.fullyVoided_iff hinv hst).mpr
    obtain hgone | hidle | ⟨hwhole, -⟩ := h.whole id inv hinv
    · exact absurd hgone hkept
    · exact .inr (hsame.mp hidle)
    · exact .inl (hvoided.mpr hwhole)

lemma WholeVoids.voidsCleanly (h : WholeVoids U db attempts) : VoidsCleanly U db attempts := by
  obtain ⟨⟨k, hk⟩, hdb⟩ | ⟨hkept, hshows⟩ := committedVoid_shows h.covered
  · unfold VoidsCleanly
    rw [hdb]
    exact ⟨fun id => .inr ⟨rfl, rfl⟩, h.sameOutcome_of_lost hk⟩
  · refine ⟨fun id => ?_, fun id => ?_⟩
    · obtain ⟨st, hst, hshow⟩ := hshows id
      exact h.whole_or_untouched (hkept id) hst hshow
    · obtain ⟨st, hst, hshow⟩ := hshows id
      obtain ⟨hgone, -⟩ | ⟨st', hst', halone⟩ := committedVoid_alone h.covered id
      · exact absurd hgone (hkept id)
      · rw [hst] at hst'
        cases hst'
        exact hshow.sameOutcome halone

end Bulk

def clientInvoice : Invoice := ⟨1, 7, some 1, some "USD".toList, 100, .sent, .sent, .unpaid, false⟩

def retainerEntry (id clientId : Nat) (amount : Int) : LedgerEntry where
  id := id
  businessProfileId := some 1
  clientId := clientId
  currency := "USD".toList
  amountMinor := amount
  entryType := if 0 < amount then .topup else .apply
  relatedInvoiceId := if 0 < amount then none else some 1
  relatedEntryId := none

def oneClientDb : DepositDb where
  invoices := ⟨[clientInvoice], 2, by decide, by decide⟩
  ledger := ⟨[retainerEntry 1 7 100, retainerEntry 2 7 (-40)], 3, by decide, by decide⟩

/-- The cancellation adds to the one balance there is. -/
lemma covered_oneClientDb (id : Nat) : Covered asciiTable oneClientDb id := by
  intro a ha hskip
  obtain ⟨hmem, hinvoice, -⟩ := mem_uncanceledApplies.mp ha
  have hbucket : ∀ b, bucketSum b oneClientDb.ledger.rows =
      (if (retainerEntry 1 7 100).bucket = b then 100 else 0) +
        (if (retainerEntry 1 7 100).bucket = b then -40 else 0) := by
    intro b
    have hrows : oneClientDb.ledger.rows = [retainerEntry 1 7 100] ++ [retainerEntry 2 7 (-40)] := rfl
    rw [hrows, bucketSum_append, bucketSum_singleton, bucketSum_singleton]
    rfl
  have hneg := (skipsApply_eq_false.mp hskip).2
  rw [hbucket]
  split
  · omega
  · omega

def twoClientsDb : DepositDb where
  invoices := ⟨[clientInvoice], 2, by decide, by decide⟩
  ledger := ⟨[retainerEntry 1 7 100, retainerEntry 2 8 100, retainerEntry 3 7 (-40),
    retainerEntry 4 8 (-30)], 5, by decide, by decide⟩

end IpDocket.Billing
