import IpDocket.Accounting.Journal

/-!
# Closed periods are immutable

A request keeps the books in a state in which the closed periods of a profile are disjoint,
every entry inside one of them is posted, and the lock of an entry names the closed period it
lies in. While a period stays closed, no request touches the posted lines inside it: each of
them asks for the period of the date that it writes to.
-/

namespace IpDocket.Accounting
open IpDocket.Lib

variable {U : UpperTable}

def JournalEntry.HasLock (e : JournalEntry) (periodId : Nat) : Prop :=
  e.lockedPeriod = true ∧ e.lockedPeriodId = some periodId

/-- The period is closed and the entry lies in it. -/
def ClosedOver (b : Books) (periodId : Nat) (e : JournalEntry) : Prop :=
  ∃ p, b.periods.find periodId = some p ∧ p.status = .closed ∧
    p.contains e.businessProfileId e.entryDate

structure PeriodInvariant (b : Books) : Prop where
  range : ∀ p ∈ b.periods.rows, p.startDate ≤ p.endDate
  disjoint : ∀ p ∈ b.periods.rows, ∀ q ∈ b.periods.rows, p.status = .closed →
    q.status = .closed → p.businessProfileId = q.businessProfileId → p.id ≠ q.id →
    p.endDate < q.startDate ∨ q.endDate < p.startDate
  profile : ∀ e ∈ b.entries.rows, e.businessProfileId ≠ 0
  reversed : ∀ e ∈ b.entries.rows, e.reversed = true → e.posted = true
  posted : ∀ e ∈ b.entries.rows, ∀ p ∈ b.periods.rows, p.status = .closed →
    p.contains e.businessProfileId e.entryDate → e.posted = true
  locked : ∀ e ∈ b.entries.rows, ∀ k, e.HasLock k ↔ ClosedOver b k e
  lines : ∀ l ∈ b.lines.rows, (b.entries.find l.entryId).isSome = true

lemma periodInvariant_fresh (profiles : Keyed BusinessProfile.id)
    (accounts : Keyed Account.id) : PeriodInvariant (Books.fresh profiles accounts) := by
  constructor <;> simp [Books.fresh, Table.empty]

lemma PeriodInvariant.insert {b b' : Books} (hI : PeriodInvariant b) {e : JournalEntry}
    {values : List LineValues}
    (h : Inserted (fun id => { e with id := id }) (fun _ => rfl) values b b')
    (hclosed : NotClosed b e.businessProfileId e.entryDate) (hlock : e.lockedPeriod = false)
    (hrev : e.reversed = false) : PeriodInvariant b' := by
  have hentries : b'.entries.rows = b.entries.rows ++ [{ e with id := b.entries.next }] := by
    rw [h.entries]
    rfl
  have hover : ∀ k q, ClosedOver b' k q ↔ ClosedOver b k q := by
    intro k q
    unfold ClosedOver
    rw [h.periods]
  refine ⟨?_, ?_, ?_, ?_, ?_, ?_, ?_⟩
  · rw [h.periods]
    exact hI.range
  · rw [h.periods]
    exact hI.disjoint
  · intro q hq
    rw [hentries] at hq
    rcases List.mem_append.mp hq with hq | hq
    · exact hI.profile q hq
    · rw [List.mem_singleton.mp hq]
      exact profile_ne_zero h.profile
  · intro q hq hqr
    rw [hentries] at hq
    rcases List.mem_append.mp hq with hq | hq
    · exact hI.reversed q hq hqr
    · rw [List.mem_singleton.mp hq] at hqr
      exact absurd (hrev.symm.trans hqr) (by decide)
  · intro q hq p hp hpc hin
    rw [h.periods] at hp
    rw [hentries] at hq
    rcases List.mem_append.mp hq with hq | hq
    · exact hI.posted q hq p hp hpc hin
    · rw [List.mem_singleton.mp hq] at hin
      exact absurd hin (hclosed p hp hpc)
  · intro q hq k
    rw [hover]
    rw [hentries] at hq
    rcases List.mem_append.mp hq with hq | hq
    · exact hI.locked q hq k
    · rw [List.mem_singleton.mp hq]
      constructor
      · rintro ⟨hl, _⟩
        exact absurd (hlock.symm.trans hl) (by decide)
      · rintro ⟨p, hp, hpc, hin⟩
        exact absurd hin (hclosed p (Table.mem_of_find hp) hpc)
  · intro l hl
    rw [h.entries]
    rw [h.lines] at hl
    rcases List.mem_append.mp hl with hl | hl
    · obtain ⟨q, hq⟩ := Option.isSome_iff_exists.mp (hI.lines l hl)
      rw [Table.find_insert_some _ hq]
      rfl
    · rw [entryId_of_mem_numberLines hl, Table.find_insert_next]
      rfl

/-- An `UPDATE` of entries that leaves their date, profile and lock alone. -/
lemma PeriodInvariant.updateEntries {b : Books} (hI : PeriodInvariant b)
    {p : JournalEntry → Bool} {f : JournalEntry → JournalEntry} (hf : ∀ e, (f e).id = e.id)
    (hkeep : ∀ e, (f e).businessProfileId = e.businessProfileId ∧ (f e).entryDate = e.entryDate ∧
      (f e).lockedPeriod = e.lockedPeriod ∧ (f e).lockedPeriodId = e.lockedPeriodId)
    (hposted : ∀ e, e.posted = true → (f e).posted = true)
    (hrev : ∀ e ∈ b.entries.rows, p e = true → (f e).reversed = true → (f e).posted = true) :
    PeriodInvariant (updateEntries p f hf b) := by
  have hrow : ∀ q ∈ (Accounting.updateEntries p f hf b).entries.rows,
      ∃ e ∈ b.entries.rows, (q = e ∨ (p e = true ∧ q = f e)) := by
    intro q hq
    obtain ⟨e, he, rfl⟩ := List.mem_map.mp hq
    refine ⟨e, he, ?_⟩
    unfold onRows
    split
    · next hp => exact .inr ⟨hp, rfl⟩
    · exact .inl rfl
  refine ⟨hI.range, hI.disjoint, ?_, ?_, ?_, ?_, ?_⟩
  · intro q hq
    obtain ⟨e, he, rfl | ⟨_, rfl⟩⟩ := hrow q hq
    · exact hI.profile _ he
    · rw [(hkeep e).1]
      exact hI.profile e he
  · intro q hq hqr
    obtain ⟨e, he, rfl | ⟨hp, rfl⟩⟩ := hrow q hq
    · exact hI.reversed _ he hqr
    · exact hrev e he hp hqr
  · intro q hq p hp hpc hin
    obtain ⟨e, he, rfl | ⟨_, rfl⟩⟩ := hrow q hq
    · exact hI.posted _ he p hp hpc hin
    · rw [(hkeep e).1, (hkeep e).2.1] at hin
      exact hposted e (hI.posted e he p hp hpc hin)
  · intro q hq k
    obtain ⟨e, he, rfl | ⟨_, rfl⟩⟩ := hrow q hq
    · exact hI.locked _ he k
    · obtain ⟨hbp, hdate, hl, hid⟩ := hkeep e
      have hiff := hI.locked e he k
      unfold JournalEntry.HasLock ClosedOver at hiff ⊢
      rw [hbp, hdate, hl, hid]
      exact hiff
  · intro l hl
    rw [isSome_find_updateEntries]
    exact hI.lines l hl

lemma PeriodInvariant.delete {b : Books} (hI : PeriodInvariant b) (entryId : Nat) :
    PeriodInvariant { b with
      lines := deleteLines entryId b.lines
      entries := b.entries.delete entryId } := by
  have hrow : ∀ q ∈ (b.entries.delete entryId).rows, q ∈ b.entries.rows :=
    fun q hq => (List.mem_filter.mp hq).1
  refine ⟨hI.range, hI.disjoint, ?_, ?_, ?_, ?_, ?_⟩
  · intro q hq
    exact hI.profile q (hrow q hq)
  · intro q hq
    exact hI.reversed q (hrow q hq)
  · intro q hq
    exact hI.posted q (hrow q hq)
  · intro q hq
    exact hI.locked q (hrow q hq)
  · intro l hl
    obtain ⟨hmem, hne⟩ := List.mem_filter.mp hl
    change ((b.entries.delete entryId).find l.entryId).isSome = true
    rw [Table.find_delete_of_ne (of_decide_eq_true hne)]
    exact hI.lines l hmem

lemma StoredClosed.mem_cases {p q : AccountingPeriod} {b b' : Books} (h : StoredClosed p b b')
    (hq : q ∈ b'.periods.rows) : q = p ∨ (q.id ≠ p.id ∧ q ∈ b.periods.rows) := by
  have hfind := Table.find_of_mem hq
  by_cases hid : q.id = p.id
  · rw [hid, h.found] at hfind
    exact .inl (Option.some.inj hfind).symm
  · rw [h.others q.id hid] at hfind
    exact .inr ⟨hid, Table.mem_of_find hfind⟩

section Close

variable {b b₁ : Books} {p : AccountingPeriod}

/-- An old closed period does not meet the one that is being closed. -/
lemma not_contains_of_not_overlaps
    (hoverlap : ∀ q ∈ b.periods.rows, ¬q.overlaps p.businessProfileId p.startDate p.endDate)
    {q : AccountingPeriod} (hq : q ∈ b.periods.rows) (hqc : q.status = .closed) {bpId : Int}
    {date : Date} (hin : q.contains bpId date) : ¬p.contains bpId date := by
  rintro ⟨hbp, hstart, hstop⟩
  obtain ⟨hqbp, hqstart, hqstop⟩ := hin
  exact hoverlap q hq ⟨hqbp.trans hbp.symm, hqc, hqstart.trans hstop, hstart.trans hqstop⟩

lemma closedOver_of_stored (h : StoredClosed p b b₁) {e : JournalEntry} (hout : ¬p.contains e.businessProfileId e.entryDate) (k : Nat) :
    ClosedOver b₁ k e ↔ ClosedOver b k e := by
  unfold ClosedOver
  by_cases hk : k = p.id
  · subst hk
    constructor
    · rintro ⟨q, hq, _, hin⟩
      rw [h.found] at hq
      cases hq
      exact absurd hin hout
    · rintro ⟨q, hq, _, hin⟩
      obtain ⟨hbp, hstart, hstop⟩ := h.before q hq
      unfold AccountingPeriod.contains at hin hout
      rw [hbp, hstart, hstop] at hin
      exact absurd hin hout
  · rw [h.others k hk]

lemma PeriodInvariant.close (hI : PeriodInvariant b) (h : StoredClosed p b b₁)
    (hrange : p.startDate ≤ p.endDate)
    (hoverlap : ∀ q ∈ b.periods.rows, ¬q.overlaps p.businessProfileId p.startDate p.endDate)
    (hpending : ∀ e ∈ b.entries.rows, ¬e.pending p.businessProfileId p.startDate p.endDate) :
    PeriodInvariant (lockEntries p.id p.businessProfileId p.startDate p.endDate b₁) := by
  have hapart : ∀ q ∈ b.periods.rows, q.status = .closed →
      q.businessProfileId = p.businessProfileId →
      q.endDate < p.startDate ∨ p.endDate < q.startDate := by
    intro q hq hqc hbp
    have hno := hoverlap q hq
    unfold AccountingPeriod.overlaps at hno
    by_contra hmeet
    rw [not_or, not_lt, not_lt] at hmeet
    exact hno ⟨hbp, hqc, hmeet.2, hmeet.1⟩
  -- A row of the books afterwards is a row before, with a lock when it lies in the period.
  have hrow : ∀ q ∈ (lockEntries p.id p.businessProfileId p.startDate p.endDate b₁).entries.rows,
      ∃ e ∈ b.entries.rows, (p.contains e.businessProfileId e.entryDate ∧
          q = { e with lockedPeriod := true, lockedPeriodId := some p.id }) ∨
        (¬p.contains e.businessProfileId e.entryDate ∧ q = e) := by
    intro q hq
    obtain ⟨e, he, rfl⟩ := List.mem_map.mp hq
    rw [h.entries] at he
    refine ⟨e, he, ?_⟩
    unfold onRows AccountingPeriod.contains
    split
    · next hin =>
      obtain ⟨hbp, hdate⟩ := of_decide_eq_true hin
      exact .inl ⟨⟨hbp.symm, hdate⟩, rfl⟩
    · next hout =>
      refine .inr ⟨?_, rfl⟩
      rintro ⟨hbp, hdate⟩
      exact hout (decide_eq_true ⟨hbp.symm, hdate⟩)
  refine ⟨?_, ?_, ?_, ?_, ?_, ?_, ?_⟩
  · intro q hq
    rcases h.mem_cases hq with rfl | ⟨_, hq⟩
    · exact hrange
    · exact hI.range q hq
  · intro q hq r hr hqc hrc hbp hne
    rcases h.mem_cases hq with rfl | ⟨_, hqold⟩
    · rcases h.mem_cases hr with rfl | ⟨_, hrold⟩
      · exact absurd rfl hne
      · exact (hapart r hrold hrc hbp.symm).symm
    · rcases h.mem_cases hr with rfl | ⟨_, hrold⟩
      · exact hapart q hqold hqc hbp
      · exact hI.disjoint q hqold r hrold hqc hrc hbp hne
  · intro q hq
    obtain ⟨e, he, ⟨_, rfl⟩ | ⟨_, rfl⟩⟩ := hrow q hq
    · exact hI.profile e he
    · exact hI.profile _ he
  · intro q hq
    obtain ⟨e, he, ⟨_, rfl⟩ | ⟨_, rfl⟩⟩ := hrow q hq
    · exact hI.reversed e he
    · exact hI.reversed _ he
  · intro q hq r hr hrc hin
    obtain ⟨e, he, ⟨hpe, rfl⟩ | ⟨hpe, rfl⟩⟩ := hrow q hq
    · by_contra hnot
      refine hpending e he ⟨hpe.1.symm, hpe.2.1, hpe.2.2, by simpa using hnot, ?_⟩
      by_contra hrev
      exact hnot (hI.reversed e he (by simpa using hrev))
    · rcases h.mem_cases hr with rfl | ⟨_, hr⟩
      · exact absurd hin hpe
      · exact hI.posted _ he r hr hrc hin
  · intro q hq k
    obtain ⟨e, he, ⟨hpe, rfl⟩ | ⟨hpe, rfl⟩⟩ := hrow q hq
    · constructor
      · rintro ⟨_, hk⟩
        cases hk
        exact ⟨p, h.found, h.closed, hpe⟩
      · rintro ⟨r, hr, hrc, hin⟩
        have hkey := Table.key_of_find hr
        rcases h.mem_cases (Table.mem_of_find hr) with rfl | ⟨_, hold⟩
        · rw [← hkey]
          exact ⟨rfl, rfl⟩
        · exact absurd hpe (not_contains_of_not_overlaps hoverlap hold hrc hin)
    · exact (hI.locked _ he k).trans (closedOver_of_stored h hpe k).symm
  · intro l hl
    change l ∈ b₁.lines.rows at hl
    rw [h.lines] at hl
    rw [lockEntries, isSome_find_updateEntries, h.entries]
    exact hI.lines l hl

end Close

lemma PeriodInvariant.reopen {b : Books} (hI : PeriodInvariant b) (periodId : Nat) :
    PeriodInvariant (unlockEntries periodId
      (updatePeriods (fun p => p.id = periodId) (fun p => { p with status := .opened })
        (fun _ => rfl) b)) := by
  set b' := unlockEntries periodId
    (updatePeriods (fun p => p.id = periodId) (fun p => { p with status := .opened })
      (fun _ => rfl) b) with hb'
  have hperiod : ∀ q ∈ b'.periods.rows, ∃ r ∈ b.periods.rows, (r.id ≠ periodId ∧ q = r) ∨
      q = { r with status := .opened } := by
    intro q hq
    obtain ⟨r, hr, rfl⟩ := List.mem_map.mp hq
    refine ⟨r, hr, ?_⟩
    unfold onRows
    split
    · exact .inr rfl
    · next hne => exact .inl ⟨by simpa using hne, rfl⟩
  have hclosed : ∀ q ∈ b'.periods.rows, q.status = .closed →
      q.id ≠ periodId ∧ q ∈ b.periods.rows := by
    intro q hq hqc
    obtain ⟨r, hr, ⟨hne, rfl⟩ | rfl⟩ := hperiod q hq
    · exact ⟨hne, hr⟩
    · cases hqc
  have hover : ∀ k e, ClosedOver b' k e ↔ k ≠ periodId ∧ ClosedOver b k e := by
    intro k e
    constructor
    · rintro ⟨q, hq, hqc, hin⟩
      obtain ⟨hne, hold⟩ := hclosed q (Table.mem_of_find hq) hqc
      rw [Table.key_of_find hq] at hne
      refine ⟨hne, q, ?_, hqc, hin⟩
      rw [← Table.key_of_find hq]
      exact Table.find_of_mem hold
    · rintro ⟨hne, q, hq, hqc, hin⟩
      refine ⟨q, ?_, hqc, hin⟩
      rw [hb', unlockEntries, periods_updateEntries, find_updatePeriods, if_neg hne, hq]
  have hrow : ∀ q ∈ b'.entries.rows, ∃ e ∈ b.entries.rows,
      (e.lockedPeriodId = some periodId ∧
        q = { e with lockedPeriod := false, lockedPeriodId := none }) ∨
      (e.lockedPeriodId ≠ some periodId ∧ q = e) := by
    intro q hq
    obtain ⟨e, he, rfl⟩ := List.mem_map.mp hq
    refine ⟨e, he, ?_⟩
    unfold onRows
    split
    · next hl => exact .inl ⟨of_decide_eq_true hl, rfl⟩
    · next hl => exact .inr ⟨by simpa using hl, rfl⟩
  refine ⟨?_, ?_, ?_, ?_, ?_, ?_, ?_⟩
  · intro q hq
    obtain ⟨r, hr, ⟨_, rfl⟩ | rfl⟩ := hperiod q hq
    · exact hI.range _ hr
    · exact hI.range r hr
  · intro q hq r hr hqc hrc
    exact hI.disjoint q (hclosed q hq hqc).2 r (hclosed r hr hrc).2 hqc hrc
  · intro q hq
    obtain ⟨e, he, ⟨_, rfl⟩ | ⟨_, rfl⟩⟩ := hrow q hq
    · exact hI.profile e he
    · exact hI.profile _ he
  · intro q hq
    obtain ⟨e, he, ⟨_, rfl⟩ | ⟨_, rfl⟩⟩ := hrow q hq
    · exact hI.reversed e he
    · exact hI.reversed _ he
  · intro q hq r hr hrc hin
    have hold := (hclosed r hr hrc).2
    obtain ⟨e, he, ⟨_, rfl⟩ | ⟨_, rfl⟩⟩ := hrow q hq
    · exact hI.posted e he r hold hrc hin
    · exact hI.posted _ he r hold hrc hin
  · intro q hq k
    obtain ⟨e, he, ⟨hl, rfl⟩ | ⟨hl, rfl⟩⟩ := hrow q hq
    · constructor
      · rintro ⟨hlock, _⟩
        cases hlock
      · intro hk
        obtain ⟨hne, hin⟩ := (hover k _).mp hk
        have hlock : e.HasLock k := (hI.locked e he k).mpr hin
        exact absurd (Option.some.inj (hl.symm.trans hlock.2)).symm hne
    · rw [hover, ← hI.locked _ he]
      constructor
      · intro hlock
        refine ⟨?_, hlock⟩
        rintro rfl
        exact hl hlock.2
      · exact And.right
  · intro l hl
    rw [hb', unlockEntries, isSome_find_updateEntries]
    exact hI.lines l hl

lemma periodInvariant_handle {b : Books} {w : Written} {r : LedgerRequest}
    (hI : PeriodInvariant b) (h : handle U b r = .ok w) : PeriodInvariant w.books := by
  cases r with
  | journalNew f default today =>
    obtain ⟨e, _, done, hinserted, _, _, hclosed, _, _, hlock, hrev, _⟩ := journalNew_eq_ok h
    exact hI.insert hinserted hclosed hlock hrev
  | journalApprove entryId =>
    obtain ⟨_, hb⟩ := journalApprove_eq_ok (written_eq_ok h)
    rw [hb]
    exact hI.updateEntries _ (fun _ => ⟨rfl, rfl, rfl, rfl⟩) (fun _ h => h)
      (fun e he _ => hI.reversed e he)
  | journalPost entryId =>
    obtain ⟨e, _, _, _, hb⟩ := journalPost_eq_ok (written_eq_ok h)
    rw [hb]
    exact hI.updateEntries _ (fun _ => ⟨rfl, rfl, rfl, rfl⟩) (fun _ _ => rfl)
      (fun _ _ _ _ => rfl)
  | journalReverse entryId date today reason =>
    obtain ⟨e, new, b₁, done, he, hposted, hinserted, hclosed, _, hlock, hrev, hend⟩ :=
      journalReverse_eq_ok h
    have hI₁ := hI.insert hinserted
      (hclosed (hI.profile e (Table.mem_of_find he))) hlock hrev
    rcases hend with ⟨_, hb⟩ | ⟨hb, _⟩
    · rw [hb]
      refine hI₁.updateEntries _ (fun _ => ⟨rfl, rfl, rfl, rfl⟩) (fun _ h => h) ?_
      intro q hq hid _
      have hfind : b₁.entries.find entryId = some e := by
        rw [hinserted.entries]
        exact Table.find_insert_some _ he
      have hq' := Table.find_of_mem hq
      rw [of_decide_eq_true hid, hfind] at hq'
      cases hq'
      exact hposted
    · rw [hb]
      exact hI₁
  | journalDelete entryId =>
    obtain ⟨e, _, _, hb⟩ := journalDelete_eq_ok (written_eq_ok h)
    rw [hb]
    exact hI.delete entryId
  | closeAccountingPeriod f =>
    obtain ⟨p, b₁, hstored, hrange, _, hoverlap, hpending, hb⟩ :=
      closeAccountingPeriod_eq_ok (written_eq_ok h)
    rw [hb]
    exact hI.close hstored hrange hoverlap hpending
  | reopenAccountingPeriod periodId =>
    rw [reopenAccountingPeriod_eq_ok (written_eq_ok h)]
    exact hI.reopen periodId

lemma periodInvariant_run {profiles : Keyed BusinessProfile.id} {accounts : Keyed Account.id}
    {rs : List LedgerRequest} {b : Books}
    (h : Run (ledgerStep U) (Books.fresh profiles accounts) rs b) : PeriodInvariant b := by
  refine h.invariant (periodInvariant_fresh profiles accounts) ?_
  intro b r b' hI _ hstep
  obtain ⟨w, hw, rfl⟩ := ledgerStep_eq_some.mp hstep
  exact periodInvariant_handle hI hw

/-! ### The lines of a closed period -/

def postedIn (b : Books) (p : AccountingPeriod) (entryId : Nat) : Bool :=
  (b.entries.find entryId).any
    (fun e => e.posted ∧ p.contains e.businessProfileId e.entryDate)

/-- The posted lines dated inside the period. -/
def postedLinesIn (b : Books) (p : AccountingPeriod) : List JournalLine :=
  b.lines.rows.filter (fun l => postedIn b p l.entryId)

section Frame

variable {b b' : Books} {p : AccountingPeriod}

lemma postedLinesIn_insert (hI : PeriodInvariant b) {e : JournalEntry}
    {values : List LineValues}
    (h : Inserted (fun id => { e with id := id }) (fun _ => rfl) values b b')
    (hout : ¬p.contains e.businessProfileId e.entryDate) :
    postedLinesIn b' p = postedLinesIn b p := by
  have hnew : ∀ l ∈ numberLines b.entries.next b.lines.next values,
      ¬postedIn b' p l.entryId = true := by
    intro l hl
    rw [entryId_of_mem_numberLines hl, postedIn, h.entries, Table.find_insert_next]
    simp [hout]
  have hold : ∀ l ∈ b.lines.rows, postedIn b' p l.entryId = postedIn b p l.entryId := by
    intro l hl
    obtain ⟨q, hq⟩ := Option.isSome_iff_exists.mp (hI.lines l hl)
    rw [postedIn, postedIn, h.entries, Table.find_insert_some _ hq, hq]
  unfold postedLinesIn
  rw [h.lines, List.filter_append, List.filter_eq_nil_iff.mpr hnew, List.append_nil]
  exact List.filter_congr hold

lemma postedLinesIn_updateEntries {q : JournalEntry → Bool} {f : JournalEntry → JournalEntry}
    (hf : ∀ e, (f e).id = e.id)
    (hkeep : ∀ e, (f e).businessProfileId = e.businessProfileId ∧ (f e).entryDate = e.entryDate)
    (hposted : ∀ e ∈ b.entries.rows, q e = true →
      p.contains e.businessProfileId e.entryDate → (f e).posted = e.posted) :
    postedLinesIn (updateEntries q f hf b) p = postedLinesIn b p := by
  refine List.filter_congr ?_
  intro l _
  unfold postedIn
  rw [updateEntries, Table.find_update]
  cases he : b.entries.find l.entryId with
  | none => rfl
  | some e =>
    rw [Option.map_some, Option.any_some, Option.any_some, onRows]
    split
    · next hq =>
      obtain ⟨hbp, hdate⟩ := hkeep e
      rw [hbp, hdate]
      by_cases hin : p.contains e.businessProfileId e.entryDate
      · rw [hposted e (Table.mem_of_find he) hq hin]
      · simp [hin]
    · rfl

lemma postedLinesIn_delete {entryId : Nat} {e : JournalEntry}
    (he : b.entries.find entryId = some e) (hposted : e.posted = false) :
    postedLinesIn { b with
      lines := deleteLines entryId b.lines
      entries := b.entries.delete entryId } p = postedLinesIn b p := by
  unfold postedLinesIn
  rw [deleteLines, List.filter_filter]
  refine List.filter_congr ?_
  intro l _
  by_cases hl : l.entryId = entryId
  · simp [postedIn, hl, he, hposted]
  · simp [postedIn, hl, Table.find_delete_of_ne hl]

/-- A request other than its reopening leaves a closed period and its posted lines alone. -/
lemma postedLinesIn_handle {r : LedgerRequest} {w : Written} (hI : PeriodInvariant b)
    (hp : b.periods.find p.id = some p) (hclosed : p.status = .closed)
    (hr : r ≠ .reopenAccountingPeriod p.id) (h : handle U b r = .ok w) :
    w.books.periods.find p.id = some p ∧ postedLinesIn w.books p = postedLinesIn b p := by
  have hmem := Table.mem_of_find hp
  cases r with
  | journalNew f default today =>
    obtain ⟨e, _, done, hinserted, _, _, hnot, _⟩ := journalNew_eq_ok h
    rw [hinserted.periods]
    exact ⟨hp, postedLinesIn_insert hI hinserted (hnot p hmem hclosed)⟩
  | journalApprove entryId =>
    obtain ⟨_, hb⟩ := journalApprove_eq_ok (written_eq_ok h)
    rw [hb]
    exact ⟨hp, postedLinesIn_updateEntries _ (fun _ => ⟨rfl, rfl⟩) (fun _ _ _ _ => rfl)⟩
  | journalPost entryId =>
    obtain ⟨e, he, hnone, _, hb⟩ := journalPost_eq_ok (written_eq_ok h)
    rw [hb]
    refine ⟨hp, postedLinesIn_updateEntries _ (fun _ => ⟨rfl, rfl⟩) ?_⟩
    intro q hq hid hin
    have hqe := Table.find_of_mem hq
    rw [of_decide_eq_true hid, he] at hqe
    cases hqe
    exact absurd hin (getClosedPeriod_eq_none (hI.profile e hq) hnone hmem hclosed)
  | journalReverse entryId date today reason =>
    obtain ⟨e, new, b₁, done, he, _, hinserted, hnot, _, _, _, hend⟩ := journalReverse_eq_ok h
    have hout := hnot (hI.profile e (Table.mem_of_find he)) p hmem hclosed
    have hkept : b₁.periods.find p.id = some p ∧ postedLinesIn b₁ p = postedLinesIn b p := by
      rw [hinserted.periods]
      exact ⟨hp, postedLinesIn_insert hI hinserted hout⟩
    rcases hend with ⟨_, hb⟩ | ⟨hb, _⟩
    · rw [hb, periods_updateEntries, postedLinesIn_updateEntries]
      · exact hkept
      · exact fun _ => ⟨rfl, rfl⟩
      · exact fun _ _ _ _ => rfl
    · rw [hb]
      exact hkept
  | journalDelete entryId =>
    obtain ⟨e, he, hposted, hb⟩ := journalDelete_eq_ok (written_eq_ok h)
    rw [hb]
    exact ⟨hp, postedLinesIn_delete he hposted⟩
  | closeAccountingPeriod f =>
    obtain ⟨q, b₁, hstored, _, _, hoverlap, _, hb⟩ := closeAccountingPeriod_eq_ok (written_eq_ok h)
    have hne : p.id ≠ q.id := by
      intro hid
      obtain ⟨hbp, hstart, hstop⟩ := hstored.before p (hid ▸ hp)
      refine hoverlap p hmem ⟨hbp, hclosed, ?_, ?_⟩
      · rw [← hstop]
        exact hI.range p hmem
      · rw [← hstart]
        exact hI.range p hmem
    rw [hb]
    constructor
    · rw [lockEntries, periods_updateEntries, hstored.others p.id hne]
      exact hp
    · rw [lockEntries, postedLinesIn_updateEntries]
      · unfold postedLinesIn postedIn
        rw [hstored.lines, hstored.entries]
      · exact fun _ => ⟨rfl, rfl⟩
      · exact fun _ _ _ _ => rfl
  | reopenAccountingPeriod periodId =>
    rw [reopenAccountingPeriod_eq_ok (written_eq_ok h)]
    have hne : p.id ≠ periodId := fun hid => hr (congrArg _ hid.symm)
    constructor
    · rw [unlockEntries, periods_updateEntries, find_updatePeriods, if_neg hne]
      exact hp
    · rw [unlockEntries, postedLinesIn_updateEntries]
      · rfl
      · exact fun _ => ⟨rfl, rfl⟩
      · exact fun _ _ _ _ => rfl

lemma postedLinesIn_run {rs : List LedgerRequest} (hI : PeriodInvariant b)
    (hp : b.periods.find p.id = some p) (hclosed : p.status = .closed)
    (h : GuardedRun (ledgerStep U) (fun _ r => r ≠ .reopenAccountingPeriod p.id) b rs b') :
    b'.periods.find p.id = some p ∧ postedLinesIn b' p = postedLinesIn b p := by
  have hall : PeriodInvariant b' ∧ b'.periods.find p.id = some p ∧
      postedLinesIn b' p = postedLinesIn b p := by
    refine h.invariant (I := fun c => PeriodInvariant c ∧ c.periods.find p.id = some p ∧
      postedLinesIn c p = postedLinesIn b p) ⟨hI, hp, rfl⟩ ?_
    rintro c r c' ⟨hIc, hpc, hlines⟩ hr hstep
    obtain ⟨w, hw, rfl⟩ := ledgerStep_eq_some.mp hstep
    obtain ⟨hpc', hlines'⟩ := postedLinesIn_handle hIc hpc hclosed hr hw
    exact ⟨periodInvariant_handle hIc hw, hpc', hlines'.trans hlines⟩
  exact hall.2

end Frame

/-- Closed periods of one profile are disjoint. As long as a period is not reopened it stays
closed with the same posted lines in it, and no entry in it is unposted. An entry is locked by
the closed period that contains its date and by no other. -/
theorem closed_periods_immutable (profiles : Keyed BusinessProfile.id)
    (accounts : Keyed Account.id) {rs : List LedgerRequest} {b : Books}
    (h : Run (ledgerStep U) (Books.fresh profiles accounts) rs b) :
    (∀ p ∈ b.periods.rows, ∀ q ∈ b.periods.rows, p.status = .closed → q.status = .closed →
      p.businessProfileId = q.businessProfileId → p ≠ q →
      p.endDate < q.startDate ∨ q.endDate < p.startDate) ∧
    (∀ p ∈ b.periods.rows, p.status = .closed →
      (∀ e ∈ b.entries.rows, p.contains e.businessProfileId e.entryDate → e.posted = true) ∧
      ∀ rs' b', GuardedRun (ledgerStep U) (fun _ r => r ≠ .reopenAccountingPeriod p.id) b rs' b' →
        b'.periods.find p.id = some p ∧ postedLinesIn b' p = postedLinesIn b p) ∧
    (∀ e ∈ b.entries.rows, ∀ k, (e.lockedPeriod = true ∧ e.lockedPeriodId = some k) ↔
      ∃ p, b.periods.find k = some p ∧ p.status = .closed ∧
        p.contains e.businessProfileId e.entryDate) := by
  have hI := periodInvariant_run h
  refine ⟨?_, ?_, hI.locked⟩
  · intro p hp q hq hpc hqc hbp hne
    refine hI.disjoint p hp q hq hpc hqc hbp ?_
    exact fun hid => hne (Table.eq_of_key_eq hp hq hid)
  · intro p hp hpc
    constructor
    · intro e he hin
      exact hI.posted e he p hp hpc hin
    · intro rs' b' hrun
      exact postedLinesIn_run hI (Table.find_of_mem hp) hpc hrun

def oneProfile : Keyed BusinessProfile.id := ⟨[⟨1, none, by decide⟩], List.pairwise_singleton _ _⟩

def cashAndRevenue : Keyed Account.id := ⟨[⟨1, .asset⟩, ⟨6, .revenue⟩], by simp⟩

/-- A sale on the given day; the two amounts are those of its lines. -/
def saleForm (date : Date) (debit credit : ℚ) : JournalForm where
  entryDate := some date
  memo := []
  businessProfileId := some 1
  currency := none
  accountIds := [some 1, some 6]
  debits := [debit]
  credits := [0, credit]
  descriptions := []

def saleThenClosed : List LedgerRequest :=
  [.journalNew (saleForm 10 100 100) none 10, .journalApprove 1, .journalPost 1,
    .closeAccountingPeriod ⟨some 1, some 1, some 31, "", "month"⟩]

/-- The sale is reversed after its month was closed, on a later day. -/
theorem closed_periods_immutable_reversal :
    ∃ b b', Run (ledgerStep asciiTable) (Books.fresh oneProfile cashAndRevenue) saleThenClosed b ∧
      ledgerStep asciiTable b (.journalReverse 1 (some 40) 40 []) = some b' ∧
      ∃ p ∈ b.periods.rows, p.status = .closed ∧ (postedLinesIn b p).length = 2 ∧
        postedLinesIn b' p = postedLinesIn b p := by
  obtain ⟨b, hrun, hb⟩ := exists_guardedRun_of_any (ledgerStep asciiTable) (fun _ _ => True)
    (Books.fresh oneProfile cashAndRevenue) saleThenClosed
    (fun b => (ledgerStep asciiTable b (.journalReverse 1 (some 40) 40 [])).isSome &&
      b.periods.rows.any (fun p => p.status = .closed ∧ (postedLinesIn b p).length = 2))
    (by decide +kernel)
  simp only [Bool.and_eq_true, List.any_eq_true, decide_eq_true_eq] at hb
  obtain ⟨hsome, p, hp, hclosed, hlines⟩ := hb
  obtain ⟨b', hstep⟩ := Option.isSome_iff_exists.mp hsome
  have hkept := ((closed_periods_immutable _ _ hrun).2.1 p hp hclosed).2
  have hnext : GuardedRun (ledgerStep asciiTable)
      (fun _ r => r ≠ .reopenAccountingPeriod p.id) b [.journalReverse 1 (some 40) 40 []] b' :=
    .snoc (.nil b) (by simp) hstep
  exact ⟨b, b', hrun, hstep, p, hp, hclosed, hlines, (hkept _ b' hnext).2⟩

end IpDocket.Accounting
