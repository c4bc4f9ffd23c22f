import IpDocket.Billing.RetainerBooks

/-!
# Retainers without outdated reads

A cancellation is preceded by a look for an earlier one, and an application by a look at what
is outstanding, with nothing locked in between. While no such read is outdated at the commit
that relies on it, every application is cancelled at most once and no more is applied to an
invoice than its total.
-/

namespace IpDocket.Billing
open IpDocket.Lib

section Guard

variable (U : UpperTable)

/-- The next statement of the request relies on no outdated read. At its commit nobody has
committed a cancellation of what it cancels since it looked for one, and what has happened
to the invoice since its applications were summed up has not lowered what is outstanding.
When it reads the balance of the profile, the balance is not negative. -/
def freshReads (s : ProgramState) (r : Request) : Bool :=
  match r.task with
  | .applyProfile inv _ _ _ _ => 0 ≤ bucketSum (inv.profileBucket U) s.committed
  | .running read [] =>
    read.all (fun p => 0 ≤ invoiceSum (s.committed.drop p.seen) p.invoiceId) &&
      r.tx.entries.all (fun e => e.entryType = .cancelApply → ∀ k ∈ e.relatedEntryId,
        isCanceled (s.committed.drop (r.alreadyAt k)) k = false)
  | _ => true

def commitsFreshReads (s : ProgramState) : ProgramAction → Bool
  | .next i => (s.requests[i]?).all (fun r => r.tx.phase = .idle → freshReads U s r = true)
  | _ => true

end Guard

section Calls

variable {U : UpperTable} {b : Books} {r : Request} {c : EntryCall} {next : CallPhase}

/-- The call moves on, and with it nothing but the phase. -/
lemma RequestOk.phase (h : RequestOk U b r) (hcall : r.tx.phase.call = some c)
    (hnext : next.call = some c)
    (hnamed : next.named = some c → ∀ id, truthy c.relatedInvoiceId = some id →
      id < b.invoices.next)
    (hpassed : ∀ d, next.passed = some d → r.tx.phase.passed = some d) :
    RequestOk U b { r with tx := { r.tx with phase := next } } := by
  obtain ⟨read, todo, htask, hrun⟩ := h.running hcall
  have hnamed' : ∀ d, next.named = some d → d = c := by
    intro d hd
    cases next with
    | idle => cases hd
    | validated _ => cases hd
    | _ => exact Option.some.inj (hd.symm.trans hnext)
  refine ⟨h.once, h.found, fun d hd => h.passed d (hpassed d hd), h.named, ?_, ?_, ?_⟩
  · intro d hd
    have hdc := hnamed' d hd
    subst hdc
    exact hnamed hd
  · intro d hd
    have hdc : d = c := Option.some.inj (hd.symm.trans hnext)
    rw [hdc]
    exact h.valid c hcall
  · rw [htask]
    exact hrun.mono (fun id => Int.le_of_eq (Transaction.mayApply_phase (hnext.trans hcall.symm)))

/-- A check that fails ends the call; otherwise the call moves on. -/
lemma RequestOk.check {res : Except String Unit} (h : RequestOk U b r)
    (hcall : r.tx.phase.call = some c) (hne : next ≠ .idle)
    (hok : res = .ok () → RequestOk U b { r with tx := { r.tx with phase := next } }) :
    RequestOk U b (if next.after res = .idle
      then { r with tx := { r.tx with phase := next.after res } }.abort
      else { r with tx := { r.tx with phase := next.after res } }) := by
  cases res with
  | ok u =>
    rw [CallPhase.after, if_neg hne]
    exact hok rfl
  | error text =>
    rw [CallPhase.after, if_pos rfl]
    obtain ⟨read, todo, htask, hrun⟩ := h.running hcall
    exact h.abort hrun htask

/-- The call is past the look for an earlier cancellation, with the rows that were visible. -/
lemma RequestOk.selectAlready {seen : Nat} (h : RequestOk U b r)
    (hphase : r.tx.phase = .relatedChecked c) (hseen : seen = b.entries.length)
    (hcheck : checkAlready c (visibleEntries b.entries r.tx) = .ok ()) :
    RequestOk U b { r with
      tx := { r.tx with phase := .alreadyChecked c }, alreadyAt := r.noteAlready seen } := by
  have hcall : r.tx.phase.call = some c := by rw [hphase]; rfl
  have hnone : ∀ k, c.cancels k = true →
      isCanceled b.entries k = false ∧ isCanceled r.tx.entries k = false := by
    intro k hk
    obtain ⟨htype, htarget⟩ := of_decide_eq_true hk
    have hvisible := of_decide_eq_true (check_eq_ok.mp hcheck) htype k htarget
    simp only [visibleEntries, isCanceled, List.any_append, Bool.or_eq_false_iff] at hvisible
    exact hvisible
  have hnote : ∀ k, c.cancels k = true → FoundOpen b { r with
      tx := { r.tx with phase := .alreadyChecked c }, alreadyAt := r.noteAlready seen } k := by
    intro k hk
    have hat : r.noteAlready seen k = b.entries.length := by
      rw [Request.noteAlready, hphase, ← hseen]
      exact if_pos hk
    refine ⟨Nat.le_of_eq hat, ?_⟩
    simp only [hat, List.take_length]
    exact (hnone k hk).1
  obtain ⟨read, todo, htask, hrun⟩ := h.running hcall
  refine ⟨h.once, ?_, ?_, h.named, ?_, ?_, ?_⟩
  · intro k hk
    by_cases hc : c.cancels k = true
    · exact hnote k hc
    · have hat : r.noteAlready seen k = r.alreadyAt k := by
        rw [Request.noteAlready, hphase]
        exact if_neg hc
      change r.noteAlready seen k ≤ _ ∧ isCanceled (b.entries.take (r.noteAlready seen k)) k = false
      rw [hat]
      exact h.found k hk
  · intro d hd k hk
    cases hd
    exact ⟨(hnone k hk).2, hnote k hk⟩
  · intro d hd
    cases hd
    exact h.callNamed c (by rw [hphase]; rfl)
  · intro d hd
    cases hd
    exact h.valid c hcall
  · rw [htask]
    exact hrun.mono (fun id => Int.le_of_eq (Transaction.mayApply_phase hcall.symm))

/-- The inserted entry. -/
lemma RequestOk.insert {seen n : Nat} (h : RequestOk U b r)
    (hphase : r.tx.phase = .balanceChecked c seen) :
    RequestOk U b { r with tx :=
      { r.tx with own := r.tx.own ++ [⟨c.toEntry U n, seen⟩], phase := .idle } } := by
  have hcall : r.tx.phase.call = some c := by rw [hphase]; rfl
  have hpassed : r.tx.phase.passed = some c := by rw [hphase]; rfl
  obtain ⟨read, todo, htask, hrun⟩ := h.running hcall
  have hentries : ({ r.tx with own := r.tx.own ++ [⟨c.toEntry U n, seen⟩], phase := .idle } :
      Transaction).entries = r.tx.entries ++ [c.toEntry U n] := by
    rw [Transaction.entries, List.map_append]
    rfl
  have hcancels : ∀ k, (c.toEntry U n).relatedEntryId = some k ∧
      (c.toEntry U n).entryType = .cancelApply ↔ c.cancels k = true := by
    intro k
    rw [EntryCall.cancels, decide_eq_true_eq, and_comm]
    exact Iff.rfl
  refine ⟨?_, ?_, fun d hd => (by cases hd), ?_, fun d hd => (by cases hd),
    fun d hd => (by cases hd), ?_⟩
  · intro k
    rw [hentries, cancellations_append]
    by_cases hk : c.cancels k = true
    · have hnone := isCanceled_eq_false.mp (h.passed c hpassed k hk).1
      rw [hnone, List.nil_append]
      exact List.length_filter_le _ _
    · have hnone : cancellations [c.toEntry U n] k = [] := by
        rw [cancellations, List.filter_eq_nil_iff]
        intro e he
        rw [List.mem_singleton.mp he, decide_eq_true_eq, hcancels]
        exact hk
      rw [hnone, List.append_nil]
      exact h.once k
  · intro k hk
    rw [hentries, isCanceled_append, Bool.or_eq_true, decide_eq_true_eq, hcancels] at hk
    rcases hk with hold | hnew
    · exact h.found k hold
    · exact (h.passed c hpassed k hnew).2
  · intro e he id hid
    rw [hentries] at he
    rcases List.mem_append.mp he with hold | hnew
    · exact h.named e hold id hid
    · rw [List.mem_singleton.mp hnew] at hid
      exact h.callNamed c (by rw [hphase]; rfl) id hid
  · rw [htask]
    exact hrun.mono (fun id => Transaction.mayApply_insert_le hphase (h.valid c hcall))

lemma lt_next_of_checkInvoice {invoices : Table Invoice.id} {id : Nat}
    (h : checkInvoice U c ((truthy c.relatedInvoiceId).bind invoices.find) = .ok ())
    (hid : truthy c.relatedInvoiceId = some id) : id < invoices.next := by
  unfold checkInvoice at h
  rw [hid, Option.bind_some] at h
  cases hfind : invoices.find id with
  | none =>
    rw [hfind] at h
    cases h
  | some inv => exact Table.find_lt_next hfind

end Calls

section Steps

variable {U : UpperTable} {s s' : ProgramState} {r r' : Request} {c : EntryCall}

lemma run_next (ws : List InvoiceWrite) (invoices : Table Invoice.id) :
    (ws.foldl InvoiceWrite.run invoices).next = invoices.next := by
  induction ws generalizing invoices with
  | nil => rfl
  | cons w ws ih =>
    rw [List.foldl_cons, ih]
    cases w <;> rfl

/-- A statement of the call in progress. -/
lemma callStep_ok {a : TransactionAction} (h : RequestOk U s.books r)
    (ha : r.tx.phase.statement (r.writes.foldl InvoiceWrite.run s.invoices) = some a)
    (hstep : callStep U s r a = some (s', r')) :
    s'.books = s.books ∧ RequestOk U s.books r' := by
  unfold callStep at hstep
  split at hstep
  · cases hstep
  · next l t htx =>
    cases hstep
    refine ⟨rfl, ?_⟩
    cases hphase : r.tx.phase with
    | idle =>
      rw [hphase] at ha
      cases ha
    | validated c =>
      have hcall : r.tx.phase.call = some c := by rw [hphase]; rfl
      rw [hphase] at ha
      cases ha
      rw [transactionStep, hphase] at htx
      cases htx
      apply h.check hcall (by simp)
      intro hres
      apply h.phase hcall rfl _ (fun d hd => by cases hd)
      intro _ id hid
      have hlt := lt_next_of_checkInvoice hres hid
      rw [run_next] at hlt
      exact hlt
    | invoiceChecked c =>
      have hcall : r.tx.phase.call = some c := by rw [hphase]; rfl
      rw [hphase] at ha
      cases ha
      rw [transactionStep, hphase] at htx
      cases htx
      apply h.check hcall (by simp)
      intro _
      exact h.phase hcall rfl (fun _ => h.callNamed c (by rw [hphase]; rfl)) (fun d hd => by cases hd)
    | relatedChecked c =>
      have hcall : r.tx.phase.call = some c := by rw [hphase]; rfl
      rw [hphase] at ha
      cases ha
      rw [transactionStep, hphase] at htx
      cases htx
      cases hres : checkAlready c (visibleEntries s.committed r.tx) with
      | error text =>
        obtain ⟨read, todo, htask, hrun⟩ := h.running hcall
        simp only [Request.afterCall, ProgramState.ledger, hres, CallPhase.after, if_true]
        exact h.abort hrun htask
      | ok u =>
        simp only [Request.afterCall, ProgramState.ledger, hres, CallPhase.after, reduceCtorEq,
          if_false]
        exact h.selectAlready hphase rfl hres
    | alreadyChecked c =>
      have hcall : r.tx.phase.call = some c := by rw [hphase]; rfl
      rw [hphase] at ha
      cases ha
      rw [transactionStep, hphase] at htx
      cases htx
      apply h.check hcall (by simp)
      intro _
      apply h.phase hcall rfl (fun _ => h.callNamed c (by rw [hphase]; rfl))
      intro d hd
      rw [hphase]
      exact hd
    | balanceChecked c seen =>
      rw [hphase] at ha
      cases ha
      rw [transactionStep, hphase] at htx
      cases htx
      exact h.insert hphase

/-- The statements a statement leads to apply nothing. -/
lemma Statement.run_appliesTo {entries : List LedgerEntry} {invoices : Table Invoice.id}
    {st : Statement} {effect : Effect} (h : st.run U entries invoices = .ok effect) (id : Nat) :
    ((effect.next ++ effect.last).map (Statement.appliesTo id)).sum = 0 := by
  have hcancel : ∀ c : EntryCall, c.entryType = .cancelApply → c.appliesTo id = 0 := by
    intro c hc
    simp [EntryCall.appliesTo, hc]
  cases st with
  | cancelInvoice invoiceId entryId =>
    obtain ⟨inv, -, heq⟩ := bind_eq_ok.mp h
    cases heq
    rfl
  | cancelTarget inv entryId =>
    rw [Statement.run] at h
    split at h
    · cases h
    · next a _ =>
      obtain ⟨-, heq⟩ := check_bind_eq_ok.mp h
      cases heq
      have := hcancel (cancelApplyCall U inv a entryId) rfl
      simp [Statement.appliesTo, this]
  | cancelSum inv =>
    cases h
    rfl
  | voidInvoice invoiceId =>
    obtain ⟨inv, -, hrest⟩ := bind_eq_ok.mp h
    obtain ⟨-, heq⟩ := check_bind_eq_ok.mp hrest
    cases heq
    rfl
  | bulkVoidInvoice invoiceId =>
    rw [Statement.run] at h
    split at h
    · cases h
      rfl
    · split at h
      · cases h
        rfl
      · cases h
        rfl
  | deleteInvoice invoiceId skipMissing =>
    rw [Statement.run] at h
    split at h
    · split at h
      · cases h
        rfl
      · cases h
    · obtain ⟨-, -, heq⟩ := bind_eq_ok.mp h
      cases heq
      rfl
  | selectApplies invoiceId =>
    cases h
    rw [List.append_nil, List.map_map]
    apply List.sum_eq_zero
    intro x hx
    obtain ⟨c, hc, rfl⟩ := List.mem_map.mp hx
    obtain ⟨a, -, rfl⟩ := List.mem_map.mp hc
    exact hcancel (cancelCall U invoiceId a) rfl
  | write w =>
    cases h
    rfl
  | call c =>
    cases h
    rfl
  | resume =>
    cases h
    rfl

/-- The tasks that requests start with. -/
lemma ProgramRequest.start_ok {b : Books} {q : ProgramRequest} {task : Task}
    (h : q.start U = .ok task) : TaskOk b {} task := by
  have hzero : ∀ todo : List Statement, (∀ id, ∀ st ∈ todo, st.appliesTo id = 0) →
      TaskOk b {} (.running none todo) := by
    intro todo htodo id
    have hsum : (todo.map (Statement.appliesTo id)).sum = 0 := by
      apply List.sum_eq_zero
      intro x hx
      obtain ⟨st, hst, rfl⟩ := List.mem_map.mp hx
      exact htodo id st hst
    simp [Transaction.mayApply, hsum, Transaction.entries, invoiceSum]
  have hcall : ∀ c : EntryCall, c.entryType ≠ .apply → TaskOk b {} (.running none [.call c]) := by
    intro c hc
    apply hzero
    intro id st hst
    rw [List.mem_singleton.mp hst]
    simp [Statement.appliesTo, EntryCall.appliesTo, hc]
  cases q with
  | applyDeposit invoiceId amount =>
    cases h
    rfl
  | cancelDepositApply invoiceId entryId =>
    cases h
    exact hzero _ (fun id st hst => by rw [List.mem_singleton.mp hst]; rfl)
  | voidInvoice invoiceId =>
    cases h
    exact hzero _ (fun id st hst => by rw [List.mem_singleton.mp hst]; rfl)
  | bulkVoidInvoices ids =>
    cases h
    apply hzero
    intro id st hst
    obtain ⟨k, -, rfl⟩ := List.mem_map.mp hst
    rfl
  | deleteInvoices ids skipMissing =>
    cases h
    apply hzero
    intro id st hst
    obtain ⟨k, -, rfl⟩ := List.mem_map.mp hst
    rfl
  | topup bp clientId currency amount =>
    obtain ⟨-, heq⟩ := check_bind_eq_ok.mp h
    cases heq
    exact hcall _ (by simp [depositCall])
  | refund bp clientId currency amount =>
    obtain ⟨-, heq⟩ := check_bind_eq_ok.mp h
    cases heq
    exact hcall _ (by simp [depositCall])
  | adjust bp clientId currency amount =>
    obtain ⟨-, heq⟩ := check_bind_eq_ok.mp h
    cases heq
    exact hcall _ (by simp [depositCall])

end Steps

/-! ### The reads of `apply_deposit` -/

section Reads

variable {U : UpperTable} {s s' : ProgramState} {b : Books} {r r' : Request} {inv : Invoice}
  {amount : AmountField}

lemma requestedDeposit_le {sumMinor : Int} {p : Int × Int}
    (h : requestedDeposit sumMinor inv amount = .ok p) :
    max 0 (-sumMinor) + p.1 ≤ inv.totalMinor ∧ p.2 ≤ p.1 := by
  obtain ⟨hpos, hrest⟩ := check_bind_eq_ok.mp h
  obtain ⟨req, -, hrest⟩ := bind_eq_ok.mp hrest
  obtain ⟨-, heq⟩ := check_bind_eq_ok.mp hrest
  cases heq
  have hpos := of_decide_eq_true hpos
  constructor
  · simp only
    omega
  · exact min_le_right _ _

/-- From a balance that is not negative no more is taken than is requested. -/
lemma splitDeposit_le {outstanding req balBp balGlobal : Int} {plan : DepositPlan}
    (hbal : 0 ≤ balBp) (h : splitDeposit amount outstanding req balBp balGlobal = .ok plan) :
    max 0 plan.useBp + max 0 plan.useGlobal ≤ req := by
  obtain ⟨-, hrest⟩ := check_bind_eq_ok.mp h
  obtain ⟨hpos, hrest⟩ := check_bind_eq_ok.mp hrest
  obtain ⟨-, heq⟩ := check_bind_eq_ok.mp hrest
  cases heq
  have hpos := of_decide_eq_true hpos
  simp only
  split at hpos <;> omega

lemma mayApply_applyStatements (U : UpperTable) (inv : Invoice) (plan : DepositPlan) (id : Nat) :
    ({} : Transaction).mayApply (applyStatements U inv plan) id ≤
      if id = inv.id then max 0 plan.useBp + max 0 plan.useGlobal else 0 := by
  have hcall : ∀ bp clientId currency use,
      (applyCall bp clientId currency use inv.id).appliesTo id ≤
        if id = inv.id then max 0 use else 0 := by
    intro bp clientId currency use
    unfold EntryCall.appliesTo
    split
    · next h =>
      have hid := (truthy_eq_some.mp h.2).1
      rw [if_pos (Option.some.inj hid).symm]
      simp [applyCall]
    · split <;> omega
  have hcalls : ∀ bp clientId currency use,
      ((if 0 < use then [Statement.call (applyCall bp clientId currency use inv.id)] else []).map
        (Statement.appliesTo id)).sum ≤ if id = inv.id then max 0 use else 0 := by
    intro bp clientId currency use
    split
    · simpa [Statement.appliesTo] using hcall bp clientId currency use
    · simp only [List.map_nil, List.sum_nil]
      split <;> omega
  have hbp := hcalls (some (profileOrDefault inv.businessProfileId)) inv.clientId
    (inv.depositCurrency U) plan.useBp
  have hglobal := hcalls none inv.clientId (inv.depositCurrency U) plan.useGlobal
  simp only [Transaction.mayApply, CallPhase.call_idle, Option.elim_none, applyStatements,
    List.map_append, List.sum_append, List.map_cons, List.map_nil, Statement.appliesTo,
    List.sum_cons, List.sum_nil]
  have hnone : invoiceSum ({} : Transaction).entries id = 0 := rfl
  rw [hnone]
  by_cases hid : id = inv.id
  · rw [if_pos hid] at hbp hglobal ⊢
    omega
  · rw [if_neg hid] at hbp hglobal ⊢
    omega

/-- A read that fails ends the request. -/
lemma requestOk_onRead {res : Except String Task} (htx : r.tx = {})
    (h : ∀ task, res = .ok task → TaskOk b {} task) : RequestOk U b (r.onRead res) := by
  cases res with
  | error text => exact requestOk_ended
  | ok task =>
    obtain ⟨task', tx, writes, alreadyAt⟩ := r
    cases htx
    exact requestOk_of_new (h task rfl)

/-- The own writes of a request leave the total of the invoice it reads alone. -/
lemma rowOk_of_select {ws : List InvoiceWrite} {id : Nat} (hb : BooksOk b)
    (h : selectInvoice (ws.foldl InvoiceWrite.run b.invoices) id = .ok inv) : RowOk b inv := by
  unfold selectInvoice at h
  split at h
  · next row hfind =>
    cases h
    have hmem := Table.mem_of_find hfind
    have hlt := (ws.foldl InvoiceWrite.run b.invoices).fresh inv hmem
    rw [run_next] at hlt
    obtain ⟨old, hold, hid, htotal⟩ := (books_writes hb ws).2.totals inv hmem hlt
    refine ⟨hlt, ?_⟩
    intro other hother heq
    rw [Table.eq_of_key_eq hother hold (heq.trans hid.symm), htotal]
  · cases h

/-- The request without the statement it is about to run. -/
lemma RequestOk.tail {read : Option SumRead} {st : Statement} {todo : List Statement}
    (h : RequestOk U b r) (hphase : r.tx.phase = .idle)
    (hrun : RunningOk b read (r.tx.mayApply (st :: todo))) :
    RequestOk U b { r with task := .running read todo } := by
  have hdrop := h.drop hrun (List.suffix_cons st todo)
  simp only [← hphase] at hdrop
  exact hdrop

/-- The first statement of a call. -/
lemma callStep_call {read : Option SumRead} {c : EntryCall} {todo : List Statement}
    (hphase : r.tx.phase = .idle) (h : RequestOk U s.books r)
    (hrun : RunningOk s.books read (r.tx.mayApply (.call c :: todo)))
    (hstep : callStep U s { r with task := .running read todo } (.call c) = some (s', r')) :
    s'.books = s.books ∧ RequestOk U s.books r' := by
  have hrest := h.tail hphase hrun
  unfold callStep at hstep
  split at hstep
  · cases hstep
  · next l t htx =>
    cases hstep
    refine ⟨rfl, ?_⟩
    rw [transactionStep] at htx
    split at htx
    · cases htx
      cases hres : validateEntry U c with
      | error text =>
        simp only [Request.afterCall, CallPhase.after, if_true]
        exact hrest.abort hrest.task rfl
      | ok u =>
        simp only [Request.afterCall, CallPhase.after, reduceCtorEq, if_false]
        refine ⟨hrest.once, hrest.found, fun d hd => (by cases hd), hrest.named,
          fun d hd => (by cases hd), ?_, ?_⟩
        · intro d hd
          cases hd
          exact hres
        · apply RunningOk.mono hrun
          intro id
          simp only [Transaction.mayApply, hphase, CallPhase.call, Option.elim_none,
            Option.elim_some, List.map_cons, List.sum_cons, Statement.appliesTo,
            Transaction.entries]
          omega
    · cases htx

lemma taskStep_ok (hb : BooksOk s.books) (h : RequestOk U s.books r) (hphase : r.tx.phase = .idle)
    (hfresh : freshReads U s r = true) (hcommit : ∀ read, r.task ≠ .running read [])
    (hstep : taskStep U s r = some (s', r')) : s'.books = s.books ∧ RequestOk U s.books r' := by
  have htask := h.task
  unfold taskStep at hstep
  split at hstep
  · next invoiceId amount hr =>
    cases hstep
    rw [hr] at htask
    refine ⟨rfl, requestOk_onRead htask ?_⟩
    intro task hok
    obtain ⟨inv, hsel, hrest⟩ := bind_eq_ok.mp hok
    obtain ⟨-, -, heq⟩ := bind_eq_ok.mp hrest
    cases heq
    exact ⟨rfl, rowOk_of_select hb hsel⟩
  · next inv amount hr =>
    cases hstep
    rw [hr] at htask
    refine ⟨rfl, requestOk_onRead htask.1 ?_⟩
    intro task hok
    obtain ⟨p, hreq, heq⟩ := bind_eq_ok.mp hok
    cases heq
    obtain ⟨hcovered, hle⟩ := requestedDeposit_le hreq
    have hvisible : visibleEntries s.committed r.tx = s.committed.take s.committed.length := by
      rw [htask.1, List.take_length]
      exact List.append_nil _
    refine ⟨rfl, ⟨Nat.le_refl _, htask.2.id_lt, ?_⟩, hle⟩
    intro row hrow hid
    rw [hvisible] at hcovered
    rw [htask.2.total row hrow hid]
    exact hcovered
  · next inv amount outstanding req seen hr =>
    cases hstep
    rw [hr] at htask
    obtain ⟨htx, hout, hle⟩ := htask
    refine ⟨rfl, requestOk_onRead htx ?_⟩
    intro task hok
    obtain ⟨bal, hbal, heq⟩ := bind_eq_ok.mp hok
    cases heq
    obtain ⟨-, hbal⟩ := check_bind_eq_ok.mp hbal
    cases hbal
    refine ⟨rfl, hout, hle, ?_⟩
    simp only [freshReads, hr, decide_eq_true_eq] at hfresh
    rw [htx, visibleEntries]
    simpa [Transaction.entries, Invoice.profileBucket] using hfresh
  · next inv amount outstanding req balBp seen hr =>
    cases hstep
    rw [hr] at htask
    obtain ⟨htx, hout, hle, hbal⟩ := htask
    refine ⟨rfl, requestOk_onRead htx ?_⟩
    intro task hok
    obtain ⟨balGlobal, -, hrest⟩ := bind_eq_ok.mp hok
    obtain ⟨plan, hplan, heq⟩ := bind_eq_ok.mp hrest
    cases heq
    have hsplit := splitDeposit_le hbal hplan
    constructor
    · intro id hne
      have hmay := mayApply_applyStatements U inv plan id
      rw [if_neg hne] at hmay
      exact hmay
    · apply hout.mono
      have hmay := mayApply_applyStatements U inv plan inv.id
      rw [if_pos rfl] at hmay
      exact hmay.trans (hsplit.trans hle)
  · next read hr => exact absurd hr (hcommit read)
  · next read c todo hr =>
    rw [hr] at htask
    exact callStep_call hphase h htask hstep
  · next read st todo _ hr =>
    rw [hr] at htask
    have hrest := h.tail hphase htask
    dsimp only at hstep
    split at hstep
    · next effect hrun =>
      cases hstep
      refine ⟨rfl, hrest.once, hrest.found, hrest.passed, hrest.named, hrest.callNamed,
        hrest.valid, ?_⟩
      have hzero := Statement.run_appliesTo hrun
      apply RunningOk.mono hrest.task
      intro id
      have hid := hzero id
      simp only [List.map_append, List.sum_append] at hid
      simp only [Transaction.mayApply, List.map_append, List.sum_append]
      omega
    · cases hstep
      have habort := hrest.abort hrest.task rfl
      simp only [← hphase] at habort
      exact ⟨rfl, habort⟩
  · cases hstep

end Reads

section Commits

variable {U : UpperTable} {s s' : ProgramState} {r r' : Request} {read : Option SumRead}

/-- With the reads not outdated, the entries of the transaction fit the committed ones. -/
lemma BooksOk.append (hb : BooksOk s.books) (h : RequestOk U s.books r)
    (hphase : r.tx.phase = .idle) (hr : r.task = .running read [])
    (hfresh : freshReads U s r = true) :
    BooksOk ⟨s.committed ++ r.tx.entries, s.invoices⟩ := by
  simp only [freshReads, hr, Bool.and_eq_true, List.all_eq_true, decide_eq_true_eq] at hfresh
  obtain ⟨hsum, hcancels⟩ := hfresh
  have hrun := h.task
  rw [hr] at hrun
  have hmay : ∀ id, r.tx.mayApply [] id = -invoiceSum r.tx.entries id := by
    intro id
    simp [Transaction.mayApply, hphase]
  constructor
  · intro k
    rw [cancellations_append, List.length_append]
    by_cases hk : isCanceled r.tx.entries k = true
    · obtain ⟨-, hopen⟩ := h.found k hk
      obtain ⟨e, he, htarget, htype⟩ := isCanceled_iff.mp hk
      have hsince := hcancels e he htype k htarget
      have hnone : isCanceled s.committed k = false := by
        rw [isCanceled_split (r.alreadyAt k), Bool.or_eq_false_iff]
        exact ⟨hopen, hsince⟩
      rw [isCanceled_eq_false.mp hnone, List.length_nil, Nat.zero_add]
      exact h.once k
    · have hnone := isCanceled_eq_false.mp (Bool.eq_false_iff.mpr hk)
      rw [hnone, List.length_nil, Nat.add_zero]
      exact hb.once k
  · intro inv hinv
    have hwithin := hb.within inv hinv
    simp only [ProgramState.books] at hwithin ⊢
    rw [invoiceSum_concat]
    cases read with
    | none =>
      have := hrun inv.id
      rw [hmay] at this
      omega
    | some p =>
      obtain ⟨hothers, hread⟩ := hrun
      by_cases hid : inv.id = p.invoiceId
      · have hcovered := hread.covered inv hinv hid
        have hsince : 0 ≤ invoiceSum (s.committed.drop p.seen) p.invoiceId := by
          simpa using hsum
        have hsplit : invoiceSum s.committed p.invoiceId =
            invoiceSum (s.committed.take p.seen) p.invoiceId +
              invoiceSum (s.committed.drop p.seen) p.invoiceId := by
          rw [← invoiceSum_concat, List.take_append_drop]
        rw [hmay] at hcovered
        simp only [ProgramState.books] at hcovered
        rw [hid]
        omega
      · have := hothers inv.id hid
        rw [hmay] at this
        omega
  · intro e he id hid
    rcases List.mem_append.mp he with hold | hnew
    · exact hb.named e hold id hid
    · exact h.named e hnew id hid

lemma commitStep_ok (hb : BooksOk s.books) (h : RequestOk U s.books r)
    (hphase : r.tx.phase = .idle) (hr : r.task = .running read [])
    (hfresh : freshReads U s r = true) (hstep : commitStep U s r = some (s', r')) :
    BooksOk s'.books ∧ Follows s.books s'.books ∧ RequestOk U s'.books r' := by
  unfold commitStep at hstep
  split at hstep
  · cases hstep
  · next l t htx =>
    split at hstep
    · cases hstep
      exact ⟨hb, .refl _, requestOk_ended⟩
    · next haborted =>
      cases hstep
      rw [transactionStep, if_pos hphase, if_neg haborted] at htx
      cases htx
      obtain ⟨hok, hfollows⟩ := books_writes (hb.append h hphase hr hfresh) r.writes
      exact ⟨hok, (Follows.append s.books r.tx.entries).trans hfollows, requestOk_ended⟩

lemma requestNext_ok (hb : BooksOk s.books) (h : RequestOk U s.books r)
    (hfresh : r.tx.phase = .idle → freshReads U s r = true)
    (hstep : requestNext U s r = some (s', r')) :
    BooksOk s'.books ∧ Follows s.books s'.books ∧ RequestOk U s'.books r' := by
  have hsame : s'.books = s.books ∧ RequestOk U s.books r' →
      BooksOk s'.books ∧ Follows s.books s'.books ∧ RequestOk U s'.books r' := by
    rintro ⟨hbooks, hok⟩
    rw [hbooks]
    exact ⟨hb, .refl _, hok⟩
  unfold requestNext at hstep
  split at hstep
  · next a ha => exact hsame (callStep_ok h ha hstep)
  · next ha =>
    have hphase : r.tx.phase = .idle := by
      cases hp : r.tx.phase with
      | idle => rfl
      | _ =>
        rw [hp] at ha
        cases ha
    by_cases hcommit : ∃ read, r.task = .running read []
    · obtain ⟨read, hr⟩ := hcommit
      simp only [taskStep, hr] at hstep
      exact commitStep_ok hb h hphase hr (hfresh hphase) hstep
    · apply hsame
      exact taskStep_ok hb h hphase (hfresh hphase) (fun read hr => hcommit ⟨read, hr⟩) hstep

end Commits

structure ProgramInvariant (U : UpperTable) (s : ProgramState) : Prop where
  books : BooksOk s.books
  requests : ∀ r ∈ s.requests, RequestOk U s.books r

section Runs

variable {U : UpperTable} {s s' : ProgramState}

/-- The state after a request has moved to `r'`. -/
lemma ProgramInvariant.set {r' : Request} (h : ProgramInvariant U s) (hb : BooksOk s'.books)
    (hfollows : Follows s.books s'.books) (hr : RequestOk U s'.books r') (i : Nat) :
    ProgramInvariant U { s' with requests := s.requests.set i r' } := by
  refine ⟨hb, ?_⟩
  intro r hmem
  rcases List.mem_or_eq_of_mem_set hmem with hold | rfl
  · exact (h.requests r hold).follows hfollows
  · exact hr

lemma ProgramInvariant.step (h : ProgramInvariant U s) (a : ProgramAction)
    (hfresh : commitsFreshReads U s a = true) (hstep : programStep U s a = some s') :
    ProgramInvariant U s' := by
  cases a with
  | request q =>
    rw [programStep] at hstep
    split at hstep
    · next task hstart =>
      cases hstep
      refine ⟨h.books, ?_⟩
      intro r hr
      rcases List.mem_append.mp hr with hold | hnew
      · exact h.requests r hold
      · rw [List.mem_singleton.mp hnew]
        exact requestOk_of_new (ProgramRequest.start_ok hstart)
    · cases hstep
      exact h
  | next i =>
    rw [programStep] at hstep
    split at hstep
    · cases hstep
    · next r hr =>
      split at hstep
      · cases hstep
      · next s₁ r₁ hnext =>
        cases hstep
        have hreads : r.tx.phase = .idle → freshReads U s r = true := by
          simpa only [commitsFreshReads, hr, Option.all_some, decide_eq_true_eq] using hfresh
        obtain ⟨hb, hfollows, hok⟩ :=
          requestNext_ok h.books (h.requests r (List.mem_of_getElem? hr)) hreads hnext
        exact h.set hb hfollows hok i
  | insertError i =>
    rw [programStep] at hstep
    split at hstep
    · cases hstep
    · split at hstep
      · cases hstep
      · next l _ _ =>
        cases hstep
        exact @ProgramInvariant.set U s { s with nextId := l.nextId } _ h h.books (.refl _)
          requestOk_ended i
  | disconnect i =>
    cases hstep
    exact h.set h.books (.refl _) requestOk_ended i
  | createInvoice form =>
    cases hstep
    obtain ⟨hb, hfollows⟩ :=
      @books_insert _ h.books (form.toInvoice form.statusCode) (fun _ => rfl)
    exact ⟨hb, fun r hr => (h.requests r hr).follows hfollows⟩
  | statusColumns invoiceId billing payment verified =>
    cases hstep
    obtain ⟨hb, hfollows⟩ := books_write h.books (.status invoiceId billing payment verified)
    exact ⟨hb, fun r hr => (h.requests r hr).follows hfollows⟩

/-- In every run whose commits rely on no outdated read, no entry has two cancellations and
no invoice has more applied to it than its total. -/
theorem retainer_cancelled_once {as : List ProgramAction}
    (h : GuardedRun (programStep U) (fun s a => commitsFreshReads U s a = true) .initial as s) :
    (∀ k, (cancellations s.committed k).length ≤ 1) ∧
      ∀ inv ∈ s.invoices.rows, -invoiceSum s.committed inv.id ≤ max 0 inv.totalMinor := by
  have hinv : ProgramInvariant U s := by
    apply h.invariant
    · refine ⟨⟨fun _ => Nat.zero_le 1, ?_, ?_⟩, ?_⟩
      · intro inv hinv
        cases hinv
      · intro e he
        cases he
      · intro r hr
        cases hr
    · intro t a u ht hfresh hstep
      exact ht.step a hfresh hstep
  exact ⟨hinv.books.once, hinv.books.within⟩

end Runs

/-- The next statements of a request. -/
def nextStatements (i n : Nat) : List ProgramAction := List.replicate n (.next i)

/-- An invoice of client 7 and business profile 1. -/
def createInvoiceOf (total : Int) : ProgramAction :=
  .createInvoice ⟨7, 1, "USD".toList, total, some .sent, none⟩

/-- Invoices with the totals 80 and 50, a retainer of 300, and 80 of it applied to the first
invoice by the entry 2. -/
def appliedActions : List ProgramAction :=
  [createInvoiceOf 80, createInvoiceOf 50, .request (.topup (some 1) 7 "USD".toList 300)] ++
    nextStatements 0 7 ++ [.request (.applyDeposit 1 .blank)] ++ nextStatements 1 12

/-- One cancellation after the other: the second one finds the first and is aborted. -/
def cancelInTurnActions : List ProgramAction :=
  appliedActions ++ [.request (.cancelDepositApply 1 2), .request (.cancelDepositApply 1 2)] ++
    nextStatements 2 11 ++ nextStatements 3 6

theorem retainer_cancelled_once_in_turn :
    ∃ s, GuardedRun (programStep asciiTable)
        (fun s a => commitsFreshReads asciiTable s a = true) .initial cancelInTurnActions s ∧
      (cancellations s.committed 2).length = 1 ∧
      (∀ k, (cancellations s.committed k).length ≤ 1) ∧
      ∀ inv ∈ s.invoices.rows, -invoiceSum s.committed inv.id ≤ max 0 inv.totalMinor := by
  obtain ⟨s, hrun, hone⟩ := exists_guardedRun_of_any (programStep asciiTable)
    (fun s a => commitsFreshReads asciiTable s a = true) .initial cancelInTurnActions
    (fun s => (cancellations s.committed 2).length = 1) (by decide +kernel)
  exact ⟨s, hrun, of_decide_eq_true hone, retainer_cancelled_once hrun⟩

/-- Both requests look for a cancellation of the entry 2 before either inserts one. -/
def cancelTwiceActions : List ProgramAction :=
  appliedActions ++ [.request (.cancelDepositApply 1 2), .request (.cancelDepositApply 1 2)] ++
    nextStatements 2 6 ++ nextStatements 3 6 ++ nextStatements 2 5 ++ nextStatements 3 5

/-- Both requests find 50 outstanding on the second invoice. -/
def applyTwiceActions : List ProgramAction :=
  appliedActions ++ [.request (.applyDeposit 2 .blank), .request (.applyDeposit 2 .blank)] ++
    nextStatements 2 4 ++ nextStatements 3 4 ++ nextStatements 2 8 ++ nextStatements 3 8

theorem retainer_cancelled_twice :
    (¬∀ (as : List ProgramAction) (s : ProgramState),
      Run (programStep asciiTable) .initial as s → ∀ k, (cancellations s.committed k).length ≤ 1) ∧
    ¬∀ (as : List ProgramAction) (s : ProgramState),
      Run (programStep asciiTable) .initial as s →
        ∀ inv ∈ s.invoices.rows, -invoiceSum s.committed inv.id ≤ max 0 inv.totalMinor := by
  constructor
  · intro h
    obtain ⟨s, hrun, htwo⟩ := exists_guardedRun_of_any (programStep asciiTable)
      (fun _ _ => True) .initial cancelTwiceActions
      (fun s => (cancellations s.committed 2).length = 2) (by decide +kernel)
    have hone := h _ s hrun 2
    rw [of_decide_eq_true htwo] at hone
    omega
  · intro h
    obtain ⟨s, hrun, hbeyond⟩ := exists_guardedRun_of_any (programStep asciiTable)
      (fun _ _ => True) .initial applyTwiceActions
      (fun s => ∃ inv ∈ s.invoices.rows, max 0 inv.totalMinor < -invoiceSum s.committed inv.id)
      (by decide +kernel)
    obtain ⟨inv, hinv, hlt⟩ := of_decide_eq_true hbeyond
    have hle := h _ s hrun inv hinv
    omega

end IpDocket.Billing
