import IpDocket.Billing.RetainerPrograms
import IpDocket.Billing.DepositCancellation

/-!
# The books and the requests in flight

What holds of the committed rows, how they change while a request is in flight, and what has
to hold of the request so that its commit keeps the books in order. A request that applies a
retainer is measured by what it may still apply: the statement that inserts an application
takes it from what is planned to what is applied.
-/

namespace IpDocket.Billing
open IpDocket.Lib

/-- The cancellations of the entry `k`. -/
def cancellations (entries : List LedgerEntry) (k : Nat) : List LedgerEntry :=
  entries.filter (fun e => e.relatedEntryId = some k ∧ e.entryType = .cancelApply)

section Entries

variable {es fs : List LedgerEntry} {k id : Nat}

lemma isCanceled_eq_false : isCanceled es k = false ↔ cancellations es k = [] := by
  simp [isCanceled, cancellations]

lemma isCanceled_split (n : Nat) : isCanceled es k =
    (isCanceled (es.take n) k || isCanceled (es.drop n) k) := by
  simp only [isCanceled]
  rw [← List.any_append, List.take_append_drop]

lemma cancellations_append : cancellations (es ++ fs) k =
    cancellations es k ++ cancellations fs k := List.filter_append ..

lemma length_cancellations_detach :
    (cancellations (es.map (detachInvoice id)) k).length = (cancellations es k).length := by
  simp only [cancellations, List.filter_map, List.length_map]
  rfl

lemma invoiceSum_concat : invoiceSum (es ++ fs) id = invoiceSum es id + invoiceSum fs id := by
  simp [invoiceSum]

lemma invoiceSum_eq_zero (h : ∀ e ∈ es, e.relatedInvoiceId ≠ some id) : invoiceSum es id = 0 := by
  have hnone : es.filter (fun e => e.relatedInvoiceId = some id ∧
      (e.entryType = .apply ∨ e.entryType = .cancelApply)) = [] := by
    rw [List.filter_eq_nil_iff]
    intro e he
    simp [h e he]
  rw [invoiceSum, hnone]
  rfl

end Entries

def CallPhase.call : CallPhase → Option EntryCall
  | .idle => none
  | .validated c => some c
  | .invoiceChecked c => some c
  | .relatedChecked c => some c
  | .alreadyChecked c => some c
  | .balanceChecked c _ => some c

@[simp] lemma CallPhase.call_idle : CallPhase.idle.call = none := rfl

/-- The call whose invoice has been found. -/
def CallPhase.named : CallPhase → Option EntryCall
  | .idle => none
  | .validated _ => none
  | phase => phase.call

/-- The call that is past the check for an earlier cancellation. -/
def CallPhase.passed : CallPhase → Option EntryCall
  | .alreadyChecked c => some c
  | .balanceChecked c _ => some c
  | _ => none

def EntryCall.appliesTo (id : Nat) (c : EntryCall) : Int :=
  if c.entryType = .apply ∧ truthy c.relatedInvoiceId = some id then max 0 (-c.amountMinor) else 0

def Statement.appliesTo (id : Nat) : Statement → Int
  | .call c => c.appliesTo id
  | _ => 0

/-- What the transaction has applied to the invoice or will apply with the statements left. -/
def Transaction.mayApply (t : Transaction) (todo : List Statement) (id : Nat) : Int :=
  t.phase.call.elim 0 (EntryCall.appliesTo id) + (todo.map (Statement.appliesTo id)).sum -
    invoiceSum t.entries id

section Applies

variable {t : Transaction} {c : EntryCall} {todo todo' : List Statement} {id : Nat}

lemma EntryCall.appliesTo_nonneg (id : Nat) (c : EntryCall) : 0 ≤ c.appliesTo id := by
  unfold EntryCall.appliesTo
  split <;> omega

lemma Statement.appliesTo_nonneg (id : Nat) (st : Statement) : 0 ≤ st.appliesTo id := by
  cases st with
  | call c => exact c.appliesTo_nonneg id
  | _ => exact Int.le_refl 0

lemma sum_appliesTo_nonneg (id : Nat) (todo : List Statement) :
    0 ≤ (todo.map (Statement.appliesTo id)).sum := by
  apply List.sum_nonneg
  intro x hx
  obtain ⟨st, -, rfl⟩ := List.mem_map.mp hx
  exact st.appliesTo_nonneg id

lemma sum_appliesTo_of_suffix (h : todo' <:+ todo) (id : Nat) :
    (todo'.map (Statement.appliesTo id)).sum ≤ (todo.map (Statement.appliesTo id)).sum := by
  obtain ⟨front, rfl⟩ := h
  rw [List.map_append, List.sum_append]
  have := sum_appliesTo_nonneg id front
  omega

/-- Giving up the call and some statements only lowers what may be applied. -/
lemma Transaction.mayApply_idle_le (h : todo' <:+ todo) (id : Nat) :
    ({ t with phase := .idle } : Transaction).mayApply todo' id ≤ t.mayApply todo id := by
  have hle := sum_appliesTo_of_suffix h id
  have hcall : 0 ≤ t.phase.call.elim 0 (EntryCall.appliesTo id) := by
    cases t.phase.call with
    | none => exact Int.le_refl 0
    | some c => exact c.appliesTo_nonneg id
  simp only [Transaction.mayApply, CallPhase.call_idle, Option.elim_none, Transaction.entries]
  omega

lemma Transaction.mayApply_phase {next : CallPhase} (h : next.call = t.phase.call) :
    ({ t with phase := next } : Transaction).mayApply todo id = t.mayApply todo id := by
  simp only [Transaction.mayApply, Transaction.entries, h]

/-- An entry that is inserted takes the place of its call. -/
lemma Transaction.mayApply_insert_le {U : UpperTable} {seen n m : Nat}
    (hphase : t.phase = .balanceChecked c seen) (hvalid : validateEntry U c = .ok ()) :
    ({ t with own := t.own ++ [⟨c.toEntry U n, m⟩], phase := .idle } : Transaction).mayApply
      todo id ≤ t.mayApply todo id := by
  obtain ⟨-, -, -, happly, hcancel, -, -⟩ := validateEntry_eq_ok.mp hvalid
  simp only [Transaction.mayApply, hphase, CallPhase.call, Option.elim_none, Option.elim_some,
    Transaction.entries, List.map_append, List.map_cons, List.map_nil, invoiceSum_append]
  simp only [EntryCall.toEntry, EntryCall.appliesTo]
  by_cases hid : truthy c.relatedInvoiceId = some id
  · by_cases htype : c.entryType = .apply
    · have := happly htype
      simp only [hid, htype, true_and, true_or, if_true]
      omega
    · by_cases htype' : c.entryType = .cancelApply
      · have := hcancel htype'
        simp only [hid, htype', or_true, and_true, if_true, reduceCtorEq, if_false]
        omega
      · simp [htype, htype']
  · simp [hid]

end Applies

structure Books where
  entries : List LedgerEntry
  invoices : Table Invoice.id

def ProgramState.books (s : ProgramState) : Books := ⟨s.committed, s.invoices⟩

/-- Every entry is cancelled once at most, no invoice has more applied to it than its total,
and the entries name invoices that have been inserted. -/
structure BooksOk (b : Books) : Prop where
  once : ∀ k, (cancellations b.entries k).length ≤ 1
  within : ∀ inv ∈ b.invoices.rows, -invoiceSum b.entries inv.id ≤ max 0 inv.totalMinor
  named : ∀ e ∈ b.entries, ∀ id, e.relatedInvoiceId = some id → id < b.invoices.next

/-- `b'` comes after `b`: entries are only appended, or lose their invoice when it is
deleted, and the total of an invoice stays. -/
structure Follows (b b' : Books) : Prop where
  length : b.entries.length ≤ b'.entries.length
  canceled : ∀ n k, n ≤ b.entries.length →
    isCanceled (b'.entries.take n) k = isCanceled (b.entries.take n) k
  sums : ∀ n, n ≤ b.entries.length → ∀ inv ∈ b'.invoices.rows, inv.id < b.invoices.next →
    invoiceSum (b'.entries.take n) inv.id = invoiceSum (b.entries.take n) inv.id
  next : b.invoices.next ≤ b'.invoices.next
  totals : ∀ inv ∈ b'.invoices.rows, inv.id < b.invoices.next →
    ∃ old ∈ b.invoices.rows, old.id = inv.id ∧ old.totalMinor = inv.totalMinor

section Follows

variable {b b' b'' : Books}

lemma Follows.refl (b : Books) : Follows b b :=
  ⟨Nat.le_refl _, fun _ _ _ => rfl, fun _ _ _ _ _ => rfl, Nat.le_refl _,
    fun inv hinv _ => ⟨inv, hinv, rfl, rfl⟩⟩

lemma Follows.trans (h : Follows b b') (h' : Follows b' b'') : Follows b b'' := by
  constructor
  · exact h.length.trans h'.length
  · intro n k hn
    rw [h'.canceled n k (hn.trans h.length), h.canceled n k hn]
  · intro n hn inv hinv hlt
    have hlt' := Nat.lt_of_lt_of_le hlt h.next
    obtain ⟨mid, hmid, hid, -⟩ := h'.totals inv hinv hlt'
    rw [h'.sums n (hn.trans h.length) inv hinv hlt', ← hid]
    exact h.sums n hn mid hmid (hid.symm ▸ hlt)
  · exact h.next.trans h'.next
  · intro inv hinv hlt
    obtain ⟨mid, hmid, hid, htotal⟩ := h'.totals inv hinv (Nat.lt_of_lt_of_le hlt h.next)
    obtain ⟨old, hold, hid', htotal'⟩ := h.totals mid hmid (by omega)
    exact ⟨old, hold, hid'.trans hid, htotal'.trans htotal⟩

/-- A commit appends the entries of its transaction. -/
lemma Follows.append (b : Books) (es : List LedgerEntry) :
    Follows b ⟨b.entries ++ es, b.invoices⟩ := by
  constructor
  · rw [List.length_append]
    omega
  · intro n k hn
    rw [List.take_append_of_le_length hn]
  · intro n hn inv _ _
    rw [List.take_append_of_le_length hn]
  · exact Nat.le_refl _
  · intro inv hinv _
    exact ⟨inv, hinv, rfl, rfl⟩

/-- An `UPDATE` of the invoices that leaves their totals alone. -/
lemma Follows.update (b : Books) {f : Invoice → Invoice} (hf : ∀ inv, (f inv).id = inv.id)
    (htotal : ∀ inv, (f inv).totalMinor = inv.totalMinor) :
    Follows b ⟨b.entries, b.invoices.update f hf⟩ := by
  refine ⟨Nat.le_refl _, fun _ _ _ => rfl, fun _ _ _ _ _ => rfl, Nat.le_refl _, ?_⟩
  intro inv hinv _
  obtain ⟨old, hold, rfl⟩ := List.mem_map.mp hinv
  exact ⟨old, hold, (hf old).symm, (htotal old).symm⟩

lemma Follows.delete (b : Books) (id : Nat) :
    Follows b ⟨b.entries.map (detachInvoice id), b.invoices.delete id⟩ := by
  constructor
  · rw [List.length_map]
  · intro n k _
    rw [← List.map_take, isCanceled_detach]
  · intro n _ inv hinv _
    have hne := (List.mem_filter.mp hinv).2
    rw [← List.map_take, invoiceSum_detach, if_neg (by simpa using hne)]
  · exact Nat.le_refl _
  · intro inv hinv _
    exact ⟨inv, (List.mem_filter.mp hinv).1, rfl, rfl⟩

lemma totalMinor_onRows {p : Invoice → Bool} {f : Invoice → Invoice}
    (hf : ∀ inv, (f inv).totalMinor = inv.totalMinor) (inv : Invoice) :
    (onRows p f inv).totalMinor = inv.totalMinor := by
  unfold onRows
  split
  · exact hf inv
  · rfl

lemma BooksOk.update (h : BooksOk b) {f : Invoice → Invoice} (hf : ∀ inv, (f inv).id = inv.id)
    (htotal : ∀ inv, (f inv).totalMinor = inv.totalMinor) :
    BooksOk ⟨b.entries, b.invoices.update f hf⟩ := by
  refine ⟨h.once, ?_, h.named⟩
  intro inv hinv
  obtain ⟨old, hold, rfl⟩ := List.mem_map.mp hinv
  rw [hf, htotal]
  exact h.within old hold

lemma BooksOk.delete (h : BooksOk b) (id : Nat) :
    BooksOk ⟨b.entries.map (detachInvoice id), b.invoices.delete id⟩ := by
  constructor
  · intro k
    rw [length_cancellations_detach]
    exact h.once k
  · intro inv hinv
    obtain ⟨hmem, hne⟩ := List.mem_filter.mp hinv
    rw [invoiceSum_detach, if_neg (by simpa using hne)]
    exact h.within inv hmem
  · intro e he k hk
    obtain ⟨old, hold, rfl⟩ := List.mem_map.mp he
    exact h.named old hold k (detachInvoice_related.mp hk).1

/-- The books after a write to the invoices has become visible. -/
def Books.write (b : Books) (w : InvoiceWrite) : Books := ⟨w.detach b.entries, w.run b.invoices⟩

lemma books_write (h : BooksOk b) (w : InvoiceWrite) : BooksOk (b.write w) ∧ Follows b (b.write w) := by
  cases w with
  | status id billing payment verified =>
    have htotal := totalMinor_onRows (p := fun inv => inv.id = id)
      (f := Invoice.withStatus billing payment verified) (fun _ => rfl)
    have hkey : ∀ inv, (onRows (fun inv => inv.id = id)
        (Invoice.withStatus billing payment verified) inv).id = inv.id :=
      key_onRows (fun _ => rfl)
    exact ⟨h.update hkey htotal, .update b hkey htotal⟩
  | payment id payment verified =>
    have htotal := totalMinor_onRows (p := fun inv => inv.id = id)
      (f := Invoice.withPayment payment verified) (fun _ => rfl)
    have hkey : ∀ inv, (onRows (fun inv => inv.id = id)
        (Invoice.withPayment payment verified) inv).id = inv.id :=
      key_onRows (fun _ => rfl)
    exact ⟨h.update hkey htotal, .update b hkey htotal⟩
  | delete id => exact ⟨h.delete id, .delete b id⟩

lemma books_writes (h : BooksOk b) (ws : List InvoiceWrite) :
    BooksOk ⟨ws.foldl InvoiceWrite.detach b.entries, ws.foldl InvoiceWrite.run b.invoices⟩ ∧
      Follows b ⟨ws.foldl InvoiceWrite.detach b.entries, ws.foldl InvoiceWrite.run b.invoices⟩ := by
  induction ws generalizing b with
  | nil => exact ⟨h, .refl b⟩
  | cons w ws ih =>
    obtain ⟨hw, hfollows⟩ := books_write h w
    obtain ⟨hok, hrest⟩ := ih hw
    exact ⟨hok, hfollows.trans hrest⟩

/-- A new invoice has nothing applied to it. -/
lemma books_insert (h : BooksOk b) {make : Nat → Invoice} (hm : ∀ k, (make k).id = k) :
    BooksOk ⟨b.entries, b.invoices.insert make hm⟩ ∧
      Follows b ⟨b.entries, b.invoices.insert make hm⟩ := by
  have hnext : ∀ inv ∈ (b.invoices.insert make hm).rows,
      inv ∈ b.invoices.rows ∨ inv.id = b.invoices.next := by
    intro inv hinv
    rcases List.mem_append.mp hinv with hold | hnew
    · exact .inl hold
    · rw [List.mem_singleton.mp hnew]
      exact .inr (hm _)
  constructor
  · refine ⟨h.once, ?_, ?_⟩
    · intro inv hinv
      rcases hnext inv hinv with hold | hid
      · exact h.within inv hold
      · have hzero : invoiceSum b.entries inv.id = 0 := by
          apply invoiceSum_eq_zero
          intro e he hrel
          have := h.named e he _ hrel
          omega
        rw [hzero]
        omega
    · intro e he id hid
      exact Nat.lt_succ_of_lt (h.named e he id hid)
  · refine ⟨Nat.le_refl _, fun _ _ _ => rfl, fun _ _ _ _ _ => rfl, Nat.le_succ _, ?_⟩
    intro inv hinv hlt
    rcases hnext inv hinv with hold | hid
    · exact ⟨inv, hold, rfl, rfl⟩
    · omega

end Follows

/-! ### What holds of a request -/

/-- The amount can be applied to the invoice on top of what was applied to it when `seen`
entries had been committed. -/
structure Outstanding (b : Books) (id seen : Nat) (amount : Int) : Prop where
  seen_le : seen ≤ b.entries.length
  id_lt : id < b.invoices.next
  covered : ∀ inv ∈ b.invoices.rows, inv.id = id →
    max 0 (-invoiceSum (b.entries.take seen) id) + amount ≤ inv.totalMinor

/-- A request that has not read what is outstanding applies nothing; the others apply to the
invoice they have looked at. -/
def RunningOk (b : Books) (read : Option SumRead) (may : Nat → Int) : Prop :=
  match read with
  | none => ∀ id, may id ≤ 0
  | some p =>
    (∀ id, id ≠ p.invoiceId → may id ≤ 0) ∧ Outstanding b p.invoiceId p.seen (may p.invoiceId)

/-- The invoice that was read still has the total it had. -/
structure RowOk (b : Books) (inv : Invoice) : Prop where
  id_lt : inv.id < b.invoices.next
  total : ∀ row ∈ b.invoices.rows, row.id = inv.id → row.totalMinor = inv.totalMinor

def TaskOk (b : Books) (t : Transaction) : Task → Prop
  | .applyInvoice _ _ => t = {}
  | .applySum inv _ => t = {} ∧ RowOk b inv
  | .applyProfile inv _ outstanding req seen =>
    t = {} ∧ Outstanding b inv.id seen outstanding ∧ req ≤ outstanding
  | .applyOffice inv _ outstanding req balBp seen =>
    t = {} ∧ Outstanding b inv.id seen outstanding ∧ req ≤ outstanding ∧ 0 ≤ balBp
  | .running read todo => RunningOk b read (t.mayApply todo)
  | .done => t = {}

/-- The entry was found without a cancellation when the request looked for one. -/
def FoundOpen (b : Books) (r : Request) (k : Nat) : Prop :=
  r.alreadyAt k ≤ b.entries.length ∧ isCanceled (b.entries.take (r.alreadyAt k)) k = false

structure RequestOk (U : UpperTable) (b : Books) (r : Request) : Prop where
  once : ∀ k, (cancellations r.tx.entries k).length ≤ 1
  found : ∀ k, isCanceled r.tx.entries k = true → FoundOpen b r k
  passed : ∀ c, r.tx.phase.passed = some c → ∀ k, c.cancels k = true →
    isCanceled r.tx.entries k = false ∧ FoundOpen b r k
  named : ∀ e ∈ r.tx.entries, ∀ id, e.relatedInvoiceId = some id → id < b.invoices.next
  callNamed : ∀ c, r.tx.phase.named = some c → ∀ id, truthy c.relatedInvoiceId = some id →
    id < b.invoices.next
  valid : ∀ c, r.tx.phase.call = some c → validateEntry U c = .ok ()
  task : TaskOk b r.tx r.task

section RequestOk

variable {U : UpperTable} {b b' : Books} {r : Request} {c : EntryCall} {id seen k : Nat}
  {amount amount' : Int}

lemma Outstanding.mono (h : Outstanding b id seen amount) (hle : amount' ≤ amount) :
    Outstanding b id seen amount' := by
  refine ⟨h.seen_le, h.id_lt, ?_⟩
  intro inv hinv hid
  have := h.covered inv hinv hid
  omega

lemma Outstanding.follows (h : Outstanding b id seen amount) (hf : Follows b b') :
    Outstanding b' id seen amount := by
  refine ⟨h.seen_le.trans hf.length, Nat.lt_of_lt_of_le h.id_lt hf.next, ?_⟩
  intro inv hinv hid
  have hlt : inv.id < b.invoices.next := hid ▸ h.id_lt
  obtain ⟨old, hold, hid', htotal⟩ := hf.totals inv hinv hlt
  have hsum := hf.sums seen h.seen_le inv hinv hlt
  have hcovered := h.covered old hold (hid'.trans hid)
  rw [hid] at hsum
  rw [hsum, ← htotal]
  exact hcovered

lemma RunningOk.mono {read : Option SumRead} {may may' : Nat → Int} (h : RunningOk b read may)
    (hle : ∀ id, may' id ≤ may id) : RunningOk b read may' := by
  cases read with
  | none =>
    intro id
    exact (hle id).trans (h id)
  | some p =>
    obtain ⟨hothers, hread⟩ := h
    exact ⟨fun id hne => (hle id).trans (hothers id hne), hread.mono (hle _)⟩

lemma RunningOk.follows {read : Option SumRead} {may : Nat → Int} (h : RunningOk b read may)
    (hf : Follows b b') : RunningOk b' read may := by
  cases read with
  | none => exact h
  | some p => exact ⟨h.1, h.2.follows hf⟩

lemma RowOk.follows {inv : Invoice} (h : RowOk b inv) (hf : Follows b b') : RowOk b' inv := by
  refine ⟨Nat.lt_of_lt_of_le h.id_lt hf.next, ?_⟩
  intro row hrow hid
  obtain ⟨old, hold, hid', htotal⟩ := hf.totals row hrow (hid ▸ h.id_lt)
  rw [← htotal]
  exact h.total old hold (hid'.trans hid)

lemma TaskOk.follows {t : Transaction} {task : Task} (h : TaskOk b t task) (hf : Follows b b') :
    TaskOk b' t task := by
  cases task with
  | applyInvoice _ _ => exact h
  | applySum _ _ => exact ⟨h.1, h.2.follows hf⟩
  | applyProfile _ _ _ _ _ => exact ⟨h.1, h.2.1.follows hf, h.2.2⟩
  | applyOffice _ _ _ _ _ _ => exact ⟨h.1, h.2.1.follows hf, h.2.2⟩
  | running _ _ => exact RunningOk.follows h hf
  | done => exact h

lemma FoundOpen.follows (h : FoundOpen b r k) (hf : Follows b b') : FoundOpen b' r k := by
  refine ⟨h.1.trans hf.length, ?_⟩
  rw [hf.canceled _ _ h.1]
  exact h.2

/-- Nothing that another request commits takes back what holds of this one. -/
lemma RequestOk.follows (h : RequestOk U b r) (hf : Follows b b') : RequestOk U b' r where
  once := h.once
  found := fun k hk => (h.found k hk).follows hf
  passed := fun c hc k hk => ⟨(h.passed c hc k hk).1, (h.passed c hc k hk).2.follows hf⟩
  named := fun e he id hid => Nat.lt_of_lt_of_le (h.named e he id hid) hf.next
  callNamed := fun c hc id hid => Nat.lt_of_lt_of_le (h.callNamed c hc id hid) hf.next
  valid := h.valid
  task := h.task.follows hf

/-- A request that has written nothing yet. -/
lemma requestOk_of_new {alreadyAt : Nat → Nat} {writes : List InvoiceWrite} {task : Task}
    (h : TaskOk b {} task) : RequestOk U b ⟨task, {}, writes, alreadyAt⟩ where
  once := fun _ => Nat.zero_le 1
  found := fun _ hk => by cases hk
  passed := fun _ hc => by cases hc
  named := fun _ he => by cases he
  callNamed := fun _ hc => by cases hc
  valid := fun _ hc => by cases hc
  task := h

lemma requestOk_ended : RequestOk U b .ended := requestOk_of_new rfl

/-- A request in the middle of a call is past its reads. -/
lemma RequestOk.running (h : RequestOk U b r) (hcall : r.tx.phase.call = some c) :
    ∃ read todo, r.task = .running read todo ∧ RunningOk b read (r.tx.mayApply todo) := by
  have hne : r.tx ≠ {} := by
    intro heq
    rw [heq] at hcall
    cases hcall
  have htask := h.task
  cases hr : r.task with
  | running read todo =>
    rw [hr] at htask
    exact ⟨read, todo, rfl, htask⟩
  | applyInvoice _ _ =>
    rw [hr] at htask
    exact absurd htask hne
  | applySum _ _ =>
    rw [hr] at htask
    exact absurd htask.1 hne
  | applyProfile _ _ _ _ _ =>
    rw [hr] at htask
    exact absurd htask.1 hne
  | applyOffice _ _ _ _ _ _ =>
    rw [hr] at htask
    exact absurd htask.1 hne
  | done =>
    rw [hr] at htask
    exact absurd htask hne

/-- The request without its call, with some of its statements left out. -/
lemma RequestOk.drop {read : Option SumRead} {todo todo' : List Statement}
    (h : RequestOk U b r) (hrun : RunningOk b read (r.tx.mayApply todo)) (hsuffix : todo' <:+ todo) :
    RequestOk U b { r with task := .running read todo', tx := { r.tx with phase := .idle } } where
  once := h.once
  found := h.found
  passed := fun _ hc => by cases hc
  named := h.named
  callNamed := fun _ hc => by cases hc
  valid := fun _ hc => by cases hc
  task := hrun.mono (fun id => Transaction.mayApply_idle_le hsuffix id)

lemma RequestOk.abort {read : Option SumRead} {todo : List Statement} (h : RequestOk U b r)
    (hrun : RunningOk b read (r.tx.mayApply todo)) (htask : r.task = .running read todo) :
    RequestOk U b { r with tx := { r.tx with phase := .idle } }.abort := by
  unfold Request.abort
  simp only [htask]
  have hsuffix := List.dropWhile_suffix (l := todo) (fun st => decide ¬st.isResume = true)
  split
  · exact requestOk_ended
  · next heq =>
    rw [heq] at hsuffix
    exact h.drop hrun ((List.suffix_cons _ _).trans hsuffix)

end RequestOk

end IpDocket.Billing
