import IpDocket.Billing.InvoiceNumbers

/-!
# Automatic invoice numbers are unique

A counter only grows: whoever reads it holds its row until the number is handed out. So no two
calls hand out the same number of the same key. A number that is stored without a call is not
counted, and a new counter starts from the numbers under the prefix of the first call only.
Where no such number is above its counter, a call hands out numbers that no invoice has.
-/

namespace IpDocket.Billing
open IpDocket.Lib

lemma renderNumber_inj {pre : Text} {m n : Nat} (h : renderNumber pre m = renderNumber pre n) :
    m = n :=
  padLeft_zero_inj (List.append_cancel_left h)

/-- The number of a text that a call with the prefix could return. -/
def numberOf (pre number : Text) : Option Nat :=
  let n := Nat.ofDigitChars 10 (number.drop pre.length) 0
  if renderNumber pre n = number then some n else none

lemma numberOf_eq_some {pre number : Text} {n : Nat} :
    numberOf pre number = some n ↔ number = renderNumber pre n := by
  unfold numberOf
  dsimp only
  constructor
  · intro h
    split at h
    · next heq =>
      cases h
      exact heq.symm
    · cases h
  · rintro rfl
    have hdigits : Nat.ofDigitChars 10 ((renderNumber pre n).drop pre.length) 0 = n := by
      rw [renderNumber, List.drop_left, ofDigitChars_padLeft (.inl rfl)]
    rw [hdigits, if_pos rfl]

section Scan

variable {T : DigitTables}

lemma suffixSeq_digits {n : Nat} (hn : n ≤ maxInteger) :
    suffixSeq T (pyStrip (padLeft '0' 4 (pyDigits n))) = some n := by
  have hdigit := isDigit_padLeft_zero 4 n
  have hlength : (padLeft '0' 4 (pyDigits n)).length ≤ 4300 := by
    have hdigits : (pyDigits n).length ≤ 10 :=
      (Nat.length_toDigits_le_iff (by decide) (by decide)).mpr (by
        unfold maxInteger at hn
        omega)
    simp only [padLeft, List.length_append, List.length_replicate]
    omega
  have hne : padLeft '0' 4 (pyDigits n) ≠ [] := by
    intro hnil
    have hpos : 0 < (pyDigits n).length := Nat.length_toDigits_pos
    have hlen := congrArg List.length hnil
    simp only [padLeft, List.length_append, List.length_replicate, List.length_nil] at hlen
    omega
  have hall : (padLeft '0' 4 (pyDigits n)).all (fun c => (T.decimal c).isSome) = true := by
    refine List.all_eq_true.mpr ?_
    intro c hc
    rw [T.decimal_of_isDigit c (hdigit c hc)]
    rfl
  rw [pyStrip_of_isDigit hdigit, suffixSeq, if_pos ⟨hne, hall, hlength⟩,
    decimalValue_of_isDigit T hdigit, ofDigitChars_padLeft (.inl rfl)]

lemma le_foldl {α : Type} {f : Nat → α → Nat} (hgrow : ∀ k x, k ≤ f k x) (xs : List α) (k : Nat) :
    k ≤ xs.foldl f k := by
  induction xs generalizing k with
  | nil => exact Nat.le_refl k
  | cons x xs ih => exact (hgrow k x).trans (ih (f k x))

/-- A maximum that is accumulated over a list is not below any of its members. -/
lemma le_foldl_of_mem {α : Type} {f : Nat → α → Nat} (hgrow : ∀ k x, k ≤ f k x) {n : Nat} {x : α}
    (hx : ∀ k, n ≤ f k x) {xs : List α} (hmem : x ∈ xs) (k : Nat) : n ≤ xs.foldl f k := by
  induction xs generalizing k with
  | nil => cases hmem
  | cons y xs ih =>
    rw [List.foldl_cons]
    rcases List.mem_cons.mp hmem with rfl | hrest
    · exact (hx k).trans (le_foldl hgrow xs _)
    · exact ih hrest _

/-- The search finds every number that is stored under a prefix without an escape. -/
lemma le_maxExisting {pre : Text} (hpre : '\\' ∉ pre) {numbers : List Text} {n : Nat}
    (hn : n ≤ maxInteger) (hmem : renderNumber pre n ∈ numbers) :
    n ≤ maxExistingInvoiceNoForPrefix T numbers pre := by
  have hfound : renderNumber pre n ∈ numbers.filter (sqlLike (pre ++ ['%'])) :=
    List.mem_filter.mpr ⟨hmem, sqlLike_append hpre _⟩
  have hpreOf : pre.isPrefixOf (renderNumber pre n) = true := by
    simp [renderNumber]
  refine le_foldl_of_mem ?_ ?_ hfound 0
  · intro maxNo num
    split
    · split
      · exact Nat.le_max_left _ _
      · exact Nat.le_refl _
    · exact Nat.le_refl _
  · intro maxNo
    rw [if_pos hpreOf, renderNumber, List.drop_left, suffixSeq_digits hn]
    exact Nat.le_max_right _ _

end Scan

section Condition

variable (T : DigitTables)

/-- The key and the number of a call that has looked for the highest stored number. -/
def NumberPhase.seeded? : NumberPhase → Option (Text × Nat)
  | .inserting pre _ n => some (extractInvoiceDateKey T pre, n)
  | .inserted pre _ n => some (extractInvoiceDateKey T pre, n)
  | _ => none

/-- The number `n` is not above the counter of the key. Before there is a counter, it is below
the number that a call is about to start it with. -/
def covered (counters : List (Text × Nat)) (sessions : List NumberSession) (key : Text) (n : Nat) :
    Bool :=
  match counters.lookup key with
  | some lastNo => n ≤ lastNo
  | none => sessions.all (fun u => (u.phase.seeded? T).all (fun call => call.1 = key → n < call.2))

variable (prefixes : List Text)

/-- A number that is stored without a call: it is there already, or it is no number that a
call has handed out or can hand out later. -/
def mayBeTyped (s : NumberState) (number : Text) : Bool :=
  number ∈ s.numbers ∨
    (s.sessions.all (fun u => u.issued ≠ some number) ∧
      prefixes.all (fun pre => (numberOf pre number).all (fun n =>
        n ≤ maxInteger → covered T s.counters s.sessions (extractInvoiceDateKey T pre) n)))

/-- No number under another prefix of the key is higher than those under the prefix. -/
def seedsKey (numbers : List Text) (pre : Text) : Bool :=
  prefixes.all (fun q => extractInvoiceDateKey T q = extractInvoiceDateKey T pre →
    numbers.all (fun number => (numberOf q number).all (fun n => n ≤ maxInteger →
      numbers.any (fun other => (numberOf pre other).any (fun m => n ≤ m ∧ m ≤ maxInteger)))))

def numbersCounted (s : NumberState) : NumberAction → Bool
  | .connect => true
  | .session i a =>
    match s.sessions[i]? with
    | none => true
    | some t =>
      match a with
      | .start pre => pre ∈ prefixes
      | .selectNumbers =>
        match t.phase with
        | .scanning pre _ => seedsKey T prefixes s.numbers pre
        | _ => true
      | .commit =>
        t.writes.all (fun w => w.row?.all (fun row =>
          t.issued = some row.number ∨ mayBeTyped T prefixes s row.number))
      | _ => true

/-- A text comes from one number of one key, and the search for stored numbers is not misled
by an escape. -/
structure PrefixesApart : Prop where
  plain : ∀ pre ∈ prefixes, '\\' ∉ pre
  apart : ∀ p ∈ prefixes, ∀ q ∈ prefixes, p = q ∨ ∀ m n, renderNumber p m = renderNumber q n →
    extractInvoiceDateKey T p = extractInvoiceDateKey T q ∧ m = n

end Condition

/-! ### The invariant -/

/-- The number of a call that holds the row of its counter. -/
def NumberPhase.row? : NumberPhase → Option (Text × Nat)
  | .updating pre _ n => some (pre, n)
  | .updated pre _ n => some (pre, n)
  | _ => none

/-- The number of a call that is about to commit. -/
def NumberPhase.written? : NumberPhase → Option (Text × Nat)
  | .updated pre _ n => some (pre, n)
  | .inserted pre _ n => some (pre, n)
  | _ => none

section Invariant

variable (T : DigitTables) (prefixes : List Text)

structure CallOk (counters : List (Text × Nat)) (returned : List ReturnedNumber)
    (numbers : List Text) (t : NumberSession) : Prop where
  pre : ∀ pre attempt, t.phase.call? = some (pre, attempt) → pre ∈ prefixes
  quiet : t.phase ≠ .idle → t.issued = none ∧ t.writes = []
  row : ∀ pre n, t.phase.row? = some (pre, n) →
    ∃ lastNo, counters.lookup (extractInvoiceDateKey T pre) = some lastNo ∧ n = lastNo + 1
  index : ∀ pre attempt n, t.phase = .inserted pre attempt n →
    counters.lookup (extractInvoiceDateKey T pre) = none
  limit : ∀ pre n, t.phase.written? = some (pre, n) → n ≤ maxInteger
  issued : ∀ number, t.issued = some number →
    (∃ r ∈ returned, r.number = number) ∧ number ∉ numbers

structure NumbersInvariant (s : NumberState) : Prop where
  calls : ∀ t ∈ s.sessions, CallOk T prefixes s.counters s.returned s.numbers t
  exclusive : ∀ (i j : Nat) t u, i ≠ j → s.sessions[i]? = some t → s.sessions[j]? = some u →
    ∀ key, t.phase.held? T = some key → u.phase.held? T ≠ some key
  issuedApart : ∀ (i j : Nat) t u, i ≠ j → s.sessions[i]? = some t → s.sessions[j]? = some u →
    ∀ number, t.issued = some number → u.issued ≠ some number
  covered : ∀ number ∈ s.numbers, ∀ pre ∈ prefixes, ∀ n, n ≤ maxInteger →
    number = renderNumber pre n →
      covered T s.counters s.sessions (extractInvoiceDateKey T pre) n = true
  returned : ∀ r ∈ s.returned, r.pre ∈ prefixes ∧
    ∃ lastNo, s.counters.lookup (extractInvoiceDateKey T r.pre) = some lastNo ∧ r.n ≤ lastNo
  distinct : s.returned.Pairwise (fun r q =>
    ¬(extractInvoiceDateKey T r.pre = extractInvoiceDateKey T q.pre ∧ r.n = q.n))
  unstored : ∀ r ∈ s.returned, r.number ∉ r.stored
  rejected : s.rejected = []

end Invariant

section Steps

variable {T : DigitTables} {prefixes : List Text} {s : NumberState} {t t' : NumberSession}
  {i : Nat}

lemma covered_iff {counters : List (Text × Nat)} {sessions : List NumberSession} {key : Text}
    {n : Nat} : covered T counters sessions key n = true ↔
      (∀ lastNo, counters.lookup key = some lastNo → n ≤ lastNo) ∧
        (counters.lookup key = none → ∀ u ∈ sessions, ∀ m,
          u.phase.seeded? T = some (key, m) → n < m) := by
  unfold covered
  split
  · next lastNo hlookup =>
    simp [hlookup]
  · next hlookup =>
    rw [hlookup, List.all_eq_true]
    constructor
    · intro h
      constructor
      · intro lastNo hsome
        cases hsome
      intro _ u hu m hseeded
      have hcall := h u hu
      rw [hseeded] at hcall
      exact of_decide_eq_true hcall rfl
    · rintro ⟨-, h⟩ u hu
      cases hseeded : u.phase.seeded? T with
      | none => rfl
      | some call =>
        apply decide_eq_true
        intro hkey
        refine h rfl u hu call.2 ?_
        rw [hseeded, ← hkey]

/-- Two numbers of the prefixes are different texts unless they are one number of one key. -/
lemma PrefixesApart.number_inj (h : PrefixesApart T prefixes) {p q : Text} (hp : p ∈ prefixes)
    (hq : q ∈ prefixes) {m n : Nat} (heq : renderNumber p m = renderNumber q n) :
    extractInvoiceDateKey T p = extractInvoiceDateKey T q ∧ m = n := by
  rcases h.apart p hp q hq with rfl | hapart
  · exact ⟨rfl, renderNumber_inj heq⟩
  · exact hapart m n heq

lemma not_held_of_unlocked {key : Text} (hlocked : s.locked T i key = false) {j : Nat}
    {u : NumberSession} (hne : j ≠ i) (hu : s.sessions[j]? = some u) :
    u.phase.held? T ≠ some key := by
  have hmem : u ∈ s.sessions.eraseIdx i := List.mem_eraseIdx_iff_getElem?.mpr ⟨j, hne, hu⟩
  have hnot := List.any_eq_false.mp hlocked u hmem
  simpa using hnot

/-- Only one session moves, and nothing is committed. -/
lemma NumbersInvariant.move (h : NumbersInvariant T prefixes s) (ht : s.sessions[i]? = some t)
    (hok : CallOk T prefixes s.counters s.returned s.numbers t')
    (hheld : ∀ key, t'.phase.held? T = some key →
      t.phase.held? T = some key ∨ s.locked T i key = false)
    (hissued : ∀ number, t'.issued = some number → t.issued = some number)
    (hseeded : ∀ key m, t'.phase.seeded? T = some (key, m) → t.phase.seeded? T = some (key, m) ∨
      ∀ number ∈ s.numbers, ∀ pre ∈ prefixes, extractInvoiceDateKey T pre = key →
        ∀ n, n ≤ maxInteger → number = renderNumber pre n → n < m) :
    NumbersInvariant T prefixes { s with sessions := s.sessions.set i t' } := by
  have hmem := List.mem_of_getElem? ht
  refine ⟨?_, ?_, ?_, ?_, h.returned, h.distinct, h.unstored, h.rejected⟩
  · refine (forall_mem_set ht).mpr ⟨hok, ?_⟩
    intro j u _ hu
    exact h.calls u (List.mem_of_getElem? hu)
  · intro j k u v hjk hu hv key hkey
    rcases getElem?_set_cases hu with ⟨rfl, rfl⟩ | ⟨hj, hu'⟩
    · rcases getElem?_set_cases hv with ⟨rfl, -⟩ | ⟨hk, hv'⟩
      · exact absurd rfl hjk
      · rcases hheld key hkey with hold | hfree
        · exact h.exclusive j k t v hjk ht hv' key hold
        · exact not_held_of_unlocked hfree hk hv'
    · rcases getElem?_set_cases hv with ⟨rfl, rfl⟩ | ⟨hk, hv'⟩
      · intro hkey'
        rcases hheld key hkey' with hold | hfree
        · exact h.exclusive j k u t hjk hu' ht key hkey hold
        · exact not_held_of_unlocked hfree hj hu' hkey
      · exact h.exclusive j k u v hjk hu' hv' key hkey
  · intro j k u v hjk hu hv number hnumber
    rcases getElem?_set_cases hu with ⟨rfl, rfl⟩ | ⟨hj, hu'⟩
    · rcases getElem?_set_cases hv with ⟨rfl, -⟩ | ⟨hk, hv'⟩
      · exact absurd rfl hjk
      · exact h.issuedApart j k t v hjk ht hv' number (hissued number hnumber)
    · rcases getElem?_set_cases hv with ⟨rfl, rfl⟩ | ⟨hk, hv'⟩
      · intro hnumber'
        exact h.issuedApart j k u t hjk hu' ht number hnumber (hissued number hnumber')
      · exact h.issuedApart j k u v hjk hu' hv' number hnumber
  · intro number hnumber pre hpre n hn heq
    have hold := covered_iff.mp (h.covered number hnumber pre hpre n hn heq)
    refine covered_iff.mpr ⟨hold.1, ?_⟩
    intro hnone
    refine (forall_mem_set ht).mpr ⟨?_, ?_⟩
    · intro m hm
      rcases hseeded _ m hm with hold' | hnew
      · exact hold.2 hnone t hmem m hold'
      · exact hnew number hnumber pre hpre rfl n hn heq
    · intro j u _ hu m hm
      exact hold.2 hnone u (List.mem_of_getElem? hu) m hm

/-- The call of a session that has nothing else in hand goes on. -/
lemma NumbersInvariant.phase (h : NumbersInvariant T prefixes s) (ht : s.sessions[i]? = some t)
    (hquiet : t.issued = none ∧ t.writes = []) {phase : NumberPhase}
    (hpre : ∀ pre attempt, phase.call? = some (pre, attempt) → pre ∈ prefixes)
    (hrow : ∀ pre n, phase.row? = some (pre, n) →
      ∃ lastNo, s.counters.lookup (extractInvoiceDateKey T pre) = some lastNo ∧ n = lastNo + 1)
    (hindex : ∀ pre attempt n, phase = .inserted pre attempt n →
      s.counters.lookup (extractInvoiceDateKey T pre) = none)
    (hlimit : ∀ pre n, phase.written? = some (pre, n) → n ≤ maxInteger)
    (hheld : ∀ key, phase.held? T = some key →
      t.phase.held? T = some key ∨ s.locked T i key = false)
    (hseeded : ∀ key m, phase.seeded? T = some (key, m) → t.phase.seeded? T = some (key, m) ∨
      ∀ number ∈ s.numbers, ∀ pre ∈ prefixes, extractInvoiceDateKey T pre = key →
        ∀ n, n ≤ maxInteger → number = renderNumber pre n → n < m) :
    NumbersInvariant T prefixes
      { s with sessions := s.sessions.set i { t with phase := phase } } := by
  have hnone : ∀ number, t.issued ≠ some number := by
    intro number hnumber
    rw [hquiet.1] at hnumber
    cases hnumber
  refine h.move ht ⟨hpre, fun _ => hquiet, hrow, hindex, hlimit, ?_⟩ hheld
    (fun _ hnumber => hnumber) hseeded
  intro number hnumber
  exact absurd hnumber (hnone number)

lemma NumberPhase.of_held_none {phase : NumberPhase} (h : phase.held? T = none) :
    phase.row? = none ∧ phase.written? = none ∧ ∀ pre attempt n, phase ≠ .inserted pre attempt n := by
  cases phase with
  | idle => simp [row?, written?]
  | selecting pre attempt => simp [row?, written?]
  | scanning pre attempt => simp [row?, written?]
  | inserting pre attempt n => simp [row?, written?]
  | updating pre attempt n => cases h
  | updated pre attempt n => cases h
  | inserted pre attempt n => cases h

/-- The call goes to a phase in which it neither holds a row nor knows its number. -/
lemma NumbersInvariant.restart (h : NumbersInvariant T prefixes s) (ht : s.sessions[i]? = some t)
    (hquiet : t.issued = none ∧ t.writes = []) {phase : NumberPhase}
    (hpre : ∀ pre attempt, phase.call? = some (pre, attempt) → pre ∈ prefixes)
    (hheld : phase.held? T = none) (hseeded : phase.seeded? T = none) :
    NumbersInvariant T prefixes
      { s with sessions := s.sessions.set i { t with phase := phase } } := by
  obtain ⟨hrow, hwritten, hinserted⟩ := NumberPhase.of_held_none hheld
  refine h.phase ht hquiet hpre ?_ ?_ ?_ ?_ ?_
  · intro pre n hsome
    rw [hrow] at hsome
    cases hsome
  · intro pre attempt n heq
    exact absurd heq (hinserted pre attempt n)
  · intro pre n hsome
    rw [hwritten] at hsome
    cases hsome
  · intro key hsome
    rw [hheld] at hsome
    cases hsome
  · intro key m hsome
    rw [hseeded] at hsome
    cases hsome

lemma pre_nextAttempt {pre : Text} {attempt : Nat} (hpre : pre ∈ prefixes) :
    ∀ pre' attempt', (nextAttempt pre attempt).call? = some (pre', attempt') →
      pre' ∈ prefixes := by
  intro pre' attempt' hcall
  unfold nextAttempt at hcall
  split at hcall
  · cases hcall
    exact hpre
  · cases hcall

lemma held_nextAttempt (pre : Text) (attempt : Nat) :
    (nextAttempt pre attempt).held? T = none ∧ (nextAttempt pre attempt).seeded? T = none := by
  unfold nextAttempt
  split <;> exact ⟨rfl, rfl⟩

/-- What the search found is not below any number that is stored under the key. -/
lemma lt_seed (hprefixes : PrefixesApart T prefixes) {pre : Text} (hpre : pre ∈ prefixes)
    {numbers : List Text} (hseeds : seedsKey T prefixes numbers pre = true) :
    ∀ number ∈ numbers, ∀ q ∈ prefixes, extractInvoiceDateKey T q = extractInvoiceDateKey T pre →
      ∀ n, n ≤ maxInteger → number = renderNumber q n →
        n < max 1 (maxExistingInvoiceNoForPrefix T numbers pre + 1) := by
  intro number hnumber q hq hkey n hn heq
  have hall := of_decide_eq_true (List.all_eq_true.mp hseeds q hq) hkey
  have hone := List.all_eq_true.mp hall number hnumber
  rw [numberOf_eq_some.mpr heq] at hone
  obtain ⟨other, hother, hany⟩ := List.any_eq_true.mp (of_decide_eq_true hone hn)
  obtain ⟨m, hm, hle⟩ := (Option.any_eq_true _ _).mp hany
  rw [numberOf_eq_some.mp hm] at hother
  have hle' : n ≤ m ∧ m ≤ maxInteger := of_decide_eq_true hle
  have hfound : m ≤ maxExistingInvoiceNoForPrefix T numbers pre :=
    le_maxExisting (hprefixes.plain pre hpre) hle'.2 hother
  omega

/-- The number of a call that commits is above all that were handed out or are stored. -/
structure FreshNumber (T : DigitTables) (prefixes : List Text) (s : NumberState) (pre : Text)
    (n : Nat) : Prop where
  returned : ∀ r ∈ s.returned, extractInvoiceDateKey T r.pre = extractInvoiceDateKey T pre →
    r.n < n
  stored : ∀ number ∈ s.numbers, ∀ q ∈ prefixes,
    extractInvoiceDateKey T q = extractInvoiceDateKey T pre → ∀ m, m ≤ maxInteger →
      number = renderNumber q m → m < n

lemma NumberPhase.written_cases {phase : NumberPhase} {pre : Text} {n : Nat}
    (h : phase.written? = some (pre, n)) :
    ∃ attempt, phase = .updated pre attempt n ∨ phase = .inserted pre attempt n := by
  cases phase with
  | updated pre' attempt n' =>
    cases h
    exact ⟨attempt, .inl rfl⟩
  | inserted pre' attempt n' =>
    cases h
    exact ⟨attempt, .inr rfl⟩
  | idle => cases h
  | selecting pre' attempt => cases h
  | updating pre' attempt n' => cases h
  | scanning pre' attempt => cases h
  | inserting pre' attempt n' => cases h

lemma NumbersInvariant.fresh (h : NumbersInvariant T prefixes s) (ht : s.sessions[i]? = some t)
    {pre : Text} {n : Nat} (hwritten : t.phase.written? = some (pre, n)) :
    FreshNumber T prefixes s pre n := by
  have hmem := List.mem_of_getElem? ht
  have hok := h.calls t hmem
  obtain ⟨attempt, hphase | hphase⟩ := NumberPhase.written_cases hwritten
  · have hrow : t.phase.row? = some (pre, n) := by
      rw [hphase]
      rfl
    obtain ⟨lastNo, hlookup, rfl⟩ := hok.row pre n hrow
    constructor
    · intro r hr hkey
      obtain ⟨-, last, hlast, hle⟩ := h.returned r hr
      rw [hkey, hlookup] at hlast
      cases hlast
      omega
    · intro number hnumber q hq hkey m hm heq
      have hcovered := (covered_iff.mp (h.covered number hnumber q hq m hm heq)).1 lastNo
        (by rw [hkey, hlookup])
      omega
  · have hlookup := hok.index pre attempt n hphase
    constructor
    · intro r hr hkey
      obtain ⟨-, last, hlast, -⟩ := h.returned r hr
      rw [hkey, hlookup] at hlast
      cases hlast
    · intro number hnumber q hq hkey m hm heq
      have hcovered := (covered_iff.mp (h.covered number hnumber q hq m hm heq)).2
        (by rw [hkey, hlookup]) t hmem n
      refine hcovered ?_
      rw [hphase, hkey]
      rfl

lemma lookup_cons_of_ne {key key' : Text} {n : Nat} {counters : List (Text × Nat)}
    (hne : key' ≠ key) : ((key, n) :: counters).lookup key' = counters.lookup key' := by
  rw [List.lookup_cons, beq_eq_false_iff_ne.mpr hne]

/-- The other calls hold other rows. -/
lemma CallOk.commitCounter {counters : List (Text × Nat)} {returned : List ReturnedNumber}
    {numbers : List Text} {key : Text} {n : Nat} {r : ReturnedNumber}
    (h : CallOk T prefixes counters returned numbers t) (hheld : t.phase.held? T ≠ some key) :
    CallOk T prefixes ((key, n) :: counters) (r :: returned) numbers t := by
  refine ⟨h.pre, h.quiet, ?_, ?_, h.limit, ?_⟩
  · intro pre m hrow
    have hkey : t.phase.held? T = some (extractInvoiceDateKey T pre) := by
      cases hphase : t.phase with
      | updating pre' attempt m' =>
        rw [hphase] at hrow
        cases hrow
        rfl
      | updated pre' attempt m' =>
        rw [hphase] at hrow
        cases hrow
        rfl
      | _ =>
        rw [hphase] at hrow
        cases hrow
    have hne : extractInvoiceDateKey T pre ≠ key := by
      rintro rfl
      exact hheld hkey
    rw [lookup_cons_of_ne hne]
    exact h.row pre m hrow
  · intro pre attempt m hphase
    have hkey : t.phase.held? T = some (extractInvoiceDateKey T pre) := by
      rw [hphase]
      rfl
    have hne : extractInvoiceDateKey T pre ≠ key := by
      rintro rfl
      exact hheld hkey
    rw [lookup_cons_of_ne hne]
    exact h.index pre attempt m hphase
  · intro number hnumber
    obtain ⟨⟨q, hq, heq⟩, hnot⟩ := h.issued number hnumber
    exact ⟨⟨q, List.mem_cons_of_mem _ hq, heq⟩, hnot⟩

lemma NumbersInvariant.commitCounter (h : NumbersInvariant T prefixes s)
    (hprefixes : PrefixesApart T prefixes) (ht : s.sessions[i]? = some t) {pre : Text} {n : Nat}
    (hwritten : t.phase.written? = some (pre, n)) :
    NumbersInvariant T prefixes
      { (returnNumber T s t pre n).1 with
        sessions := s.sessions.set i (returnNumber T s t pre n).2 } := by
  have hok := h.calls t (List.mem_of_getElem? ht)
  have hfresh := h.fresh ht hwritten
  obtain ⟨hheld, hpre⟩ :
      t.phase.held? T = some (extractInvoiceDateKey T pre) ∧ pre ∈ prefixes := by
    obtain ⟨attempt, hphase | hphase⟩ := NumberPhase.written_cases hwritten
    all_goals
      refine ⟨?_, hok.pre pre attempt ?_⟩ <;> rw [hphase] <;> rfl
  have hnew : renderNumber pre n ∉ s.numbers := by
    intro hstored
    exact Nat.lt_irrefl n
      (hfresh.stored _ hstored pre hpre rfl n (hok.limit pre n hwritten) rfl)
  have hother : ∀ u ∈ s.sessions, u.issued ≠ some (renderNumber pre n) := by
    intro u hu hissued
    obtain ⟨⟨r, hr, hrnumber⟩, -⟩ := (h.calls u hu).issued _ hissued
    have hinj := hprefixes.number_inj (h.returned r hr).1 hpre hrnumber
    have hlt := hfresh.returned r hr hinj.1
    omega
  refine ⟨?_, ?_, ?_, ?_, ?_, ?_, ?_, h.rejected⟩
  · refine (forall_mem_set ht).mpr ⟨?_, ?_⟩
    · refine ⟨?_, fun hidle => absurd rfl hidle, ?_, ?_, ?_, ?_⟩
      · intro pre' attempt hcall
        cases hcall
      · intro pre' m hrow
        cases hrow
      · intro pre' attempt m hphase
        cases hphase
      · intro pre' m hw
        cases hw
      · intro number hnumber
        cases hnumber
        exact ⟨⟨_, List.mem_cons_self, rfl⟩, hnew⟩
    · intro j u hne hu
      exact (h.calls u (List.mem_of_getElem? hu)).commitCounter
        (h.exclusive i j t u (Ne.symm hne) ht hu _ hheld)
  · intro j k u v hjk hu hv key hkey hkey'
    rcases getElem?_set_cases hu with ⟨-, rfl⟩ | ⟨-, hu'⟩
    · cases hkey
    · rcases getElem?_set_cases hv with ⟨-, rfl⟩ | ⟨-, hv'⟩
      · cases hkey'
      · exact h.exclusive j k u v hjk hu' hv' key hkey hkey'
  · intro j k u v hjk hu hv number hnumber hnumber'
    rcases getElem?_set_cases hu with ⟨rfl, rfl⟩ | ⟨-, hu'⟩
    · rcases getElem?_set_cases hv with ⟨rfl, -⟩ | ⟨-, hv'⟩
      · exact hjk rfl
      · cases hnumber
        exact hother v (List.mem_of_getElem? hv') hnumber'
    · rcases getElem?_set_cases hv with ⟨rfl, rfl⟩ | ⟨-, hv'⟩
      · cases hnumber'
        exact hother u (List.mem_of_getElem? hu') hnumber
      · exact h.issuedApart j k u v hjk hu' hv' number hnumber hnumber'
  · intro number hnumber q hq m hm heq
    have hold := covered_iff.mp (h.covered number hnumber q hq m hm heq)
    refine covered_iff.mpr ?_
    by_cases hkey : extractInvoiceDateKey T q = extractInvoiceDateKey T pre
    · have hlookup : ((returnNumber T s t pre n).1).counters.lookup (extractInvoiceDateKey T q) =
          some n := by
        rw [hkey]
        exact List.lookup_cons_self
      rw [hlookup]
      constructor
      · intro lastNo hlast
        cases hlast
        exact Nat.le_of_lt (hfresh.stored number hnumber q hq hkey m hm heq)
      · intro hnone
        cases hnone
    · have hlookup : ((returnNumber T s t pre n).1).counters.lookup (extractInvoiceDateKey T q) =
          s.counters.lookup (extractInvoiceDateKey T q) := lookup_cons_of_ne hkey
      rw [hlookup]
      refine ⟨hold.1, ?_⟩
      intro hnone
      refine (forall_mem_set ht).mpr ⟨?_, ?_⟩
      · intro k hseeded
        cases hseeded
      · intro j u _ hu k hseeded
        exact hold.2 hnone u (List.mem_of_getElem? hu) k hseeded
  · intro r hr
    rcases List.mem_cons.mp hr with rfl | hr
    · exact ⟨hpre, n, List.lookup_cons_self, Nat.le_refl n⟩
    · obtain ⟨hrpre, lastNo, hlast, hle⟩ := h.returned r hr
      by_cases hkey : extractInvoiceDateKey T r.pre = extractInvoiceDateKey T pre
      · refine ⟨hrpre, n, ?_, Nat.le_of_lt (hfresh.returned r hr hkey)⟩
        rw [hkey]
        exact List.lookup_cons_self
      · exact ⟨hrpre, lastNo, (lookup_cons_of_ne hkey).trans hlast, hle⟩
  · refine List.pairwise_cons.mpr ⟨?_, h.distinct⟩
    rintro r hr ⟨hkey, hn⟩
    have hlt := hfresh.returned r hr hkey.symm
    dsimp only at hn
    omega
  · intro r hr
    rcases List.mem_cons.mp hr with rfl | hr
    · exact hnew
    · exact h.unstored r hr

lemma mem_apply {rows : List NumberRow} {w : NumberWrite} {row : NumberRow}
    (h : row ∈ w.apply rows) : row ∈ rows ∨ w.row? = some row := by
  cases w with
  | insert new =>
    rcases List.mem_append.mp h with hold | hnew
    · exact .inl hold
    · rw [List.mem_singleton.mp hnew]
      exact .inr rfl
  | update old new =>
    obtain ⟨r, hr, rfl⟩ := List.mem_map.mp h
    split
    · exact .inr rfl
    · exact .inl hr
  | delete old => exact .inl (List.mem_filter.mp h).1

lemma mem_applyWrites {rows : List NumberRow} {writes : List NumberWrite} {row : NumberRow}
    (h : row ∈ applyWrites rows writes) : row ∈ rows ∨ ∃ w ∈ writes, w.row? = some row := by
  induction writes generalizing rows with
  | nil => exact .inl h
  | cons w writes ih =>
    rcases ih h with hold | ⟨w', hw', hrow⟩
    · rcases mem_apply hold with hmem | hrow
      · exact .inl hmem
      · exact .inr ⟨w, List.mem_cons_self, hrow⟩
    · exact .inr ⟨w', List.mem_cons_of_mem _ hw', hrow⟩

/-- A number that is committed is there already, or it was issued to the session, or it may be
typed. -/
lemma committed_cases (hcounted : t.writes.all (fun w => w.row?.all (fun row =>
      t.issued = some row.number ∨ mayBeTyped T prefixes s row.number)) = true)
    {number : Text} (h : number ∈ (applyWrites s.invoices t.writes).map NumberRow.number) :
    number ∈ s.numbers ∨ t.issued = some number ∨
      ((∀ u ∈ s.sessions, u.issued ≠ some number) ∧ ∀ pre ∈ prefixes, ∀ n, n ≤ maxInteger →
        number = renderNumber pre n →
          covered T s.counters s.sessions (extractInvoiceDateKey T pre) n = true) := by
  obtain ⟨row, hrow, rfl⟩ := List.mem_map.mp h
  rcases mem_applyWrites hrow with hold | ⟨w, hw, hwrow⟩
  · exact .inl (List.mem_map_of_mem hold)
  · have hone := List.all_eq_true.mp hcounted w hw
    rw [hwrow] at hone
    rcases of_decide_eq_true hone with hissued | htyped
    · exact .inr (.inl hissued)
    · rcases of_decide_eq_true htyped with hstored | ⟨hissued, hnumbers⟩
      · exact .inl hstored
      · refine .inr (.inr ⟨?_, ?_⟩)
        · intro u hu
          exact of_decide_eq_true (List.all_eq_true.mp hissued u hu)
        · intro pre hpre n hn heq
          have hall := List.all_eq_true.mp hnumbers pre hpre
          rw [numberOf_eq_some.mpr heq] at hall
          exact of_decide_eq_true hall hn

lemma NumbersInvariant.commit (h : NumbersInvariant T prefixes s)
    (hprefixes : PrefixesApart T prefixes) (ht : s.sessions[i]? = some t)
    (hidle : t.phase = .idle)
    (hcounted : t.writes.all (fun w => w.row?.all (fun row =>
      t.issued = some row.number ∨ mayBeTyped T prefixes s row.number)) = true) :
    NumbersInvariant T prefixes
      { s with
        invoices := applyWrites s.invoices t.writes
        sessions := s.sessions.set i { t with issued := none, writes := [] } } := by
  have hmem := List.mem_of_getElem? ht
  have hok := h.calls t hmem
  -- first the session lets go of its number, then the rows appear
  have hreleased : NumbersInvariant T prefixes
      { s with sessions := s.sessions.set i { t with issued := none, writes := [] } } := by
    refine h.move ht ⟨hok.pre, fun hne => absurd hidle hne, hok.row, hok.index, hok.limit, ?_⟩
      (fun key hkey => .inl hkey) ?_ (fun key m hm => .inl hm)
    · intro number hnumber
      cases hnumber
    · intro number hnumber
      cases hnumber
  refine ⟨?_, hreleased.exclusive, hreleased.issuedApart, ?_, h.returned, h.distinct, h.unstored,
    h.rejected⟩
  · refine (forall_mem_set ht).mpr ⟨?_, ?_⟩
    · refine ⟨hok.pre, fun hne => absurd hidle hne, hok.row, hok.index, hok.limit, ?_⟩
      intro number hnumber
      cases hnumber
    · intro j u hne hu
      have hu' := List.mem_of_getElem? hu
      have huok := h.calls u hu'
      refine ⟨huok.pre, huok.quiet, huok.row, huok.index, huok.limit, ?_⟩
      intro number hnumber
      obtain ⟨hreturned, hnot⟩ := huok.issued number hnumber
      refine ⟨hreturned, ?_⟩
      intro hcommitted
      rcases committed_cases hcounted hcommitted with hold | hissued | ⟨hnobody, -⟩
      · exact hnot hold
      · exact h.issuedApart i j t u (Ne.symm hne) ht hu number hissued hnumber
      · exact hnobody u hu' hnumber
  · intro number hnumber pre hpre n hn heq
    have hsame : Billing.covered T s.counters s.sessions (extractInvoiceDateKey T pre) n = true →
        Billing.covered T s.counters (s.sessions.set i { t with issued := none, writes := [] })
          (extractInvoiceDateKey T pre) n = true := by
      intro hcovered
      obtain ⟨hsome, hseeded⟩ := covered_iff.mp hcovered
      refine covered_iff.mpr ⟨hsome, ?_⟩
      intro hnone
      refine (forall_mem_set ht).mpr ⟨hseeded hnone t hmem, ?_⟩
      intro j u _ hu
      exact hseeded hnone u (List.mem_of_getElem? hu)
    rcases committed_cases hcounted hnumber with hold | hissued | ⟨-, hcovered⟩
    · exact hsame (h.covered number hold pre hpre n hn heq)
    · -- a number that was handed out is not above its counter
      obtain ⟨⟨r, hr, hrnumber⟩, -⟩ := hok.issued number hissued
      obtain ⟨hrpre, lastNo, hlast, hle⟩ := h.returned r hr
      have hinj := hprefixes.number_inj hrpre hpre (hrnumber.trans heq)
      refine covered_iff.mpr ⟨?_, ?_⟩
      · intro last hlast'
        rw [← hinj.1, hlast] at hlast'
        cases hlast'
        rw [← hinj.2]
        exact hle
      · intro hnone
        rw [← hinj.1, hlast] at hnone
        cases hnone
    · exact hsame (hcovered pre hpre n hn heq)

/-! ### Steps -/

variable {s' : NumberState}

lemma NumbersInvariant.startCall (h : NumbersInvariant T prefixes s)
    (ht : s.sessions[i]? = some t) {pre : Text}
    (hcounted : numbersCounted T prefixes s (.session i (.start pre)) = true)
    (hstep : Billing.counterStep T s i t (.start pre) = some (s', t')) :
    NumbersInvariant T prefixes { s' with sessions := s.sessions.set i t' } := by
  have hok := h.calls t (List.mem_of_getElem? ht)
  simp only [numbersCounted, ht] at hcounted
  unfold Billing.counterStep at hstep
  dsimp only at hstep
  split at hstep
  · next hidle =>
    split at hstep
    · cases hstep
      exact h.move ht hok (fun _ hkey => .inl hkey) (fun _ hissued => hissued)
        (fun _ _ hseeded => .inl hseeded)
    · cases hstep
      refine h.restart ht hidle.2 ?_ rfl rfl
      intro pre' attempt hcall
      cases hcall
      exact of_decide_eq_true hcounted
  · cases hstep

lemma NumbersInvariant.selectCounter (h : NumbersInvariant T prefixes s)
    (ht : s.sessions[i]? = some t)
    (hstep : Billing.counterStep T s i t .selectCounter = some (s', t')) :
    NumbersInvariant T prefixes { s' with sessions := s.sessions.set i t' } := by
  have hok := h.calls t (List.mem_of_getElem? ht)
  unfold Billing.counterStep at hstep
  dsimp only at hstep
  split at hstep
  · next pre attempt hphase =>
    have hquiet := hok.quiet (by simp [hphase])
    have hpre := hok.pre pre attempt (by rw [hphase]; rfl)
    split at hstep
    · next lastNo hlookup =>
      split at hstep
      · cases hstep
      · next hlocked =>
        cases hstep
        refine h.phase ht hquiet ?_ ?_ ?_ ?_ ?_ ?_
        · intro pre' attempt' hcall
          cases hcall
          exact hpre
        · intro pre' n hrow
          cases hrow
          exact ⟨lastNo, hlookup, rfl⟩
        · intro pre' attempt' n heq
          cases heq
        · intro pre' n hwritten
          cases hwritten
        · intro key hheld
          cases hheld
          exact .inr (by simpa using hlocked)
        · intro key m hseeded
          cases hseeded
    · cases hstep
      refine h.restart ht hquiet ?_ rfl rfl
      intro pre' attempt' hcall
      cases hcall
      exact hpre
  · cases hstep

lemma NumbersInvariant.updateCounter (h : NumbersInvariant T prefixes s)
    (ht : s.sessions[i]? = some t)
    (hstep : Billing.counterStep T s i t .updateCounter = some (s', t')) :
    NumbersInvariant T prefixes { s' with sessions := s.sessions.set i t' } := by
  have hok := h.calls t (List.mem_of_getElem? ht)
  unfold Billing.counterStep at hstep
  dsimp only at hstep
  split at hstep
  · next pre attempt n hphase =>
    have hquiet := hok.quiet (by simp [hphase])
    split at hstep
    · next hlimit =>
      cases hstep
      refine h.phase ht hquiet ?_ ?_ ?_ ?_ ?_ ?_
      · intro pre' attempt' hcall
        cases hcall
        exact hok.pre pre attempt (by rw [hphase]; rfl)
      · intro pre' n' hrow
        cases hrow
        exact hok.row pre n (by rw [hphase]; rfl)
      · intro pre' attempt' n' heq
        cases heq
      · intro pre' n' hwritten
        cases hwritten
        exact hlimit
      · intro key hheld
        rw [hphase]
        exact .inl hheld
      · intro key m hseeded
        cases hseeded
    · cases hstep
      refine h.restart ht hquiet ?_ rfl rfl
      intro pre' attempt' hcall
      cases hcall
  · cases hstep

lemma NumbersInvariant.selectNumbers (h : NumbersInvariant T prefixes s)
    (hprefixes : PrefixesApart T prefixes) (ht : s.sessions[i]? = some t)
    (hcounted : numbersCounted T prefixes s (.session i .selectNumbers) = true)
    (hstep : Billing.counterStep T s i t .selectNumbers = some (s', t')) :
    NumbersInvariant T prefixes { s' with sessions := s.sessions.set i t' } := by
  have hok := h.calls t (List.mem_of_getElem? ht)
  simp only [numbersCounted, ht] at hcounted
  unfold Billing.counterStep at hstep
  dsimp only at hstep
  split at hstep
  · next pre attempt hphase =>
    cases hstep
    have hpre := hok.pre pre attempt (by rw [hphase]; rfl)
    rw [hphase] at hcounted
    refine h.phase ht (hok.quiet (by simp [hphase])) ?_ ?_ ?_ ?_ ?_ ?_
    · intro pre' attempt' hcall
      cases hcall
      exact hpre
    · intro pre' n' hrow
      cases hrow
    · intro pre' attempt' n' heq
      cases heq
    · intro pre' n' hwritten
      cases hwritten
    · intro key hheld
      cases hheld
    · intro key m hseeded
      cases hseeded
      exact .inr (lt_seed hprefixes hpre hcounted)
  · cases hstep

lemma NumbersInvariant.insertCounter (h : NumbersInvariant T prefixes s)
    (ht : s.sessions[i]? = some t)
    (hstep : Billing.counterStep T s i t .insertCounter = some (s', t')) :
    NumbersInvariant T prefixes { s' with sessions := s.sessions.set i t' } := by
  have hok := h.calls t (List.mem_of_getElem? ht)
  unfold Billing.counterStep at hstep
  dsimp only at hstep
  split at hstep
  · next pre attempt n hphase =>
    have hquiet := hok.quiet (by simp [hphase])
    have hpre := hok.pre pre attempt (by rw [hphase]; rfl)
    split at hstep
    · cases hstep
      refine h.restart ht hquiet ?_ rfl rfl
      intro pre' attempt' hcall
      cases hcall
    · next hlimit =>
      split at hstep
      · cases hstep
        obtain ⟨hheld, hseeded⟩ := held_nextAttempt (T := T) pre attempt
        exact h.restart ht hquiet (pre_nextAttempt hpre) hheld hseeded
      · next hnone =>
        split at hstep
        · cases hstep
        · next hlocked =>
          cases hstep
          refine h.phase ht hquiet ?_ ?_ ?_ ?_ ?_ ?_
          · intro pre' attempt' hcall
            cases hcall
            exact hpre
          · intro pre' n' hrow
            cases hrow
          · intro pre' attempt' n' heq
            cases heq
            exact Option.not_isSome_iff_eq_none.mp hnone
          · intro pre' n' hwritten
            cases hwritten
            omega
          · intro key hheld
            cases hheld
            exact .inr (by simpa using hlocked)
          · intro key m hseeded
            rw [hphase]
            exact .inl hseeded
  · cases hstep

lemma NumbersInvariant.errorCall (h : NumbersInvariant T prefixes s)
    (ht : s.sessions[i]? = some t) {retry : Bool}
    (hstep : Billing.counterStep T s i t (.error retry) = some (s', t')) :
    NumbersInvariant T prefixes { s' with sessions := s.sessions.set i t' } := by
  have hok := h.calls t (List.mem_of_getElem? ht)
  unfold Billing.counterStep at hstep
  dsimp only at hstep
  split at hstep
  · next pre attempt hcall =>
    cases hstep
    have hpre := hok.pre pre attempt hcall
    have hquiet : t.issued = none ∧ t.writes = [] := by
      refine hok.quiet ?_
      intro hidle
      rw [hidle] at hcall
      cases hcall
    obtain ⟨hheld, hseeded⟩ := held_nextAttempt (T := T) pre attempt
    cases retry with
    | true => exact h.restart ht hquiet (pre_nextAttempt hpre) hheld hseeded
    | false =>
      refine h.restart ht hquiet ?_ rfl rfl
      intro pre' attempt' hcall'
      cases hcall'
  · cases hstep

/-- A statement of `next_invoice_number`. -/
lemma NumbersInvariant.counterStep (h : NumbersInvariant T prefixes s)
    (hprefixes : PrefixesApart T prefixes) (ht : s.sessions[i]? = some t) {a : SessionStatement}
    (hcounted : numbersCounted T prefixes s (.session i a) = true)
    (hstep : counterStep T s i t a = some (s', t')) :
    NumbersInvariant T prefixes { s' with sessions := s.sessions.set i t' } := by
  cases a with
  | start pre => exact h.startCall ht hcounted hstep
  | selectCounter => exact h.selectCounter ht hstep
  | updateCounter => exact h.updateCounter ht hstep
  | selectNumbers => exact h.selectNumbers hprefixes ht hcounted hstep
  | insertCounter => exact h.insertCounter ht hstep
  | commitCounter =>
    unfold Billing.counterStep at hstep
    dsimp only at hstep
    split at hstep
    · next pre attempt n hphase =>
      cases hstep
      exact h.commitCounter hprefixes ht (by rw [hphase]; rfl)
    · next pre attempt n hphase =>
      cases hstep
      exact h.commitCounter hprefixes ht (by rw [hphase]; rfl)
    · cases hstep
  | error retry => exact h.errorCall ht hstep
  | storeIssued businessProfileId => cases hstep
  | write w => cases hstep
  | commit => cases hstep
  | rollback => cases hstep

/-- A statement that stores numbers. -/
lemma NumbersInvariant.storeStep (h : NumbersInvariant T prefixes s)
    (hprefixes : PrefixesApart T prefixes) (ht : s.sessions[i]? = some t)
    (hidle : t.phase = .idle) {a : SessionStatement}
    (hcounted : numbersCounted T prefixes s (.session i a) = true)
    (hstep : storeStep s i t a = some (s', t')) :
    NumbersInvariant T prefixes { s' with sessions := s.sessions.set i t' } := by
  have hok := h.calls t (List.mem_of_getElem? ht)
  have hwrites : ∀ issued writes, (∀ number, issued = some number → t.issued = some number) →
      NumbersInvariant T prefixes
        { s with sessions := s.sessions.set i { t with issued := issued, writes := writes } } := by
    intro issued writes hissued
    refine h.move ht ⟨hok.pre, fun hne => absurd hidle hne, hok.row, hok.index, hok.limit, ?_⟩
      (fun key hkey => .inl hkey) hissued (fun key m hm => .inl hm)
    intro number hnumber
    exact hok.issued number (hissued number hnumber)
  cases a with
  | storeIssued businessProfileId =>
    simp only [Billing.storeStep] at hstep
    split at hstep
    · next number hissued =>
      split at hstep
      · cases hstep
      · split at hstep
        · next hrow =>
          -- an issued number is not stored, so the constraint has nothing to reject
          exact absurd (List.mem_map_of_mem hrow) (hok.issued number hissued).2
        · cases hstep
          exact hwrites t.issued _ (fun _ hnumber => hnumber)
    · cases hstep
  | write w =>
    simp only [Billing.storeStep] at hstep
    split at hstep
    · cases hstep
    · split at hstep
      · cases hstep
        exact hwrites t.issued _ (fun _ hnumber => hnumber)
      · cases hstep
        exact hwrites t.issued _ (fun _ hnumber => hnumber)
  | commit =>
    cases hstep
    simp only [numbersCounted, ht] at hcounted
    exact h.commit hprefixes ht hidle hcounted
  | rollback =>
    cases hstep
    refine hwrites none [] ?_
    intro number hnumber
    cases hnumber
  | start pre => cases hstep
  | selectCounter => cases hstep
  | updateCounter => cases hstep
  | selectNumbers => cases hstep
  | insertCounter => cases hstep
  | commitCounter => cases hstep
  | error retry => cases hstep

/-- A new session has no call and no number. -/
lemma NumbersInvariant.connect (h : NumbersInvariant T prefixes s) :
    NumbersInvariant T prefixes { s with sessions := s.sessions ++ [{}] } := by
  refine ⟨?_, ?_, ?_, ?_, h.returned, h.distinct, h.unstored, h.rejected⟩
  · intro t ht
    rcases List.mem_append.mp ht with hold | hnew
    · exact h.calls t hold
    · rw [List.mem_singleton.mp hnew]
      refine ⟨?_, fun hne => absurd rfl hne, ?_, ?_, ?_, ?_⟩
      · intro pre attempt hcall
        cases hcall
      · intro pre n hrow
        cases hrow
      · intro pre attempt n hphase
        cases hphase
      · intro pre n hwritten
        cases hwritten
      · intro number hissued
        cases hissued
  · intro j k t u hjk ht hu key hkey hkey'
    rcases getElem?_concat_cases ht with ⟨-, rfl⟩ | ht
    · cases hkey
    · rcases getElem?_concat_cases hu with ⟨-, rfl⟩ | hu
      · cases hkey'
      · exact h.exclusive j k t u hjk ht hu key hkey hkey'
  · intro j k t u hjk ht hu number hnumber hnumber'
    rcases getElem?_concat_cases ht with ⟨-, rfl⟩ | ht
    · cases hnumber
    · rcases getElem?_concat_cases hu with ⟨-, rfl⟩ | hu
      · cases hnumber'
      · exact h.issuedApart j k t u hjk ht hu number hnumber hnumber'
  · intro number hnumber pre hpre n hn heq
    obtain ⟨hsome, hseeded⟩ := covered_iff.mp (h.covered number hnumber pre hpre n hn heq)
    refine covered_iff.mpr ⟨hsome, ?_⟩
    intro hnone u hu m hm
    rcases List.mem_append.mp hu with hold | hnew
    · exact hseeded hnone u hold m hm
    · rw [List.mem_singleton.mp hnew] at hm
      cases hm

lemma NumbersInvariant.step (h : NumbersInvariant T prefixes s)
    (hprefixes : PrefixesApart T prefixes) {a : NumberAction}
    (hcounted : numbersCounted T prefixes s a = true) (hstep : numberStep T s a = some s') :
    NumbersInvariant T prefixes s' := by
  cases a with
  | connect =>
    cases hstep
    exact h.connect
  | session i a =>
    simp only [numberStep] at hstep
    split at hstep
    · cases hstep
    · next t ht =>
      split at hstep
      · cases hstep
      · next s₁ t₁ hsession =>
        cases hstep
        unfold numberSessionStep at hsession
        split at hsession
        · next r hcounter =>
          cases hsession
          exact h.counterStep hprefixes ht hcounted hcounter
        · split at hsession
          · next hidle => exact h.storeStep hprefixes ht hidle hcounted hsession
          · cases hsession

end Steps

section Runs

variable {T : DigitTables} {prefixes : List Text} {s : NumberState}

lemma numbersInvariant_initial (invoices : List NumberRow) :
    NumbersInvariant T prefixes (.initial invoices) := by
  refine ⟨?_, ?_, ?_, ?_, ?_, .nil, ?_, rfl⟩
  · intro t ht
    cases ht
  · intro i j t u _ ht
    cases ht
  · intro i j t u _ ht
    cases ht
  · intro number _ pre _ n _ _
    rfl
  · intro r hr
    cases hr
  · intro r hr
    cases hr

/-- As long as the numbers that are typed are no numbers that a call has handed out or can hand
out later, and a new counter starts above all numbers of its key, the numbers of the calls are
distinct, no invoice has them when they are handed out, and the constraint rejects none. -/
theorem invoice_numbers_unique (hprefixes : PrefixesApart T prefixes) {invoices : List NumberRow}
    {as : List NumberAction}
    (h : GuardedRun (numberStep T) (fun s a => numbersCounted T prefixes s a = true)
      (.initial invoices) as s) :
    (s.returned.map ReturnedNumber.number).Nodup ∧ (∀ r ∈ s.returned, r.number ∉ r.stored) ∧
      s.rejected = [] := by
  have hI : NumbersInvariant T prefixes s := by
    refine h.invariant (numbersInvariant_initial invoices) ?_
    intro t a u ht hcounted hstep
    exact ht.step hprefixes hcounted hstep
  refine ⟨?_, hI.unstored, hI.rejected⟩
  refine List.pairwise_map.mpr (hI.distinct.imp_of_mem ?_)
  intro r q hr hq hdistinct heq
  exact hdistinct (hprefixes.number_inj (hI.returned r hr).1 (hI.returned q hq).1 heq)

end Runs

/-- The prefix that the routes build from the date of the day. -/
def datePrefix (date : Text) : Text := "INV-".toList ++ date ++ "-".toList

lemma prefixesApart_dates {T : DigitTables} {dates : List Text}
    (hdates : ∀ date ∈ dates, date.length = 8 ∧ ∀ c ∈ date, c.isDigit = true) :
    PrefixesApart T (dates.map datePrefix) := by
  constructor
  · intro pre hpre hescape
    obtain ⟨date, hdate, rfl⟩ := List.mem_map.mp hpre
    simp only [datePrefix, List.mem_append] at hescape
    rcases hescape with (hhead | hdigit) | hlast
    · exact absurd hhead (by decide)
    · exact absurd ((hdates date hdate).2 _ hdigit) (by decide)
    · exact absurd hlast (by decide)
  · intro p hp q hq
    obtain ⟨date, hdate, rfl⟩ := List.mem_map.mp hp
    obtain ⟨date', hdate', rfl⟩ := List.mem_map.mp hq
    by_cases hsame : date = date'
    · exact .inl (by rw [hsame])
    · refine .inr ?_
      intro m n heq
      have hlength : date.length = date'.length :=
        (hdates date hdate).1.trans (hdates date' hdate').1.symm
      simp only [renderNumber, datePrefix, List.append_assoc] at heq
      exact absurd (List.append_inj (List.append_cancel_left heq) hlength).1 hsame

/-- Two first calls of a day at the same time, and typed numbers beside them. -/
def concurrentCalls : List NumberAction :=
  [.connect, .connect, .connect, .session 0 (.start (datePrefix "20260101".toList)),
    .session 1 (.start (datePrefix "20260101".toList)), .session 0 .selectCounter,
    .session 1 .selectCounter, .session 0 .selectNumbers, .session 1 .selectNumbers,
    .session 0 .insertCounter, .session 0 .commitCounter, .session 1 .insertCounter,
    .session 1 .selectCounter, .session 1 .updateCounter, .session 1 .commitCounter,
    .session 2 (.write (.insert ⟨1, "REP-7".toList⟩)),
    .session 2 (.write (.insert ⟨2, "INV-20260101-0002".toList⟩)), .session 2 .commit,
    .session 0 (.storeIssued 1), .session 0 .commit, .session 1 (.storeIssued 1),
    .session 1 .commit]

theorem invoice_numbers_unique_two_callers :
    ∃ s, GuardedRun (numberStep asciiDigitTables)
        (fun s a => numbersCounted asciiDigitTables [datePrefix "20260101".toList] s a = true)
        (.initial [⟨1, "INV-20260101-0003".toList⟩]) concurrentCalls s ∧
      s.returned.map ReturnedNumber.number =
        ["INV-20260101-0005".toList, "INV-20260101-0004".toList] ∧
      (s.returned.map ReturnedNumber.number).Nodup ∧ s.rejected = [] := by
  obtain ⟨s, hrun, hreturned⟩ := exists_guardedRun_of_any (numberStep asciiDigitTables)
    (fun s a => numbersCounted asciiDigitTables [datePrefix "20260101".toList] s a = true)
    (.initial [⟨1, "INV-20260101-0003".toList⟩]) concurrentCalls
    (fun s => s.returned.map ReturnedNumber.number =
      ["INV-20260101-0005".toList, "INV-20260101-0004".toList]) (by decide +kernel)
  have hprefixes : PrefixesApart asciiDigitTables [datePrefix "20260101".toList] :=
    @prefixesApart_dates asciiDigitTables ["20260101".toList] (by decide)
  have hunique := invoice_numbers_unique hprefixes hrun
  exact ⟨s, hrun, of_decide_eq_true hreturned, hunique.1, hunique.2.2⟩

/-- The second automatic number of the day has been typed before. -/
def typedBetweenCalls : List NumberAction :=
  [.connect, .session 0 (.start (datePrefix "20260101".toList)), .session 0 .selectCounter,
    .session 0 .selectNumbers, .session 0 .insertCounter, .session 0 .commitCounter,
    .session 0 (.storeIssued 1), .session 0 .commit,
    .session 0 (.write (.insert ⟨1, "INV-20260101-0002".toList⟩)), .session 0 .commit,
    .session 0 (.start (datePrefix "20260101".toList)), .session 0 .selectCounter,
    .session 0 .updateCounter, .session 0 .commitCounter, .session 0 (.storeIssued 1)]

theorem invoice_number_typed_before :
    ¬∀ (invoices : List NumberRow) (as : List NumberAction) (s : NumberState),
      Run (numberStep asciiDigitTables) (.initial invoices) as s →
        (s.returned.map ReturnedNumber.number).Nodup ∧
          (∀ r ∈ s.returned, r.number ∉ r.stored) ∧ s.rejected = [] := by
  intro h
  obtain ⟨s, hrun, hrejected⟩ := exists_guardedRun_of_any (numberStep asciiDigitTables)
    (fun _ _ => True) (.initial []) typedBetweenCalls
    (fun s => s.rejected = ["INV-20260101-0002".toList]) (by decide +kernel)
  have hnone := (h [] typedBetweenCalls s hrun).2.2
  rw [of_decide_eq_true hrejected] at hnone
  cases hnone

end IpDocket.Billing
