import IpDocket.Case.OurRefReservation

/-!
# Reserved references are distinct

A counter only grows: the `UPDATE` that reserves a number replaces the value it has read, and
the number is higher than that. So no two calls reserve the same number of the same counter,
and the references differ as long as a reference determines its counter and its number. The
search for a free number skips the references that are stored.
-/

namespace IpDocket.Case
open IpDocket.Lib

/-- No call gives up the reservation: its sixth `UPDATE` finds the value it has read, and no
statement of `_reserve_next_seq` fails. -/
def staysReserved (s : NumberingState) : NumberingAction → Bool
  | .session _ .error => false
  | .session i .updateCounter =>
    (s.sessions[i]?).all (fun t =>
      match t.phase with
      | .updating scheme _ tries row _ =>
        tries + 1 < 6 ∨ t.counter s.counters scheme.counterKey = some (row.getD 0)
      | _ => true)
  | _ => true

/-- Two schemes are the same, or a text that both render comes from one number of one
counter. -/
def SchemesApart (T : UnicodeTables) (p q : OurRefScheme) : Prop :=
  p = q ∨ ∀ m n ref, p.build T m = some ref → q.build T n = some ref →
    p.counterKey = q.counterKey ∧ m = n

/-- The number `seq` of the counter `key` has been handed out: whoever sees the counter
sees a value that is at least `seq`. -/
structure HandedOut (s : NumberingState) (key : Text) (seq : Nat) : Prop where
  own : ∀ t ∈ s.sessions, ∀ v, t.counters.lookup key = some v → seq ≤ v
  committed : (∀ t ∈ s.sessions, t.counters.lookup key = none) →
    ∃ v, s.counters.lookup key = some v ∧ seq ≤ v

/-- The scheme of the call in progress. -/
def ReservePhase.scheme? : ReservePhase → Option OurRefScheme
  | .idle => none
  | .started scheme => some scheme
  | .counted scheme _ => some scheme
  | .reading scheme _ _ => some scheme
  | .probing scheme _ _ _ _ => some scheme
  | .updating scheme _ _ _ _ => some scheme

/-- The call is searching for a free number, or about to reserve it. -/
def ReservePhase.searching : ReservePhase → Bool
  | .probing _ _ _ _ _ => true
  | .updating _ _ _ _ _ => true
  | _ => false

section Invariant

variable (T : UnicodeTables)

structure SessionOk (matters : List Text) (started : List OurRefScheme) (t : Session) : Prop where
  stored : ∀ ref ∈ t.stored, ref ∈ matters ∨ ref ∈ t.matters
  scheme : ∀ scheme, t.phase.scheme? = some scheme → scheme ∈ started
  probing : ∀ scheme maxSeq tries row next,
    t.phase = .probing scheme maxSeq tries row next → row.getD 0 < next
  updating : ∀ scheme maxSeq tries row next,
    t.phase = .updating scheme maxSeq tries row next →
      row.getD 0 < next ∧ ∃ ref, scheme.build T next = some ref ∧ ref ∉ t.stored

structure NumberingInvariant (s : NumberingState) : Prop where
  sessions : ∀ t ∈ s.sessions, SessionOk T s.matters s.started t
  handedOut : ∀ r ∈ s.returned, HandedOut s r.scheme.counterKey r.seq
  distinct : s.returned.Pairwise (fun r q =>
    ¬(r.scheme.counterKey = q.scheme.counterKey ∧ r.seq = q.seq))
  schemes : ∀ r ∈ s.returned, r.scheme ∈ s.started
  built : ∀ r ∈ s.returned, r.scheme.build T r.seq = some r.ref
  unstored : ∀ r ∈ s.returned, r.ref ∉ r.stored

end Invariant

section Steps

variable {T : UnicodeTables} {config : JsonObject} {s s' : NumberingState} {t t' : Session}
  {i : Nat}

/-- What the other sessions need: nothing that they rely on goes away. -/
lemma SessionOk.of_le {matters matters' : List Text} {started started' : List OurRefScheme}
    (h : SessionOk T matters started t) (hmatters : ∀ ref ∈ matters, ref ∈ matters')
    (hstarted : ∀ scheme ∈ started, scheme ∈ started') : SessionOk T matters' started' t := by
  refine ⟨?_, fun scheme hscheme => hstarted scheme (h.scheme scheme hscheme), h.probing,
    h.updating⟩
  intro ref href
  rcases h.stored ref href with hmem | hown
  · exact .inl (hmatters ref hmem)
  · exact .inr hown

/-- A session outside of the search for a free number. -/
lemma SessionOk.of_not_searching {matters : List Text} {started : List OurRefScheme}
    (hstored : ∀ ref ∈ t.stored, ref ∈ matters ∨ ref ∈ t.matters)
    (hscheme : ∀ scheme, t.phase.scheme? = some scheme → scheme ∈ started)
    (hphase : t.phase.searching = false) : SessionOk T matters started t := by
  refine ⟨hstored, hscheme, ?_, ?_⟩
  · intro scheme maxSeq tries row next heq
    rw [heq] at hphase
    cases hphase
  · intro scheme maxSeq tries row next heq
    rw [heq] at hphase
    cases hphase

/-- The call of the session goes on outside of the search, or ends. -/
lemma SessionOk.next {matters : List Text} {started : List OurRefScheme}
    (h : SessionOk T matters started t) {counters : List (Text × Nat)} {phase : ReservePhase}
    (hscheme : ∀ scheme, phase.scheme? = some scheme → t.phase.scheme? = some scheme)
    (hphase : phase.searching = false) :
    SessionOk T matters started { t with counters := counters, phase := phase } :=
  .of_not_searching h.stored (fun scheme heq => h.scheme scheme (hscheme scheme heq)) hphase

/-- The sessions that hold no lock on the counter have not written it. -/
lemma lookup_of_unlocked {key : Text} (hlocked : s.locked i key = false) (j : Nat) (u : Session)
    (hne : j ≠ i) (hu : s.sessions[j]? = some u) : u.counters.lookup key = none := by
  have hmem : u ∈ s.sessions.eraseIdx i := List.mem_eraseIdx_iff_getElem?.mpr ⟨j, hne, hu⟩
  have hnot := List.any_eq_false.mp hlocked u hmem
  exact Option.not_isSome_iff_eq_none.mp hnot

section HandedOut

variable {key : Text} {seq : Nat}

/-- Neither session `i` nor another one has written the counter. -/
lemma lookup_eq_none (ht : s.sessions[i]? = some t) (hown : t.counters.lookup key = none)
    (hothers : ∀ (j : Nat) u, j ≠ i → s.sessions[j]? = some u → u.counters.lookup key = none) :
    ∀ u ∈ s.sessions, u.counters.lookup key = none := by
  intro u hu
  obtain ⟨j, hj⟩ := List.mem_iff_getElem?.mp hu
  by_cases hij : j = i
  · subst hij
    rw [ht] at hj
    cases hj
    exact hown
  · exact hothers j u hij hj

/-- A step of one session that commits nothing. -/
lemma HandedOut.of_set (h : HandedOut s key seq) (ht : s.sessions[i]? = some t)
    (hsessions : s'.sessions = s.sessions.set i t') (hcounters : s'.counters = s.counters)
    (hown : ∀ v, t'.counters.lookup key = some v → seq ≤ v)
    (hkeeps : t'.counters.lookup key = none → t.counters.lookup key = none) :
    HandedOut s' key seq := by
  constructor
  · rw [hsessions, forall_mem_set ht]
    exact ⟨hown, fun j u _ hu => h.own u (List.mem_of_getElem? hu)⟩
  · rw [hsessions, forall_mem_set ht, hcounters]
    rintro ⟨hnew, hothers⟩
    exact h.committed (lookup_eq_none ht (hkeeps hnew) hothers)

/-- The session has not written the counter in the step. -/
lemma HandedOut.of_lookup (h : HandedOut s key seq) (ht : s.sessions[i]? = some t)
    (hsessions : s'.sessions = s.sessions.set i t') (hcounters : s'.counters = s.counters)
    (hlookup : t'.counters.lookup key = t.counters.lookup key) : HandedOut s' key seq := by
  apply h.of_set ht hsessions hcounters
  · rw [hlookup]
    exact h.own t (List.mem_of_getElem? ht)
  · rw [hlookup]
    exact id

lemma HandedOut.commit (h : HandedOut s key seq) (ht : s.sessions[i]? = some t)
    (hsessions : s'.sessions = s.sessions.set i t') (hempty : t'.counters = [])
    (hcounters : s'.counters = t.counters ++ s.counters) : HandedOut s' key seq := by
  constructor
  · rw [hsessions, forall_mem_set ht, hempty]
    refine ⟨?_, fun j u _ hu => h.own u (List.mem_of_getElem? hu)⟩
    intro v hv
    cases hv
  · rw [hsessions, forall_mem_set ht, hcounters, List.lookup_append]
    rintro ⟨-, hothers⟩
    cases hown : t.counters.lookup key with
    | some v => exact ⟨v, rfl, h.own t (List.mem_of_getElem? ht) v hown⟩
    | none => exact h.committed (lookup_eq_none ht hown hothers)

/-- The session that may write the counter sees a value that is high enough. -/
lemma HandedOut.le_counter (h : HandedOut s key seq) (ht : s.sessions[i]? = some t)
    (hlocked : s.locked i key = false) :
    ∃ v, t.counter s.counters key = some v ∧ seq ≤ v := by
  unfold Session.counter
  cases hown : t.counters.lookup key with
  | some v => exact ⟨v, rfl, h.own t (List.mem_of_getElem? ht) v hown⟩
  | none => exact h.committed (lookup_eq_none ht hown (lookup_of_unlocked hlocked))

end HandedOut

/-- A step of one session after which the numbers are still handed out. -/
lemma NumberingInvariant.move (h : NumberingInvariant T s) (ht : s.sessions[i]? = some t)
    (hsessions : s'.sessions = s.sessions.set i t') (hreturned : s'.returned = s.returned)
    (hmatters : ∀ ref ∈ s.matters, ref ∈ s'.matters)
    (hstarted : ∀ scheme ∈ s.started, scheme ∈ s'.started)
    (hok : SessionOk T s'.matters s'.started t')
    (hhanded : ∀ r ∈ s.returned, HandedOut s' r.scheme.counterKey r.seq) :
    NumberingInvariant T s' := by
  constructor
  · rw [hsessions, forall_mem_set ht]
    refine ⟨hok, ?_⟩
    intro j u _ hu
    exact (h.sessions u (List.mem_of_getElem? hu)).of_le hmatters hstarted
  · rw [hreturned]
    exact hhanded
  · rw [hreturned]
    exact h.distinct
  · rw [hreturned]
    exact fun r hr => hstarted r.scheme (h.schemes r hr)
  · rw [hreturned]
    exact h.built
  · rw [hreturned]
    exact h.unstored

/-- A step of one session that writes no counter. -/
lemma NumberingInvariant.quiet (h : NumberingInvariant T s) (ht : s.sessions[i]? = some t)
    {started : List OurRefScheme} (hstarted : ∀ scheme ∈ s.started, scheme ∈ started)
    (hcounters : t'.counters = t.counters) (hok : SessionOk T s.matters started t') :
    NumberingInvariant T { s with started := started, sessions := s.sessions.set i t' } := by
  refine h.move ht rfl rfl (fun _ hmem => hmem) hstarted hok ?_
  intro r hr
  exact (h.handedOut r hr).of_lookup ht rfl rfl (by rw [hcounters])

/-- A new counter: nothing of it has been handed out. -/
lemma NumberingInvariant.insertCounter (h : NumberingInvariant T s)
    (ht : s.sessions[i]? = some t) {key : Text} {value : Nat}
    (hnone : t.counter s.counters key = none) (hlocked : s.locked i key = false)
    (hcounters : t'.counters = (key, value) :: t.counters)
    (hok : SessionOk T s.matters s.started t') :
    NumberingInvariant T { s with sessions := s.sessions.set i t' } := by
  refine h.move ht rfl rfl (fun _ hmem => hmem) (fun _ hmem => hmem) hok ?_
  intro r hr
  have hr' := h.handedOut r hr
  have hkey : r.scheme.counterKey ≠ key := by
    intro heq
    rw [heq] at hr'
    obtain ⟨v, hv, -⟩ := hr'.le_counter ht hlocked
    rw [hnone] at hv
    cases hv
  refine hr'.of_lookup ht rfl rfl ?_
  rw [hcounters, List.lookup_cons, beq_false_of_ne hkey]

/-- The reservation: the new number is above all the numbers of its counter. -/
lemma NumberingInvariant.reserve (h : NumberingInvariant T s) (ht : s.sessions[i]? = some t)
    {scheme : OurRefScheme} {maxSeq tries next : Nat} {row : Option Nat}
    (hphase : t.phase = .updating scheme maxSeq tries row next) {ref : Text}
    (hbuilt : scheme.build T next = some ref) (hlocked : s.locked i scheme.counterKey = false)
    (hvalue : t.counter s.counters scheme.counterKey = some (row.getD 0))
    (hcounters : t'.counters = (scheme.counterKey, next) :: t.counters)
    (hok : SessionOk T s.matters s.started t') :
    NumberingInvariant T { s with
      returned := ⟨scheme, next, ref, t.stored⟩ :: s.returned
      sessions := s.sessions.set i t' } := by
  have htOk := h.sessions t (List.mem_of_getElem? ht)
  obtain ⟨hnext, ref', hbuilt', hunstored⟩ := htOk.updating scheme maxSeq tries row next hphase
  obtain rfl : ref' = ref := Option.some.inj (hbuilt'.symm.trans hbuilt)
  have hself : t'.counters.lookup scheme.counterKey = some next := by
    rw [hcounters, List.lookup_cons_self]
  have hbelow : ∀ r ∈ s.returned, r.scheme.counterKey = scheme.counterKey → r.seq < next := by
    intro r hr heq
    have hr' := h.handedOut r hr
    rw [heq] at hr'
    obtain ⟨v, hv, hle⟩ := hr'.le_counter ht hlocked
    rw [hvalue] at hv
    cases hv
    omega
  constructor
  · rw [forall_mem_set ht]
    exact ⟨hok, fun j u _ hu => h.sessions u (List.mem_of_getElem? hu)⟩
  · intro r hr
    rcases List.mem_cons.mp hr with rfl | hold
    · constructor
      · rw [forall_mem_set ht]
        constructor
        · intro v hv
          rw [hself] at hv
          cases hv
          exact Nat.le_refl _
        · intro j u hne hu v hv
          rw [lookup_of_unlocked hlocked j u hne hu] at hv
          cases hv
      · rw [forall_mem_set ht]
        rintro ⟨hnone, -⟩
        rw [hself] at hnone
        cases hnone
    · have hr' := h.handedOut r hold
      by_cases hkey : r.scheme.counterKey = scheme.counterKey
      · refine hr'.of_set ht rfl rfl ?_ ?_
        · intro v hv
          rw [hkey, hself] at hv
          cases hv
          exact Nat.le_of_lt (hbelow r hold hkey)
        · intro hnone
          rw [hkey, hself] at hnone
          cases hnone
      · refine hr'.of_lookup ht rfl rfl ?_
        rw [hcounters, List.lookup_cons, beq_false_of_ne hkey]
  · refine List.pairwise_cons.mpr ⟨?_, h.distinct⟩
    rintro r hr ⟨hkey, hseq⟩
    have := hbelow r hr hkey.symm
    dsimp only at hseq
    omega
  · intro r hr
    rcases List.mem_cons.mp hr with rfl | hold
    · apply htOk.scheme
      rw [hphase]
      rfl
    · exact h.schemes r hold
  · intro r hr
    rcases List.mem_cons.mp hr with rfl | hold
    · exact hbuilt
    · exact h.built r hold
  · intro r hr
    rcases List.mem_cons.mp hr with rfl | hold
    · exact hunstored
    · exact h.unstored r hold

lemma NumberingInvariant.commit (h : NumberingInvariant T s) (ht : s.sessions[i]? = some t) :
    NumberingInvariant T { s with
      counters := t.counters ++ s.counters
      matters := t.matters ++ s.matters
      sessions := s.sessions.set i { t with counters := [], matters := [] } } := by
  have htOk := h.sessions t (List.mem_of_getElem? ht)
  refine h.move ht rfl rfl (fun _ hmem => List.mem_append_right _ hmem) (fun _ hmem => hmem) ?_ ?_
  · refine ⟨?_, htOk.scheme, htOk.probing, htOk.updating⟩
    intro ref href
    apply Or.inl
    rcases htOk.stored ref href with hmem | hown
    · exact List.mem_append_right _ hmem
    · exact List.mem_append_left _ hown
  · intro r hr
    exact (h.handedOut r hr).commit ht rfl rfl rfl

/-- The references that were removed no longer count as stored. -/
lemma NumberingInvariant.remove (h : NumberingInvariant T s) (ref : Text) :
    NumberingInvariant T { s with
      matters := s.matters.filter (· ≠ ref)
      sessions := s.sessions.map (fun t => { t with stored := t.stored.filter (· ≠ ref) }) } := by
  refine ⟨?_, ?_, h.distinct, h.schemes, h.built, h.unstored⟩
  · intro u hu
    obtain ⟨t, ht, rfl⟩ := List.mem_map.mp hu
    have htOk := h.sessions t ht
    refine ⟨?_, htOk.scheme, htOk.probing, ?_⟩
    · intro q hq
      obtain ⟨hmem, hne⟩ := List.mem_filter.mp hq
      rcases htOk.stored q hmem with hstored | hown
      · exact .inl (List.mem_filter.mpr ⟨hstored, hne⟩)
      · exact .inr hown
    · intro scheme maxSeq tries row next hphase
      obtain ⟨hnext, ref', hbuilt, hunstored⟩ :=
        htOk.updating scheme maxSeq tries row next hphase
      exact ⟨hnext, ref', hbuilt, fun hmem => hunstored (List.mem_filter.mp hmem).1⟩
  · intro r hr
    have hr' := h.handedOut r hr
    constructor
    · intro u hu
      obtain ⟨t, ht, rfl⟩ := List.mem_map.mp hu
      exact hr'.own t ht
    · intro hnone
      apply hr'.committed
      intro t ht
      exact hnone { t with stored := t.stored.filter (· ≠ ref) } (List.mem_map.mpr ⟨t, ht, rfl⟩)

section Session

variable (h : NumberingInvariant T s) (ht : s.sessions[i]? = some t)

include h ht

lemma NumberingInvariant.start {division matterType country : Text} {today : Date}
    (hstep : sessionStep T config s i t (.start division matterType country today) =
      some (s', t')) : NumberingInvariant T { s' with sessions := s.sessions.set i t' } := by
  rw [sessionStep] at hstep
  split at hstep
  · split at hstep
    · cases hstep
      exact h.quiet ht (fun _ hmem => hmem) rfl (h.sessions t (List.mem_of_getElem? ht))
    · next scheme _ =>
      cases hstep
      refine h.quiet ht (fun _ hmem => List.mem_cons_of_mem _ hmem) rfl
        (.of_not_searching ?_ ?_ rfl)
      · intro ref href
        exact List.mem_append.mp href
      · intro p hp
        cases hp
        exact List.mem_cons_self
  · cases hstep

lemma NumberingInvariant.selectRefs (hstep : sessionStep T config s i t .selectRefs = some (s', t')) :
    NumberingInvariant T { s' with sessions := s.sessions.set i t' } := by
  rw [sessionStep] at hstep
  split at hstep
  · next hphase =>
    cases hstep
    refine h.quiet ht (fun _ hmem => hmem) rfl ((h.sessions t (List.mem_of_getElem? ht)).next ?_ rfl)
    rw [hphase]
    exact fun _ heq => heq
  · cases hstep

lemma NumberingInvariant.firstCounter
    (hstep : sessionStep T config s i t .insertCounter = some (s', t')) :
    NumberingInvariant T { s' with sessions := s.sessions.set i t' } := by
  rw [sessionStep] at hstep
  split at hstep
  · next scheme maxSeq hphase =>
    dsimp only at hstep
    have hnext : ∀ counters, SessionOk T s.matters s.started
        { t with counters := counters, phase := .reading scheme maxSeq 0 } := by
      intro counters
      refine (h.sessions t (List.mem_of_getElem? ht)).next ?_ rfl
      rw [hphase]
      exact fun _ heq => heq
    split at hstep
    · next hnone =>
      split at hstep
      · cases hstep
      · next hlocked =>
        cases hstep
        exact h.insertCounter ht hnone (by simpa using hlocked) rfl (hnext _)
    · cases hstep
      exact h.quiet ht (fun _ hmem => hmem) rfl (hnext _)
  · cases hstep

/-- The search begins above the value that was read. -/
lemma NumberingInvariant.selectCounter
    (hstep : sessionStep T config s i t .selectCounter = some (s', t')) :
    NumberingInvariant T { s' with sessions := s.sessions.set i t' } := by
  have htOk := h.sessions t (List.mem_of_getElem? ht)
  rw [sessionStep] at hstep
  split at hstep
  · next hphase =>
    cases hstep
    refine h.quiet ht (fun _ hmem => hmem) rfl ⟨htOk.stored, ?_, ?_, nofun⟩
    · intro scheme heq
      apply htOk.scheme scheme
      rw [hphase]
      exact heq
    · intro scheme maxSeq tries row next heq
      cases heq
      omega
  · cases hstep

/-- The number that is found belongs to no stored reference. -/
lemma NumberingInvariant.probe (hstep : sessionStep T config s i t .probe = some (s', t')) :
    NumberingInvariant T { s' with sessions := s.sessions.set i t' } := by
  have htOk := h.sessions t (List.mem_of_getElem? ht)
  rw [sessionStep] at hstep
  split at hstep
  · next scheme maxSeq tries row next hphase =>
    have hrow := htOk.probing scheme maxSeq tries row next hphase
    have hscheme : scheme ∈ s.started := htOk.scheme scheme (by rw [hphase]; rfl)
    split at hstep
    · cases hstep
    · next ref hbuilt =>
      split at hstep
      · cases hstep
        refine h.quiet ht (fun _ hmem => hmem) rfl ⟨htOk.stored, ?_, ?_, nofun⟩
        · intro p hp
          cases hp
          exact hscheme
        · intro p m k r n heq
          cases heq
          omega
      · next hfree =>
        cases hstep
        refine h.quiet ht (fun _ hmem => hmem) rfl ⟨htOk.stored, ?_, nofun, ?_⟩
        · intro p hp
          cases hp
          exact hscheme
        · intro p m k r n heq
          cases heq
          refine ⟨hrow, ref, hbuilt, ?_⟩
          intro hmem
          exact hfree (List.mem_append.mpr (htOk.stored _ hmem))
  · cases hstep

/-- An `UPDATE` reserves the number, or the call tries again. -/
lemma NumberingInvariant.updateCounter (hstays : staysReserved s (.session i .updateCounter) = true)
    (hstep : sessionStep T config s i t .updateCounter = some (s', t')) :
    NumberingInvariant T { s' with sessions := s.sessions.set i t' } := by
  have htOk := h.sessions t (List.mem_of_getElem? ht)
  rw [sessionStep] at hstep
  split at hstep
  · next scheme maxSeq tries row next hphase =>
    dsimp only at hstep
    split at hstep
    · cases hstep
    · next hlocked =>
      have hlocked : s.locked i scheme.counterKey = false := by simpa using hlocked
      split at hstep
      · next hvalue =>
        obtain ⟨-, ref, hbuilt, -⟩ := htOk.updating scheme maxSeq tries row next hphase
        rw [returnRef, hbuilt] at hstep
        cases hstep
        exact h.reserve ht hphase hbuilt hlocked hvalue rfl (htOk.next nofun rfl)
      · next hvalue =>
        split at hstep
        · cases hstep
          refine h.quiet ht (fun _ hmem => hmem) rfl (htOk.next ?_ rfl)
          rw [hphase]
          exact fun _ heq => heq
        · next htries =>
          simp only [staysReserved, ht, Option.all_some, hphase, decide_eq_true_eq] at hstays
          exact absurd hstays (not_or.mpr ⟨htries, hvalue⟩)
  · cases hstep

lemma NumberingInvariant.save {ref : Text}
    (hstep : sessionStep T config s i t (.save ref) = some (s', t')) :
    NumberingInvariant T { s' with sessions := s.sessions.set i t' } := by
  have htOk := h.sessions t (List.mem_of_getElem? ht)
  rw [sessionStep] at hstep
  split at hstep
  · cases hstep
    refine h.quiet ht (fun _ hmem => hmem) rfl ⟨?_, htOk.scheme, htOk.probing, htOk.updating⟩
    intro q hq
    rcases htOk.stored q hq with hmem | hown
    · exact .inl hmem
    · exact .inr (List.mem_cons_of_mem _ hown)
  · cases hstep

/-- One statement of one session. -/
lemma NumberingInvariant.session {a : SessionAction}
    (hstays : staysReserved s (.session i a) = true)
    (hstep : sessionStep T config s i t a = some (s', t')) :
    NumberingInvariant T { s' with sessions := s.sessions.set i t' } := by
  cases a with
  | start division matterType country today => exact h.start ht hstep
  | selectRefs => exact h.selectRefs ht hstep
  | insertCounter => exact h.firstCounter ht hstep
  | selectCounter => exact h.selectCounter ht hstep
  | probe => exact h.probe ht hstep
  | updateCounter => exact h.updateCounter ht hstays hstep
  | error => cases hstays
  | save ref => exact h.save ht hstep
  | commit =>
    rw [sessionStep] at hstep
    split at hstep
    · cases hstep
      exact h.commit ht
    · cases hstep

end Session

lemma NumberingInvariant.step (h : NumberingInvariant T s) {a : NumberingAction}
    (hstays : staysReserved s a = true) (hstep : numberingStep T config s a = some s') :
    NumberingInvariant T s' := by
  cases a with
  | connect =>
    cases hstep
    refine ⟨?_, ?_, h.distinct, h.schemes, h.built, h.unstored⟩
    · intro t ht
      rcases List.mem_append.mp ht with hold | hnew
      · exact h.sessions t hold
      · rw [List.mem_singleton.mp hnew]
        exact .of_not_searching nofun nofun rfl
    · intro r hr
      have hr' := h.handedOut r hr
      constructor
      · intro t ht v hv
        rcases List.mem_append.mp ht with hold | hnew
        · exact hr'.own t hold v hv
        · rw [List.mem_singleton.mp hnew] at hv
          cases hv
      · intro hnone
        exact hr'.committed (fun t ht => hnone t (List.mem_append_left _ ht))
  | remove ref =>
    cases hstep
    exact h.remove ref
  | session i a =>
    rw [numberingStep] at hstep
    split at hstep
    · cases hstep
    · next ht =>
      split at hstep
      · cases hstep
      · next hs =>
        cases hstep
        exact h.session ht hstays hs

end Steps

/-- Two references of apart schemes differ when they do not come from the same number of the
same counter. -/
lemma ref_ne_of_apart {T : UnicodeTables} {p q : OurRefScheme} {m n : Nat} {u v : Text}
    (hapart : SchemesApart T p q) (hu : p.build T m = some u) (hv : q.build T n = some v)
    (hdiff : ¬(p.counterKey = q.counterKey ∧ m = n)) : u ≠ v := by
  rintro rfl
  rcases hapart with rfl | hapart
  · exact hdiff ⟨rfl, renderTemplate_inj hu hv⟩
  · exact hdiff (hapart m n u hu hv)

/-- Schemes are apart where neither text before the number begins with the other. -/
lemma schemesApart_of_prefixes {T : UnicodeTables} {schemes : List OurRefScheme}
    (h : ∀ p ∈ schemes, ∀ q ∈ schemes, p = q ∨
      ¬(compileTemplatePattern T p.template.parts p.values false).1 <+:
        (compileTemplatePattern T q.template.parts q.values false).1 ∧
      ¬(compileTemplatePattern T q.template.parts q.values false).1 <+:
        (compileTemplatePattern T p.template.parts p.values false).1) :
    ∀ p ∈ schemes, ∀ q ∈ schemes, SchemesApart T p q := by
  intro p hp q hq
  rcases h p hp q hq with heq | ⟨hpq, hqp⟩
  · exact .inl heq
  · apply Or.inr
    intro m n ref hm hn
    rcases List.prefix_or_prefix_of_prefix (compiled_startsWith false hm)
      (compiled_startsWith false hn) with hfirst | hsecond
    · exact absurd hfirst hpq
    · exact absurd hsecond hqp

/-- When no call gives up its reservation and the schemes of the calls are apart, all
references that the calls return are distinct, and none of them was stored during the call. -/
theorem our_refs_distinct {T : UnicodeTables} {config : JsonObject} {counters : List (Text × Nat)}
    {matters : List Text} {as : List NumberingAction} {s : NumberingState}
    (h : GuardedRun (numberingStep T config) (fun s a => staysReserved s a = true)
      (.initial counters matters) as s)
    (hapart : ∀ p ∈ s.started, ∀ q ∈ s.started, SchemesApart T p q) :
    s.returned.Pairwise (fun r q => r.ref ≠ q.ref) ∧ ∀ r ∈ s.returned, r.ref ∉ r.stored := by
  have hinv : NumberingInvariant T s := by
    refine h.invariant ⟨nofun, nofun, .nil, nofun, nofun, nofun⟩ ?_
    intro t a u ht hstays hstep
    exact ht.step hstays hstep
  refine ⟨?_, hinv.unstored⟩
  apply hinv.distinct.imp_of_mem
  intro r q hr hq hdiff
  exact ref_ne_of_apart (hapart _ (hinv.schemes r hr) _ (hinv.schemes q hq)) (hinv.built r hr)
    (hinv.built q hq) hdiff

/-- A call of the session `i` up to its first `UPDATE`. -/
def callUntilUpdate (i : Nat) (division matterType country : String) : List NumberingAction :=
  [.start division.toList matterType.toList country.toList ⟨2026, 3, 5⟩, .selectRefs,
    .insertCounter, .selectCounter, .probe].map (NumberingAction.session i)

def updateAndCommit (i : Nat) : List NumberingAction :=
  [.session i .updateCounter, .session i .commit]

/-- Two calls for patents, with the counter at 6 and the number 7 stored, and one for a design:
the second patent reads the counter before the first one has written it, and tries again. -/
theorem our_refs_distinct_same_counter :
    ∃ s, GuardedRun (numberingStep asciiTables []) (fun s a => staysReserved s a = true)
        (.initial [("our_ref_counter:USP26:US".toList, 6)] ["USP260007".toList])
        ([.connect, .connect, .connect] ++ callUntilUpdate 0 "DOM" "PATENT" "US" ++
          callUntilUpdate 2 "DOM" "DESIGN" "US" ++ callUntilUpdate 1 "dom" "patent" "" ++
          updateAndCommit 0 ++ updateAndCommit 2 ++
          [.session 1 .updateCounter, .session 1 .selectCounter, .session 1 .probe] ++
          updateAndCommit 1) s ∧
      s.returned.map (fun r => String.ofList r.ref) = ["USP260009", "USD260001", "USP260008"] ∧
      s.returned.Pairwise (fun r q => r.ref ≠ q.ref) ∧ ∀ r ∈ s.returned, r.ref ∉ r.stored :=
  exists_guardedRun rfl (fun hrun => ⟨by decide +kernel,
    our_refs_distinct hrun (schemesApart_of_prefixes (by decide +kernel))⟩)

/-- Two calls, one after the other, for two countries. -/
def callForTwoCountries : List NumberingAction :=
  [NumberingAction.connect, .connect] ++ callUntilUpdate 0 "" "PCT" "US" ++ updateAndCommit 0 ++
    callUntilUpdate 1 "" "PCT" "KR" ++ updateAndCommit 1

/-- An international application has one template for all countries, but a counter for each
country. -/
theorem our_refs_of_two_countries_equal :
    ¬∀ (config : JsonObject) (as : List NumberingAction) (s : NumberingState),
      validateOurRefNumberingConfigPayload asciiTables config = [] →
      Run (numberingStep asciiTables config) (.initial [] []) as s →
      s.returned.Pairwise (fun r q => r.ref ≠ q.ref) := by
  intro h
  have hrun : Run (numberingStep asciiTables []) (.initial [] []) callForTwoCountries _ :=
    guardedRun_of_execute rfl
  have hdistinct := h [] _ _ rfl hrun
  revert hdistinct
  decide

end IpDocket.Case
