import IpDocket.Billing.InsertIds

/-!
# Inserts that do not overlap

The window of an `INSERT` goes from the statement to its `setval`. While windows do not
overlap, the row of the connection in its window is the highest row there is, so that
`MAX(id)` is its id and `setval` never moves the sequence back.
-/

namespace IpDocket.Billing
open IpDocket.Lib

/-- No `INSERT` comes between another connection's `INSERT` and its `setval`, and nobody
removes the inserted row there; no `INSERT` is skipped; the `SELECT MAX(id)` after an `INSERT` does
not fail; an explicit id is not below the sequence, and its `setval` does not fail. -/
def windowsApart (s : SequenceState) : SequenceAction → Bool
  | .connect => true
  | .conn i a =>
    (s.conns[i]?).all (fun c =>
      match a with
      | .insert kind =>
        (s.conns.eraseIdx i).all (fun d => d.phase = .idle) &&
          match kind with
          | .explicit id => s.last ≤ id
          | .skipped => false
          | _ => true
      | .delete id =>
        ¬c.inTransaction → (s.conns.eraseIdx i).all (fun d => d.phase.row ≠ some id)
      | .commit =>
        (s.conns.eraseIdx i).all (fun d => d.phase.row.all (fun id => id ∉ c.deleted))
      | .selectMaxError => false
      | .setvalError => c.phase.row.all (· ≤ s.last)
      | .disconnect => c.phase.row.all (· ≤ s.last)
      | _ => true)

/-- What holds of every connection: its rows are at most `high`, and a connection in the
middle of an `INSERT` has inserted the row `high` and sees it. -/
structure ConnectionOk (high : Nat) (committed : List Nat) (c : Connection) : Prop where
  own : ∀ id ∈ c.own, id ≤ high
  deleted : c.inTransaction = false → c.deleted = []
  window : ∀ id, c.phase.row = some id → id = high ∧ id ∈ visibleIds committed c
  rowless : c.phase.row = none → c.phase = .idle
  selected : ∀ row lastId, c.phase = .selected row lastId → lastId = row

structure SequenceInvariant (s : SequenceState) : Prop where
  rows : ∀ id ∈ s.committed, id ≤ s.high
  conns : ∀ (j : Nat) c, s.conns[j]? = some c → ConnectionOk s.high s.committed c
  last : s.last ≤ s.high
  handed : ∀ id ∈ s.handed, id ≤ s.last
  returned : ∀ id v, (some id, v) ∈ s.returned → v = some id
  failures : s.failures = 0
  lag : s.last < s.high → ∃ (j : Nat) (c : Connection), s.conns[j]? = some c ∧ c.phase ≠ .idle

lemma ConnectionOk.of_idle {high : Nat} {committed : List Nat} {c : Connection}
    (hown : ∀ id ∈ c.own, id ≤ high) (hdeleted : c.inTransaction = false → c.deleted = [])
    (hidle : c.phase = .idle) : ConnectionOk high committed c := by
  refine ⟨hown, hdeleted, ?_, fun _ => hidle, ?_⟩
  · intro id hid
    rw [hidle] at hid
    cases hid
  · intro row lastId hphase
    rw [hidle] at hphase
    cases hphase

/-- Only the visibility of the row in the window depends on the committed rows. -/
lemma ConnectionOk.of_visible {high : Nat} {committed committed' : List Nat} {c : Connection}
    (h : ConnectionOk high committed c)
    (hvisible : ∀ id, c.phase.row = some id → id ∈ committed → id ∈ committed') :
    ConnectionOk high committed' c := by
  refine ⟨h.own, h.deleted, ?_, h.rowless, h.selected⟩
  intro id hid
  obtain ⟨hhigh, hmem⟩ := h.window id hid
  refine ⟨hhigh, ?_⟩
  unfold visibleIds at hmem ⊢
  obtain ⟨hrow, hdeleted⟩ := List.mem_filter.mp hmem
  refine List.mem_filter.mpr ⟨?_, hdeleted⟩
  rcases List.mem_append.mp hrow with hc | ho
  · exact List.mem_append_left _ (hvisible id hid hc)
  · exact List.mem_append_right _ ho

lemma mem_eraseIdx_of_ne {conns : List Connection} {i j : Nat} {d : Connection}
    (h : conns[j]? = some d) (hne : j ≠ i) : d ∈ conns.eraseIdx i :=
  List.mem_eraseIdx_iff_getElem?.mpr ⟨j, hne, h⟩

lemma mem_visibleIds {committed : List Nat} {c : Connection} {id : Nat}
    (h : id ∈ visibleIds committed c) : id ∈ committed ∨ id ∈ c.own :=
  List.mem_append.mp (List.mem_filter.mp h).1

section Steps

variable {s : SequenceState} {i : Nat} {c : Connection}

lemma visible_le (h : SequenceInvariant s) (hc : s.conns[i]? = some c) :
    ∀ id ∈ visibleIds s.committed c, id ≤ s.high := by
  intro id hid
  rcases mem_visibleIds hid with hrow | hown
  · exact h.rows id hrow
  · exact (h.conns i c hc).own id hown

/-- `MAX(id)` is the row that the connection has just inserted. -/
lemma max_visible (h : SequenceInvariant s) (hc : s.conns[i]? = some c) {id : Nat}
    (hrow : c.phase.row = some id) : (visibleIds s.committed c).max? = some id := by
  obtain ⟨hhigh, hmem⟩ := (h.conns i c hc).window id hrow
  rw [List.max?_eq_some_iff]
  refine ⟨hmem, ?_⟩
  intro other hother
  rw [hhigh]
  exact visible_le h hc other hother

/-- The sequence lags behind only while a connection is in the middle of its `INSERT`. -/
lemma lag_set {c' : Connection} (h : SequenceInvariant s) (hc : s.conns[i]? = some c)
    (hphase : s.last < s.high → c.phase ≠ .idle → c'.phase ≠ .idle) (hlag : s.last < s.high) :
    ∃ (j : Nat) (d : Connection), (s.conns.set i c')[j]? = some d ∧ d.phase ≠ .idle := by
  obtain ⟨j, d, hd, hbusy⟩ := h.lag hlag
  by_cases hij : i = j
  · subst hij
    rw [hc] at hd
    cases hd
    have hlt : i < s.conns.length := (List.getElem?_eq_some_iff.mp hc).1
    exact ⟨i, c', by simp [hlt], hphase hlag hbusy⟩
  · exact ⟨j, d, by rw [List.getElem?_set_ne hij, hd], hbusy⟩

/-- A step of one connection that keeps the sequence and adds no row. -/
lemma sequenceInvariant_set {c' : Connection} {committed : List Nat}
    {returned : List (Option Nat × Option Nat)} (h : SequenceInvariant s)
    (hc : s.conns[i]? = some c) (hrows : ∀ id ∈ committed, id ≤ s.high)
    (hc' : ConnectionOk s.high committed c')
    (hothers : ∀ (j : Nat) d, s.conns[j]? = some d → j ≠ i → ∀ id, d.phase.row = some id →
      id ∈ s.committed → id ∈ committed)
    (hreturned : ∀ id v, (some id, v) ∈ returned → v = some id)
    (hphase : s.last < s.high → c.phase ≠ .idle → c'.phase ≠ .idle) :
    SequenceInvariant { s with
      committed := committed, returned := returned, conns := s.conns.set i c' } := by
  refine ⟨hrows, ?_, h.last, h.handed, hreturned, h.failures, lag_set h hc hphase⟩
  intro j d hd
  rcases getElem?_set_cases hd with ⟨_, rfl⟩ | ⟨hne, hold⟩
  · exact hc'
  · exact (h.conns j d hold).of_visible (hothers j d hold hne)

/-- A step of one connection within its transaction. -/
lemma sequenceInvariant_local {c' : Connection} (h : SequenceInvariant s)
    (hc : s.conns[i]? = some c) (hc' : ConnectionOk s.high s.committed c')
    (hphase : s.last < s.high → c.phase ≠ .idle → c'.phase ≠ .idle) :
    SequenceInvariant { s with conns := s.conns.set i c' } :=
  sequenceInvariant_set h hc h.rows hc' (fun _ _ _ _ _ _ hid => hid) h.returned hphase

/-- The end of a window by an error, with the sequence already at the row. -/
lemma sequenceInvariant_leave {c' : Connection} {returned : List (Option Nat × Option Nat)}
    (h : SequenceInvariant s) (hc : s.conns[i]? = some c)
    (hguard : c.phase.row.all (· ≤ s.last)) (hc' : ConnectionOk s.high s.committed c')
    (hreturned : ∀ id v, (some id, v) ∈ returned → v = some id) :
    SequenceInvariant { s with returned := returned, conns := s.conns.set i c' } := by
  refine sequenceInvariant_set h hc h.rows hc' (fun _ _ _ _ _ _ hid => hid) hreturned ?_
  intro hlag hbusy
  have hok := h.conns i c hc
  cases hrow : c.phase.row with
  | none => exact absurd (hok.rowless hrow) hbusy
  | some id =>
    have hle : id ≤ s.last := by simpa [hrow] using hguard
    have hhigh := (hok.window id hrow).1
    omega

/-- What `insertRow` does, in a transaction or in autocommit mode. -/
lemma insertRow_spec (s : SequenceState) {c : Connection} {id : Nat} (phase : InsertPhase)
    (hdeleted : c.inTransaction = false → c.deleted = []) :
    ∃ committed c', insertRow s c id phase =
        ({ s with high := max s.high id, committed := committed }, c') ∧
      (∀ k ∈ committed, k ∈ s.committed ∨ k = id) ∧ (∀ k ∈ c'.own, k ∈ c.own ∨ k = id) ∧
      (c'.inTransaction = false → c'.deleted = []) ∧ c'.phase = phase ∧
      id ∈ visibleIds committed c' := by
  unfold insertRow
  by_cases htx : c.inTransaction
  · rw [if_pos htx]
    refine ⟨s.committed, _, rfl, fun k hk => .inl hk, ?_, ?_, rfl, ?_⟩
    · intro k hk
      rcases List.mem_append.mp hk with hold | hnew
      · exact .inl hold
      · exact .inr (List.mem_singleton.mp hnew)
    · intro hfalse
      rw [htx] at hfalse
      cases hfalse
    · simp [visibleIds]
  · rw [if_neg htx]
    have hnone := hdeleted (by simpa using htx)
    refine ⟨s.committed ++ [id], _, rfl, ?_, fun k hk => .inl hk, hdeleted, rfl, ?_⟩
    · intro k hk
      rcases List.mem_append.mp hk with hold | hnew
      · exact .inl hold
      · exact .inr (List.mem_singleton.mp hnew)
    · simp [visibleIds, hnone]

/-- The new row is the highest one, and only its connection is in the middle of an
`INSERT`. -/
lemma sequenceInvariant_insertRow {id last : Nat} {handed : List Nat} {phase : InsertPhase}
    (h : SequenceInvariant s) (hc : s.conns[i]? = some c)
    (hothers : ∀ (j : Nat) d, s.conns[j]? = some d → j ≠ i → d.phase = .idle)
    (hid : s.high ≤ id) (hlast : last ≤ id) (hhanded : ∀ k ∈ handed, k ≤ last)
    (hphase : phase = .inserted (some id) ∨ (phase = .idle ∧ last = id)) :
    SequenceInvariant
      { (insertRow { s with last := last, handed := handed } c id phase).1 with
        conns := s.conns.set i
          (insertRow { s with last := last, handed := handed } c id phase).2 } := by
  have hok := h.conns i c hc
  obtain ⟨committed, c', heq, hrows, hown, hdeleted, hc'phase, hvisible⟩ :=
    insertRow_spec { s with last := last, handed := handed } phase hok.deleted
  rw [heq]
  have hhigh : max s.high id = id := by omega
  have hlt : i < s.conns.length := (List.getElem?_eq_some_iff.mp hc).1
  have hnew : ConnectionOk id committed c' := by
    refine ⟨?_, hdeleted, ?_, ?_, ?_⟩
    · intro k hk
      rcases hown k hk with hold | rfl
      · have := hok.own k hold
        omega
      · exact Nat.le_refl _
    · intro k hk
      rw [hc'phase] at hk
      rcases hphase with rfl | ⟨rfl, _⟩
      · cases hk
        exact ⟨rfl, hvisible⟩
      · cases hk
    · intro hnone
      rw [hc'phase] at hnone ⊢
      rcases hphase with rfl | ⟨rfl, _⟩
      · cases hnone
      · rfl
    · intro row lastId hselected
      rw [hc'phase] at hselected
      rcases hphase with rfl | ⟨rfl, _⟩ <;> cases hselected
  refine ⟨?_, ?_, ?_, hhanded, h.returned, h.failures, ?_⟩
  · intro k hk
    rcases hrows k hk with hold | rfl
    · have := h.rows k hold
      dsimp only
      omega
    · dsimp only
      omega
  · intro j d hd
    dsimp only at hd ⊢
    rw [hhigh]
    rcases getElem?_set_cases hd with ⟨_, rfl⟩ | ⟨hne, hold⟩
    · exact hnew
    · have hd' := h.conns j d hold
      refine .of_idle ?_ hd'.deleted (hothers j d hold hne)
      intro k hk
      have := hd'.own k hk
      omega
  · dsimp only
    omega
  · dsimp only
    intro hlag
    refine ⟨i, c', by simp [hlt], ?_⟩
    rw [hc'phase]
    rcases hphase with rfl | ⟨_, heq'⟩
    · simp
    · omega

/-- No id from the sequence meets a row that is there. -/
lemma next_not_visible (h : SequenceInvariant s) (hc : s.conns[i]? = some c)
    (hlast : s.last = s.high) : s.last + 1 ∉ visibleIds s.committed c := by
  intro hmem
  have := visible_le h hc _ hmem
  omega

lemma sequenceInvariant_insert {kind : InsertKind} {t : SequenceState} {c' : Connection}
    (h : SequenceInvariant s) (hc : s.conns[i]? = some c) (hidle : c.phase = .idle)
    (hothers : ∀ (j : Nat) d, s.conns[j]? = some d → j ≠ i → d.phase = .idle)
    (hkind : kind ≠ .skipped) (hexplicit : ∀ id, kind = .explicit id → s.last ≤ id)
    (hstep : insertStep s (s.otherRows i) c kind = some (t, c')) :
    SequenceInvariant { t with conns := s.conns.set i c' } := by
  have hlast : s.last = s.high := by
    have hle := h.last
    by_contra hne
    obtain ⟨j, d, hd, hbusy⟩ := h.lag (by omega)
    by_cases hij : j = i
    · subst hij
      rw [hc] at hd
      cases hd
      exact hbusy hidle
    · exact hbusy (hothers j d hd hij)
  have hhanded : ∀ k ∈ (s.last + 1) :: s.handed, k ≤ s.last + 1 := by
    intro k hk
    rcases List.mem_cons.mp hk with rfl | hold
    · exact Nat.le_refl _
    · have := h.handed k hold
      omega
  -- an `INSERT` with an id from the sequence, with and without the window after it
  have hnext : ∀ phase, phase = .inserted (some (s.last + 1)) ∨ phase = .idle →
      insertRow { s with last := s.last + 1, handed := (s.last + 1) :: s.handed } c (s.last + 1)
        phase = (t, c') →
      SequenceInvariant { t with conns := s.conns.set i c' } := by
    intro phase hphase heq
    have hinv := sequenceInvariant_insertRow h hc hothers
      (show s.high ≤ s.last + 1 by omega) (Nat.le_refl _) hhanded
      (hphase.imp_right (fun hidle => ⟨hidle, rfl⟩))
    rw [heq] at hinv
    exact hinv
  cases kind with
  | default =>
    simp only [insertStep, nextval, next_not_visible h hc hlast, if_false] at hstep
    split at hstep
    · cases hstep
    · exact hnext _ (.inl rfl) (Option.some.inj hstep)
  | explicit id =>
    have hid := hexplicit id rfl
    simp only [insertStep] at hstep
    split at hstep
    · cases hstep
    · split at hstep
      · cases hstep
        refine sequenceInvariant_local h hc ?_ (fun _ hbusy => hbusy)
        have hok := h.conns i c hc
        exact ⟨hok.own, hok.deleted, hok.window, hok.rowless, hok.selected⟩
      · have heq := Option.some.inj hstep
        have hinv := sequenceInvariant_insertRow h hc hothers
          (show s.high ≤ id by omega) hid h.handed (.inl rfl)
        rw [heq] at hinv
        exact hinv
  | skipped => exact absurd rfl hkind
  | unsynced =>
    simp only [insertStep, nextval, next_not_visible h hc hlast, if_false] at hstep
    split at hstep
    · cases hstep
    · exact hnext _ (.inr rfl) (Option.some.inj hstep)

lemma sequenceInvariant_setval {row lastId : Option Nat} (h : SequenceInvariant s)
    (hc : s.conns[i]? = some c) (hphase : c.phase = .selected row lastId) :
    SequenceInvariant { s with
      last := lastId.getD s.last
      returned := (row, lastId) :: s.returned
      conns := s.conns.set i { c with phase := .idle } } := by
  have hok := h.conns i c hc
  have heq := hok.selected row lastId hphase
  subst heq
  obtain ⟨id, hid⟩ : ∃ id, lastId = some id := by
    cases hrow : lastId with
    | some id => exact ⟨id, rfl⟩
    | none =>
      have hidle := hok.rowless (by rw [hphase, hrow]; rfl)
      rw [hphase] at hidle
      cases hidle
  subst hid
  have hhigh : id = s.high := (hok.window id (by rw [hphase]; rfl)).1
  have hlast := h.last
  refine ⟨h.rows, ?_, ?_, ?_, ?_, h.failures, ?_⟩
  · intro j d hd
    rcases getElem?_set_cases hd with ⟨_, rfl⟩ | ⟨_, hold⟩
    · exact .of_idle hok.own hok.deleted rfl
    · exact h.conns j d hold
  · simp only [Option.getD_some]
    omega
  · intro k hk
    have := h.handed k hk
    simp only [Option.getD_some]
    omega
  · intro k v hk
    rcases List.mem_cons.mp hk with heq | hold
    · cases heq
      rfl
    · exact h.returned k v hold
  · simp only [Option.getD_some]
    intro hlag
    omega

/-- The others stay as they are when a connection commits. -/
lemma sequenceInvariant_commit (h : SequenceInvariant s) (hc : s.conns[i]? = some c)
    (hidle : c.phase = .idle)
    (hguard : ∀ d ∈ s.conns.eraseIdx i, ∀ id, d.phase.row = some id → id ∉ c.deleted) :
    SequenceInvariant { s with
      committed := commitRows s c, conns := s.conns.set i (endTransaction c) } := by
  refine sequenceInvariant_set h hc ?_ ?_ ?_ h.returned (fun _ hbusy => absurd hidle hbusy)
  · intro id hid
    unfold commitRows at hid
    split at hid
    · exact h.rows id hid
    · exact visible_le h hc id hid
  · refine .of_idle ?_ (fun _ => rfl) hidle
    intro id hid
    cases hid
  · intro j d hd hne id hrow hmem
    unfold commitRows
    split
    · exact hmem
    · refine List.mem_filter.mpr ⟨List.mem_append_left _ hmem, ?_⟩
      have hkept := hguard d (mem_eraseIdx_of_ne hd hne) id hrow
      simpa using hkept

lemma sequenceInvariant_delete {id : Nat} (h : SequenceInvariant s)
    (hc : s.conns[i]? = some c)
    (hguard : ∀ d ∈ s.conns.eraseIdx i, d.phase.row ≠ some id) (hidle : c.phase = .idle) :
    SequenceInvariant { s with
      committed := s.committed.filter (· ≠ id), conns := s.conns.set i c } := by
  have hok := h.conns i c hc
  refine sequenceInvariant_set h hc ?_ (.of_idle hok.own hok.deleted hidle) ?_ h.returned
    (fun _ hbusy => hbusy)
  · intro k hk
    exact h.rows k (List.mem_filter.mp hk).1
  · intro j d hd hne k hrow hmem
    refine List.mem_filter.mpr ⟨hmem, ?_⟩
    have hkept := hguard d (mem_eraseIdx_of_ne hd hne)
    rw [hrow] at hkept
    simpa using hkept

variable {t : SequenceState} {c' : Connection}

lemma sequenceInvariant_begin (h : SequenceInvariant s)
    (hc : s.conns[i]? = some c)
    (hstep : connectionStep s (s.otherRows i) c .begin = some (t, c')) :
    SequenceInvariant { t with conns := s.conns.set i c' } := by
  have hok := h.conns i c hc
  simp only [connectionStep] at hstep
  split at hstep
  · next hpre =>
    cases hstep
    refine sequenceInvariant_local h hc ?_ (fun _ hbusy => hbusy)
    refine .of_idle hok.own ?_ hpre.1
    intro hfalse
    cases hfalse
  · cases hstep

lemma sequenceInvariant_commitStep (h : SequenceInvariant s)
    (hc : s.conns[i]? = some c)
    (hguard : windowsApart s (.conn i .commit))
    (hstep : connectionStep s (s.otherRows i) c .commit = some (t, c')) :
    SequenceInvariant { t with conns := s.conns.set i c' } := by
  simp only [windowsApart, hc, Option.all_some] at hguard
  simp only [connectionStep] at hstep
  split at hstep
  · next hpre =>
    cases hstep
    refine sequenceInvariant_commit h hc hpre.1 ?_
    intro d hd id hrow
    have hall := List.all_eq_true.mp hguard d hd
    simpa [hrow] using hall
  · cases hstep

lemma sequenceInvariant_rollback (h : SequenceInvariant s)
    (hc : s.conns[i]? = some c)
    (hstep : connectionStep s (s.otherRows i) c .rollback = some (t, c')) :
    SequenceInvariant { t with conns := s.conns.set i c' } := by
  simp only [connectionStep] at hstep
  split at hstep
  · next hpre =>
    cases hstep
    refine sequenceInvariant_local h hc ?_ (fun _ hbusy => absurd hpre.1 hbusy)
    refine .of_idle ?_ (fun _ => rfl) hpre.1
    intro id hid
    cases hid
  · cases hstep

lemma sequenceInvariant_insertStep {kind : InsertKind} (h : SequenceInvariant s)
    (hc : s.conns[i]? = some c)
    (hguard : windowsApart s (.conn i (.insert kind)))
    (hstep : connectionStep s (s.otherRows i) c (.insert kind) = some (t, c')) :
    SequenceInvariant { t with conns := s.conns.set i c' } := by
  simp only [windowsApart, hc, Option.all_some] at hguard
  simp only [connectionStep] at hstep
  simp only [Bool.and_eq_true] at hguard
  split at hstep
  · next hpre =>
    refine sequenceInvariant_insert h hc hpre.1 ?_ ?_ ?_ hstep
    · intro j d hd hne
      have hall := List.all_eq_true.mp hguard.1 d (mem_eraseIdx_of_ne hd hne)
      simpa using hall
    · rintro rfl
      cases hguard.2
    · rintro id rfl
      simpa using hguard.2
  · cases hstep

lemma sequenceInvariant_deleteStep {id : Nat} (h : SequenceInvariant s)
    (hc : s.conns[i]? = some c)
    (hguard : windowsApart s (.conn i (.delete id)))
    (hstep : connectionStep s (s.otherRows i) c (.delete id) = some (t, c')) :
    SequenceInvariant { t with conns := s.conns.set i c' } := by
  have hok := h.conns i c hc
  simp only [windowsApart, hc, Option.all_some] at hguard
  simp only [connectionStep] at hstep
  split at hstep
  · next hpre =>
    split at hstep
    · next htx =>
      cases hstep
      refine sequenceInvariant_local h hc ?_ (fun _ hbusy => hbusy)
      refine .of_idle hok.own ?_ hpre.1
      intro hfalse
      dsimp only at hfalse
      rw [htx] at hfalse
      cases hfalse
    · next htx =>
      cases hstep
      refine sequenceInvariant_delete h hc ?_ hpre.1
      intro d hd
      have hall := List.all_eq_true.mp (of_decide_eq_true hguard htx) d hd
      simpa using hall
  · cases hstep

lemma sequenceInvariant_selectMax (h : SequenceInvariant s)
    (hc : s.conns[i]? = some c)
    (hstep : connectionStep s (s.otherRows i) c .selectMax = some (t, c')) :
    SequenceInvariant { t with conns := s.conns.set i c' } := by
  have hok := h.conns i c hc
  simp only [connectionStep] at hstep
  split at hstep
  · next row hphase =>
    cases hstep
    have hrow : c.phase.row = row := by
      rw [hphase]
      rfl
    refine sequenceInvariant_local h hc ?_ (fun _ _ => by simp)
    refine ⟨hok.own, hok.deleted, ?_, ?_, ?_⟩
    · intro id hid
      exact hok.window id (hrow.trans hid)
    · intro hnone
      have hidle := hok.rowless (hrow.trans hnone)
      rw [hphase] at hidle
      cases hidle
    · intro row' lastId hselected
      cases hselected
      cases hr : row with
      | none =>
        have hidle := hok.rowless (hrow.trans hr)
        rw [hphase] at hidle
        cases hidle
      | some id => exact max_visible h hc (hrow.trans hr)
  · cases hstep

lemma sequenceInvariant_setvalError (h : SequenceInvariant s)
    (hc : s.conns[i]? = some c)
    (hguard : windowsApart s (.conn i .setvalError))
    (hstep : connectionStep s (s.otherRows i) c .setvalError = some (t, c')) :
    SequenceInvariant { t with conns := s.conns.set i c' } := by
  have hok := h.conns i c hc
  simp only [windowsApart, hc, Option.all_some] at hguard
  simp only [connectionStep] at hstep
  split at hstep
  · next row lastId hphase =>
    cases hstep
    refine sequenceInvariant_leave (s := s) h hc hguard
      (.of_idle hok.own hok.deleted rfl) ?_
    intro id v hmem
    rcases List.mem_cons.mp hmem with heq | hold
    · have hselected := hok.selected row lastId hphase
      cases heq
      exact hselected
    · exact h.returned id v hold
  · cases hstep

lemma sequenceInvariant_conn {a : ConnectionAction} (h : SequenceInvariant s)
    (hc : s.conns[i]? = some c)
    (hguard : windowsApart s (.conn i a))
    (hstep : connectionStep s (s.otherRows i) c a = some (t, c')) :
    SequenceInvariant { t with conns := s.conns.set i c' } := by
  cases a with
  | begin => exact sequenceInvariant_begin h hc hstep
  | commit => exact sequenceInvariant_commitStep h hc hguard hstep
  | rollback => exact sequenceInvariant_rollback h hc hstep
  | insert kind => exact sequenceInvariant_insertStep h hc hguard hstep
  | delete id => exact sequenceInvariant_deleteStep h hc hguard hstep
  | selectMax => exact sequenceInvariant_selectMax h hc hstep
  | setval =>
    simp only [connectionStep] at hstep
    split at hstep
    · next row lastId hphase =>
      cases hstep
      exact sequenceInvariant_setval h hc hphase
    · cases hstep
  | selectMaxError =>
    simp only [windowsApart, hc, Option.all_some] at hguard
    cases hguard
  | setvalError => exact sequenceInvariant_setvalError h hc hguard hstep
  | disconnect =>
    simp only [windowsApart, hc, Option.all_some] at hguard
    cases hstep
    refine sequenceInvariant_leave h hc hguard (.of_idle ?_ (fun _ => rfl) rfl) h.returned
    intro id hid
    cases hid

lemma sequenceInvariant_step {s' : SequenceState} {a : SequenceAction}
    (h : SequenceInvariant s) (hguard : windowsApart s a) (hstep : sequenceStep s a = some s') :
    SequenceInvariant s' := by
  cases a with
  | connect =>
    cases hstep
    refine ⟨h.rows, ?_, h.last, h.handed, h.returned, h.failures, ?_⟩
    · intro j d hd
      dsimp only at hd
      rcases List.mem_append.mp (List.mem_of_getElem? hd) with hold | hnew
      · obtain ⟨k, hk⟩ := List.mem_iff_getElem?.mp hold
        exact h.conns k d hk
      · rw [List.mem_singleton.mp hnew]
        refine .of_idle ?_ (fun _ => rfl) rfl
        intro id hid
        cases hid
    · intro hlag
      obtain ⟨j, d, hd, hbusy⟩ := h.lag hlag
      refine ⟨j, d, ?_, hbusy⟩
      have hlt : j < s.conns.length := (List.getElem?_eq_some_iff.mp hd).1
      dsimp only
      rw [List.getElem?_append_left hlt, hd]
  | conn i a =>
    simp only [sequenceStep] at hstep
    split at hstep
    · cases hstep
    · next c hc =>
      split at hstep
      · cases hstep
      · next t c' hconn =>
        cases hstep
        exact sequenceInvariant_conn h hc hguard hconn

end Steps

lemma sequenceInvariant_initial : SequenceInvariant SequenceState.initial := by
  constructor
  all_goals simp [SequenceState.initial]

end IpDocket.Billing
