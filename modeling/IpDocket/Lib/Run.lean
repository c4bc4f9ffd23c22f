import Mathlib.Logic.Function.Basic
import Mathlib.Tactic.Common

/-!
# Runs of transition systems

A system is a partial step function `step : σ → α → Option σ`: `none` says that the
action is not enabled. A run is a list of actions executed one after another, each of
them admitted by a guard on the state before it. An unrestricted run has the trivial
guard. History variables are added with `track`, which leaves the system itself alone.
-/

namespace IpDocket.Lib

variable {σ α ω : Type*}

/-- Executing `as` from `s` ends in `t`, and `guard` held before every step. -/
inductive GuardedRun (step : σ → α → Option σ) (guard : σ → α → Prop) :
    σ → List α → σ → Prop
  | nil (s : σ) : GuardedRun step guard s [] s
  | snoc {s t u : σ} {as : List α} {a : α} : GuardedRun step guard s as t →
      guard t a → step t a = some u → GuardedRun step guard s (as ++ [a]) u

/-- A run without any restriction on its steps. -/
abbrev Run (step : σ → α → Option σ) : σ → List α → σ → Prop :=
  GuardedRun step (fun _ _ => True)

section Rules

variable {step : σ → α → Option σ} {guard : σ → α → Prop}

/-- A property of the first state that every admitted step keeps holds at the end. -/
theorem GuardedRun.invariant {I : σ → Prop} {s t : σ} {as : List α}
    (h : GuardedRun step guard s as t) (h0 : I s)
    (hstep : ∀ t a u, I t → guard t a → step t a = some u → I u) : I t := by
  induction h with
  | nil => exact h0
  | snoc _ hg hs ih => exact hstep _ _ _ ih hg hs

lemma GuardedRun.cons {s t u : σ} {a : α} {as : List α} (hg : guard s a)
    (hs : step s a = some t) (h : GuardedRun step guard t as u) :
    GuardedRun step guard s (a :: as) u := by
  induction h with
  | nil => exact .snoc (.nil s) hg hs
  | snoc _ hga hsa ih => exact .snoc ih hga hsa

/-- In a run whose states keep an invariant, a guard may be replaced by one that follows from it. -/
lemma GuardedRun.weaken {I : σ → Prop} {guard' : σ → α → Prop} {s t : σ} {as : List α}
    (h : GuardedRun step guard s as t) (h0 : I s)
    (hstep : ∀ t a u, I t → guard t a → step t a = some u → guard' t a ∧ I u) :
    GuardedRun step guard' s as t := by
  have hboth : GuardedRun step guard' s as t ∧ I t := by
    induction h with
    | nil => exact ⟨.nil _, h0⟩
    | snoc _ hg hs ih =>
      obtain ⟨hguard, hinv⟩ := hstep _ _ _ ih.2 hg hs
      exact ⟨.snoc ih.1 hguard hs, hinv⟩
  exact hboth.1

/-- A guarded run is a run. -/
lemma GuardedRun.run {s t : σ} {as : List α} (h : GuardedRun step guard s as t) :
    Run step s as t := by
  induction h with
  | nil => exact .nil _
  | snoc _ _ hs ih => exact .snoc ih trivial hs

end Rules

/-- The state after `as`, if every action was enabled and met the guard. -/
def execute (step : σ → α → Option σ) (guard : σ → α → Prop)
    [∀ s a, Decidable (guard s a)] : σ → List α → Option σ
  | s, [] => some s
  | s, a :: as =>
    if guard s a then
      match step s a with
      | some t => execute step guard t as
      | none => none
    else none

theorem guardedRun_of_execute {step : σ → α → Option σ} {guard : σ → α → Prop}
    [∀ s a, Decidable (guard s a)] {s t : σ} {as : List α}
    (h : execute step guard s as = some t) : GuardedRun step guard s as t := by
  induction as generalizing s with
  | nil =>
    cases h
    exact .nil _
  | cons a as ih =>
    rw [execute] at h
    split at h
    · next hg =>
      split at h
      · next u hs => exact .cons hg hs (ih h)
      · cases h
    · cases h

/-- A concrete run together with what holds at its end. -/
lemma exists_guardedRun {step : σ → α → Option σ} {guard : σ → α → Prop}
    [∀ s a, Decidable (guard s a)] {s t : σ} {as : List α} {P : σ → Prop}
    (h : execute step guard s as = some t) (hP : GuardedRun step guard s as t → P t) :
    ∃ t, GuardedRun step guard s as t ∧ P t :=
  ⟨t, guardedRun_of_execute h, hP (guardedRun_of_execute h)⟩

/-- A run that ends in a state with `P`, found by executing it. -/
lemma exists_guardedRun_of_any (step : σ → α → Option σ) (guard : σ → α → Prop)
    [∀ s a, Decidable (guard s a)] (s : σ) (as : List α) (P : σ → Bool)
    (h : (execute step guard s as).any P = true) :
    ∃ t, GuardedRun step guard s as t ∧ P t = true := by
  obtain ⟨t, ht, hP⟩ := (Option.any_eq_true P _).mp h
  exact ⟨t, guardedRun_of_execute ht, hP⟩

/-- The system with a history variable that `record` updates after every step. -/
def track (step : σ → α → Option σ) (record : ω → σ → α → σ → ω)
    (p : σ × ω) (a : α) : Option (σ × ω) :=
  (step p.1 a).map (fun t => (t, record p.2 p.1 a t))

lemma track_eq_some {step : σ → α → Option σ} {record : ω → σ → α → σ → ω}
    {p q : σ × ω} {a : α} :
    track step record p a = some q ↔ step p.1 a = some q.1 ∧ q.2 = record p.2 p.1 a q.1 := by
  unfold track
  cases hs : step p.1 a with
  | none => simp
  | some t =>
    constructor
    · intro h
      cases h
      exact ⟨rfl, rfl⟩
    · rintro ⟨ht, hq⟩
      cases ht
      rw [Option.map_some, ← hq]

/-! ### Requests

A request either fails and leaves the state alone or returns the next state. -/

section Requests

variable {ε : Type*} {β γ : Type}

/-- Fail with `err` unless the condition holds. -/
def require (ok : Bool) (err : ε) : Except ε Unit :=
  if ok then .ok () else .error err

lemma require_eq_ok {ok : Bool} {err : ε} {u : Unit} : require ok err = .ok u ↔ ok = true := by
  cases ok <;> simp [require]

lemma except_bind_eq_ok {x : Except ε β} {f : β → Except ε γ} {r : γ} :
    (x >>= f) = .ok r ↔ ∃ b, x = .ok b ∧ f b = .ok r := by
  cases x <;> simp [bind, Except.bind]

/-- The transition system of the requests that succeed. -/
def stepOf (handle : σ → α → Except ε σ) (s : σ) (a : α) : Option σ := (handle s a).toOption

lemma stepOf_eq_some {handle : σ → α → Except ε σ} {s t : σ} {a : α} :
    stepOf handle s a = some t ↔ handle s a = .ok t := by
  unfold stepOf
  cases handle s a <;> simp [Except.toOption]

end Requests

/-- After party `i` has moved to `c`, a party is the one that moved or as it was. -/
lemma getElem?_set_cases {parties : List σ} {i j : Nat} {c d : σ}
    (h : (parties.set i c)[j]? = some d) : (j = i ∧ d = c) ∨ (j ≠ i ∧ parties[j]? = some d) := by
  rw [List.getElem?_set] at h
  by_cases hij : i = j
  · subst hij
    rw [if_pos rfl] at h
    split at h
    · exact .inl ⟨rfl, (Option.some.inj h).symm⟩
    · cases h
  · rw [if_neg hij] at h
    exact .inr ⟨Ne.symm hij, h⟩

/-- After a party has joined, a party is the new one or one of the old ones. -/
lemma getElem?_concat_cases {parties : List σ} {j : Nat} {c d : σ}
    (h : (parties ++ [c])[j]? = some d) : (j = parties.length ∧ d = c) ∨ parties[j]? = some d := by
  rw [List.getElem?_append] at h
  split at h
  · exact .inr h
  · next hj =>
    rw [List.getElem?_singleton] at h
    split at h
    · next heq => exact .inl ⟨by omega, (Option.some.inj h).symm⟩
    · cases h

/-- Any party may be put first. -/
lemma perm_cons_eraseIdx {parties : List σ} {i : Nat} {c : σ} (h : parties[i]? = some c) :
    parties.Perm (c :: parties.eraseIdx i) := by
  induction parties generalizing i with
  | nil => simp at h
  | cons d parties ih =>
    cases i with
    | zero =>
      cases h
      exact .refl _
    | succ i =>
      rw [List.getElem?_cons_succ] at h
      exact ((ih h).cons d).trans (.swap c d _)

/-- A property of all parties after party `i` has moved to `c`. -/
lemma forall_mem_set {parties : List σ} {P : σ → Prop} {i : Nat} {b c : σ}
    (hb : parties[i]? = some b) :
    (∀ d ∈ parties.set i c, P d) ↔
      P c ∧ ∀ (j : Nat) d, j ≠ i → parties[j]? = some d → P d := by
  constructor
  · intro h
    constructor
    · have hc : (parties.set i c)[i]? = some c :=
        List.getElem?_set_self (List.getElem?_eq_some_iff.mp hb).1
      exact h c (List.mem_of_getElem? hc)
    · intro j d hne hd
      have hd' : (parties.set i c)[j]? = some d := (List.getElem?_set_ne (Ne.symm hne)).trans hd
      exact h d (List.mem_of_getElem? hd')
  · rintro ⟨hc, hother⟩ d hd
    obtain ⟨j, hj⟩ := List.mem_iff_getElem?.mp hd
    rcases getElem?_set_cases hj with ⟨_, rfl⟩ | ⟨hne, hold⟩
    · exact hc
    · exact hother j d hne hold

end IpDocket.Lib
