import IpDocket.Tasks.DistributionRules

/-!
# Which rule decides

Among the rules that are the first of their id, the matching one of highest priority decides, the earliest
one among equal priorities. It is the first match after a stable sort, and another rule that does not match
or has a lower priority does not change it.
-/

namespace IpDocket.Tasks
open IpDocket.Lib

section Deciding

/-- The rules that are the first of their id. -/
def firsts : List Rule → List Rule
  | [] => []
  | r :: rules => r :: (firsts rules).filter (fun s => s.id ≠ r.id)

/-- The rule has the highest priority among those that match, and is the earliest of them. -/
def Decides (found : Rule → Bool) (rules : List Rule) (r : Rule) : Prop :=
  ∃ before after, rules = before ++ r :: after ∧ found r = true ∧
    (∀ s ∈ before, found s = true → s.priority < r.priority) ∧
    ∀ s ∈ after, found s = true → s.priority ≤ r.priority

/-- The decision that the rules and the default action give. -/
def Decided (found : Rule → Bool) (rules : List Rule) (default : Action) (d : Decision) : Prop :=
  (∃ r, Decides found rules r ∧ d = r.decision) ∨
    ((∀ r ∈ rules, found r = false) ∧ d = default.decision)

variable {found : Rule → Bool} {rules : List Rule} {default : Action}

lemma firsts_subset {r : Rule} (h : r ∈ firsts rules) : r ∈ rules := by
  induction rules with
  | nil => cases h
  | cons s rules ih =>
    rw [firsts, List.mem_cons, List.mem_filter] at h
    rw [List.mem_cons]
    exact h.imp_right (fun hr => ih hr.1)

lemma nodup_firsts (rules : List Rule) : ((firsts rules).map (·.id)).Nodup := by
  induction rules with
  | nil => exact List.nodup_nil
  | cons r rules ih =>
    rw [firsts, List.map_cons, List.nodup_cons]
    constructor
    · intro hmem
      obtain ⟨s, hs, hid⟩ := List.mem_map.mp hmem
      have hne := (List.mem_filter.mp hs).2
      simp [hid] at hne
    · exact ih.sublist (List.filter_sublist.map _)

/-- Another rule with an id of its own stands among the first ones where it stands among all. -/
lemma firsts_insert {r : Rule} {before after : List Rule} (hid : ∀ s ∈ before ++ after, s.id ≠ r.id) :
    ∃ before' after', firsts (before ++ after) = before' ++ after' ∧
      firsts (before ++ r :: after) = before' ++ r :: after' := by
  induction before with
  | nil =>
    have hall : (firsts after).filter (fun s => s.id ≠ r.id) = firsts after := by
      rw [List.filter_eq_self]
      intro s hs
      exact decide_eq_true (hid s (firsts_subset hs))
    refine ⟨[], firsts after, rfl, ?_⟩
    rw [List.nil_append, firsts, hall]
    rfl
  | cons s before ih =>
    obtain ⟨before', after', hold, hnew⟩ := ih (fun x hx => hid x (List.mem_cons_of_mem _ hx))
    have hne : r.id ≠ s.id := (hid s List.mem_cons_self).symm
    refine ⟨s :: before'.filter (fun x => x.id ≠ s.id), after'.filter (fun x => x.id ≠ s.id), ?_, ?_⟩
    · rw [List.cons_append, firsts, hold, List.filter_append, List.cons_append]
    · have hkept : (r :: after').filter (fun x => x.id ≠ s.id) = r :: after'.filter (fun x => x.id ≠ s.id) :=
        List.filter_cons_of_pos (decide_eq_true hne)
      rw [List.cons_append, firsts, hnew, List.filter_append, hkept, List.cons_append]

lemma Decides.mem {r : Rule} (h : Decides found rules r) : r ∈ rules ∧ found r = true := by
  obtain ⟨before, after, rfl, hfound, -, -⟩ := h
  exact ⟨by simp, hfound⟩

lemma Decides.le {r s : Rule} (h : Decides found rules r) (hs : s ∈ rules) (hfound : found s = true) :
    s.priority ≤ r.priority := by
  obtain ⟨before, after, rfl, -, hbefore, hafter⟩ := h
  rw [List.mem_append, List.mem_cons] at hs
  obtain hs | rfl | hs := hs
  · exact (hbefore s hs hfound).le
  · exact le_refl _
  · exact hafter s hs hfound

lemma Decides.unique {r s : Rule} (hr : Decides found rules r) (hs : Decides found rules s) : r = s := by
  have heq : r.priority = s.priority := le_antisymm (hs.le hr.mem.1 hr.mem.2) (hr.le hs.mem.1 hs.mem.2)
  obtain ⟨before, after, hsplit, hfound, hbefore, -⟩ := hr
  obtain ⟨before', after', hsplit', hfound', hbefore', -⟩ := hs
  rw [hsplit] at hsplit'
  obtain ⟨mid, rfl, hmid⟩ | ⟨mid, rfl, hmid⟩ := List.append_eq_append_iff.mp hsplit'
  · cases mid with
    | nil => exact (List.cons.inj hmid).1
    | cons x mid =>
      obtain ⟨rfl, -⟩ := List.cons.inj hmid
      have hlt := hbefore' r (List.mem_append_right _ List.mem_cons_self) hfound
      omega
  · cases mid with
    | nil => exact (List.cons.inj hmid).1.symm
    | cons x mid =>
      obtain ⟨rfl, -⟩ := List.cons.inj hmid
      have hlt := hbefore s (List.mem_append_right _ List.mem_cons_self) hfound'
      omega

lemma Decided.unique {d d' : Decision} (hd : Decided found rules default d)
    (hd' : Decided found rules default d') : d = d' := by
  obtain ⟨r, hr, rfl⟩ | ⟨hnone, rfl⟩ := hd
  · obtain ⟨s, hs, rfl⟩ | ⟨hnone, -⟩ := hd'
    · rw [hr.unique hs]
    · have hfound := hr.mem.2
      rw [hnone r hr.mem.1] at hfound
      cases hfound
  · obtain ⟨s, hs, -⟩ | ⟨-, rfl⟩ := hd'
    · have hfound := hs.mem.2
      rw [hnone s hs.mem.1] at hfound
      cases hfound
    · rfl

/-- A rule that does not match, or has a lower priority than the one that decides, does not decide. -/
lemma Decided.insert {r : Rule} {before after : List Rule} {d : Decision}
    (hidle : found r = false ∨ ∃ s, Decides found (before ++ after) s ∧ r.priority < s.priority)
    (h : Decided found (before ++ after) default d) :
    Decided found (before ++ r :: after) default d := by
  obtain ⟨s, hs, rfl⟩ | ⟨hnone, rfl⟩ := h
  · left
    have hlow : found r = true → r.priority < s.priority := by
      intro hfound
      obtain hnot | ⟨s', hs', hlt⟩ := hidle
      · rw [hfound] at hnot
        cases hnot
      · rwa [hs.unique hs']
    refine ⟨s, ?_, rfl⟩
    obtain ⟨front, back, hsplit, hfound, hfront, hback⟩ := hs
    obtain ⟨mid, rfl, rfl⟩ | ⟨mid, rfl, hmid⟩ := List.append_eq_append_iff.mp hsplit
    · refine ⟨before ++ r :: mid, back, by simp, hfound, ?_, hback⟩
      intro x hx hx'
      simp only [List.mem_append, List.mem_cons] at hx
      obtain hx | rfl | hx := hx
      · exact hfront x (List.mem_append_left _ hx) hx'
      · exact hlow hx'
      · exact hfront x (List.mem_append_right _ hx) hx'
    · cases mid with
      | nil =>
        rw [List.nil_append] at hmid
        refine ⟨front ++ [r], back, by simp [← hmid], hfound, ?_, hback⟩
        intro x hx hx'
        simp only [List.mem_append, List.mem_singleton] at hx
        obtain hx | rfl := hx
        · exact hfront x hx hx'
        · exact hlow hx'
      | cons y mid =>
        rw [List.cons_append] at hmid
        obtain ⟨rfl, rfl⟩ := List.cons.inj hmid
        refine ⟨front, mid ++ r :: after, by simp, hfound, hfront, ?_⟩
        intro x hx hx'
        simp only [List.mem_append, List.mem_cons] at hx
        obtain hx | rfl | hx := hx
        · exact hback x (List.mem_append_left _ hx) hx'
        · exact (hlow hx').le
        · exact hback x (List.mem_append_right _ hx) hx'
  · right
    refine ⟨?_, rfl⟩
    intro x hx
    simp only [List.mem_append, List.mem_cons] at hx
    obtain hx | rfl | hx := hx
    · exact hnone x (List.mem_append_left _ hx)
    · obtain hnot | ⟨s, hs, -⟩ := hidle
      · exact hnot
      · have hfound := hs.mem.2
        rw [hnone s hs.mem.1] at hfound
        cases hfound
    · exact hnone x (List.mem_append_right _ hx)

lemma higher_trans (a b c : Rule) (hab : higher a b = true) (hbc : higher b c = true) : higher a c = true := by
  unfold higher at hab hbc ⊢
  rw [decide_eq_true_iff] at hab hbc ⊢
  omega

lemma higher_total (a b : Rule) : (higher a b || higher b a) = true := by
  unfold higher
  rw [Bool.or_eq_true, decide_eq_true_iff, decide_eq_true_iff]
  omega

/-- The first match in the sorted rules is the rule that decides. -/
lemma decides_of_find? (hdistinct : (rules.map (·.id)).Nodup) {r : Rule}
    (h : (rules.mergeSort higher).find? found = some r) : Decides found rules r := by
  obtain ⟨hfound, front, back, hsorted, hfront⟩ := List.find?_eq_some_iff_append.mp h
  have hperm := List.mergeSort_perm rules higher
  have hpairs := List.pairwise_mergeSort higher_trans higher_total rules
  have hnodup : (rules.mergeSort higher).Nodup := hperm.nodup_iff.mpr hdistinct.of_map
  rw [hsorted] at hpairs hnodup
  have hle : ∀ s ∈ rules, found s = true → s.priority ≤ r.priority := by
    intro s hs hmatch
    have hmem : s ∈ front ++ r :: back := by
      rw [← hsorted]
      exact hperm.mem_iff.mpr hs
    rw [List.mem_append, List.mem_cons] at hmem
    obtain hmem | rfl | hmem := hmem
    · have hnot := hfront s hmem
      simp [hmatch] at hnot
    · exact le_refl _
    · have hrest := (List.pairwise_append.mp hpairs).2.1
      have hlow := (List.pairwise_cons.mp hrest).1 s hmem
      unfold higher at hlow
      exact of_decide_eq_true hlow
  have hr : r ∈ rules := by
    rw [← hperm.mem_iff, hsorted]
    simp
  obtain ⟨before, after, rfl⟩ := List.append_of_mem hr
  refine ⟨before, after, rfl, hfound, ?_, fun s hs hmatch => hle s (by simp [hs]) hmatch⟩
  intro s hs hmatch
  -- an earlier match of the same priority would still stand before it
  by_contra hlt
  have hsame : higher s r = true := by
    unfold higher
    exact decide_eq_true (not_lt.mp hlt)
  have hpair : [s, r].Sublist (before ++ r :: after) := by
    obtain ⟨a, b, rfl⟩ := List.append_of_mem hs
    have hback : [r].Sublist (b ++ r :: after) := List.singleton_sublist.mpr (by simp)
    have htail : (s :: [r]).Sublist (s :: (b ++ r :: after)) := hback.cons_cons s
    rw [List.append_assoc, List.cons_append]
    exact htail.trans (List.sublist_append_right a _)
  have hkept := List.pair_sublist_mergeSort higher_trans higher_total hsame hpair
  rw [hsorted] at hkept
  obtain ⟨l₁, l₂, hl, hl₁, hl₂⟩ := List.sublist_append_iff.mp hkept
  cases l₁ with
  | nil =>
    rw [List.nil_append] at hl
    rw [← hl] at hl₂
    have hrest := (List.nodup_append.mp hnodup).2.1
    rw [List.nodup_cons] at hrest
    have hback : [r].Sublist back := by
      cases hl₂ with
      | cons _ h => exact (List.sublist_cons_self s [r]).trans h
      | cons_cons _ h => exact h
    exact hrest.1 (List.singleton_sublist.mp hback)
  | cons x l₁ =>
    obtain ⟨rfl, -⟩ := List.cons.inj hl
    have hmem : s ∈ front := hl₁.subset List.mem_cons_self
    have hnot := hfront s hmem
    simp [hmatch] at hnot

end Deciding
end IpDocket.Tasks
