import Mathlib

/-!
# Components of an incidence relation

Members belong to groups, a member possibly to several. Two members are in one component if groups lead
from the one to the other. Collapsing groups into one and adding members to it joins the components of
all that it then has, and changes nothing else.
-/

namespace IpDocket.Lib

variable {α γ : Type*}

/-- The two members have a group in common. -/
def Shares (I : α → γ → Prop) (a b : α) : Prop := ∃ g, I a g ∧ I b g

/-- Groups lead from one member to the other. -/
def components (I : α → γ → Prop) : Setoid α := Relation.EqvGen.setoid (Shares I)

/-- All members of the set are in one class. -/
def joined (S : Set α) : Setoid α := Relation.EqvGen.setoid (fun a b => a ∈ S ∧ b ∈ S)

/-- The element is taken out of its class. -/
def isolated (t : α) (e : Setoid α) : Setoid α where
  r a b := a = b ∨ a ≠ t ∧ b ≠ t ∧ e a b
  iseqv := by
    constructor
    · intro a
      exact .inl rfl
    · rintro a b (rfl | ⟨ha, hb, hab⟩)
      · exact .inl rfl
      · exact .inr ⟨hb, ha, e.symm' hab⟩
    · rintro a b c (rfl | ⟨ha, hb, hab⟩) (rfl | ⟨hb', hc, hbc⟩)
      · exact .inl rfl
      · exact .inr ⟨hb', hc, hbc⟩
      · exact .inr ⟨ha, hb, hab⟩
      · exact .inr ⟨ha, hc, e.trans' hab hbc⟩

variable {I J : α → γ → Prop} {S S' : Set α} {e : Setoid α} {a b t : α} {g : γ}

lemma isolated_iff : isolated t e a b ↔ a = b ∨ a ≠ t ∧ b ≠ t ∧ e a b := Iff.rfl

/-- An element that is alone already. -/
lemma isolated_of_alone (h : ∀ a, e a t → a = t) : isolated t e = e := by
  ext a b
  rw [isolated_iff]
  constructor
  · rintro (rfl | ⟨-, -, hab⟩)
    · exact e.refl' a
    · exact hab
  · intro hab
    by_cases heq : a = b
    · exact .inl heq
    · refine .inr ⟨?_, ?_, hab⟩
      · rintro rfl
        exact heq (h b (e.symm' hab)).symm
      · rintro rfl
        exact heq (h a hab)

lemma components_le : components I ≤ e ↔ ∀ a b g, I a g → I b g → e a b := by
  constructor
  · intro h a b g ha hb
    exact h (.rel a b ⟨g, ha, hb⟩)
  · intro h
    apply Setoid.eqvGen_le
    rintro a b ⟨g, ha, hb⟩
    exact h a b g ha hb

lemma joined_le : joined S ≤ e ↔ ∀ a ∈ S, ∀ b ∈ S, e a b := by
  constructor
  · intro h a ha b hb
    exact h (.rel a b ⟨ha, hb⟩)
  · intro h
    apply Setoid.eqvGen_le
    rintro a b ⟨ha, hb⟩
    exact h a ha b hb

lemma components_of_shared (ha : I a g) (hb : I b g) : components I a b := .rel a b ⟨g, ha, hb⟩

lemma joined_of_mem (ha : a ∈ S) (hb : b ∈ S) : joined S a b := .rel a b ⟨ha, hb⟩

lemma joined_mono (h : S ⊆ S') : joined S ≤ joined S' :=
  joined_le.mpr (fun _ ha _ hb => joined_of_mem (h ha) (h hb))

/-- Members that are already in one class need not be joined. -/
lemma sup_joined_eq (hS : S ⊆ S') (h : ∀ a ∈ S', ∃ b ∈ S, e a b) : e ⊔ joined S' = e ⊔ joined S := by
  have hleft : e ≤ e ⊔ joined S := le_sup_left
  have hright : joined S ≤ e ⊔ joined S := le_sup_right
  apply le_antisymm
  · apply sup_le hleft
    rw [joined_le]
    intro a ha b hb
    obtain ⟨a', ha', haa'⟩ := h a ha
    obtain ⟨b', hb', hbb'⟩ := h b hb
    have hab : (e ⊔ joined S) a b' := (e ⊔ joined S).trans' (hleft haa') (hright (joined_of_mem ha' hb'))
    exact (e ⊔ joined S).trans' hab ((e ⊔ joined S).symm' (hleft hbb'))
  · exact sup_le_sup_left (joined_mono hS) e

lemma components_iff_of_single (h : ∀ a g g', I a g → I a g' → g = g') :
    components I a b ↔ a = b ∨ Shares I a b := by
  constructor
  · intro hab
    have hle : ∀ a b, Relation.EqvGen (Shares I) a b → a = b ∨ Shares I a b := by
      intro a b hab
      induction hab with
      | rel a b hab => exact .inr hab
      | refl a => exact .inl rfl
      | symm a b _ ih =>
        rcases ih with rfl | ⟨g, ha, hb⟩
        · exact .inl rfl
        · exact .inr ⟨g, hb, ha⟩
      | trans a b c _ _ ihab ihbc =>
        rcases ihab with rfl | ⟨g, ha, hb⟩
        · exact ihbc
        · rcases ihbc with rfl | ⟨g', hb', hc⟩
          · exact .inr ⟨g, ha, hb⟩
          · obtain rfl := h b g g' hb hb'
            exact .inr ⟨g, ha, hc⟩
    exact hle a b hab
  · rintro (rfl | ⟨g, ha, hb⟩)
    · exact (components I).refl' a
    · exact components_of_shared ha hb

/-- Where each member has one group, a member that leaves its group leaves the others together. -/
lemma components_leave (hI : ∀ a g g', I a g → I a g' → g = g')
    (hJ : ∀ a b, a ≠ b → (Shares J a b ↔ a ≠ t ∧ b ≠ t ∧ Shares I a b))
    (hsingle : ∀ a g g', J a g → J a g' → g = g') : components J = isolated t (components I) := by
  ext a b
  rw [components_iff_of_single hsingle, isolated_iff, components_iff_of_single hI]
  by_cases hab : a = b
  · simp [hab]
  · simp [hab, hJ a b hab]

/-- The groups of `M` become the group `c`, which the members of `S` enter. -/
structure Collapses (I J : α → γ → Prop) (M : Set γ) (c : γ) (S : Set α) : Prop where
  away : ∀ a g, g ≠ c → (J a g ↔ g ∉ M ∧ I a g)
  here : ∀ a, J a c ↔ a ∈ S ∨ I a c ∨ ∃ g ∈ M, I a g

/-- The members of the group that is left. -/
def gathered (I : α → γ → Prop) (M : Set γ) (c : γ) (S : Set α) : Set α :=
  {a | a ∈ S ∨ I a c ∨ ∃ g ∈ M, I a g}

variable {M : Set γ} {c : γ}

lemma components_of_collapses (h : Collapses I J M c S) :
    components J = components I ⊔ joined (gathered I M c S) := by
  have hleft : components I ≤ components I ⊔ joined (gathered I M c S) := le_sup_left
  have hright : joined (gathered I M c S) ≤ components I ⊔ joined (gathered I M c S) := le_sup_right
  apply le_antisymm
  · rw [components_le]
    intro a b g ha hb
    by_cases hg : g = c
    · subst hg
      exact hright (joined_of_mem ((h.here a).mp ha) ((h.here b).mp hb))
    · exact hleft (components_of_shared ((h.away a g hg).mp ha).2 ((h.away b g hg).mp hb).2)
  · apply sup_le
    · rw [components_le]
      intro a b g ha hb
      by_cases hg : g = c
      · subst hg
        exact components_of_shared ((h.here a).mpr (.inr (.inl ha))) ((h.here b).mpr (.inr (.inl hb)))
      · by_cases hM : g ∈ M
        · exact components_of_shared ((h.here a).mpr (.inr (.inr ⟨g, hM, ha⟩)))
            ((h.here b).mpr (.inr (.inr ⟨g, hM, hb⟩)))
        · exact components_of_shared ((h.away a g hg).mpr ⟨hM, ha⟩) ((h.away b g hg).mpr ⟨hM, hb⟩)
    · rw [joined_le]
      intro a ha b hb
      exact components_of_shared ((h.here a).mpr ha) ((h.here b).mpr hb)

/-- If every group that is collapsed has a member in `S`, the components of the members of `S` and of `c`
are joined, and no others. -/
theorem components_collapse (h : Collapses I J M c S) (hM : ∀ g ∈ M, ∃ a ∈ S, I a g) :
    components J = components I ⊔ joined (S ∪ {a | I a c}) := by
  rw [components_of_collapses h]
  apply sup_joined_eq
  · rintro a (ha | ha)
    · exact .inl ha
    · exact .inr (.inl ha)
  · rintro a (ha | ha | ⟨g, hg, ha⟩)
    · exact ⟨a, .inl ha, (components I).refl' a⟩
    · exact ⟨a, .inr ha, (components I).refl' a⟩
    · obtain ⟨s, hs, hsg⟩ := hM g hg
      exact ⟨s, .inl hs, components_of_shared ha hsg⟩

/-- Members that enter a group join those it has. -/
lemma collapses_enter (h : ∀ a g, J a g ↔ I a g ∨ g = c ∧ a ∈ S) : Collapses I J ∅ c S := by
  constructor
  · intro a g hg
    rw [h]
    simp [hg]
  · intro a
    rw [h]
    simp [or_comm]

/-- The members reached from the set over at most so many groups. -/
def reached (I : α → γ → Prop) (S : Set α) : ℕ → Set α
  | 0 => S
  | n + 1 => {b | b ∈ reached I S n ∨ ∃ a ∈ reached I S n, Shares I a b}

lemma reached_mono {m n : ℕ} (h : m ≤ n) : reached I S m ⊆ reached I S n := by
  induction h with
  | refl => exact subset_rfl
  | step _ ih => exact fun a ha => .inl (ih ha)

lemma component_of_reached {n : ℕ} (h : b ∈ reached I S n) : ∃ a ∈ S, components I a b := by
  induction n generalizing b with
  | zero => exact ⟨b, h, (components I).refl' b⟩
  | succ n ih =>
    rcases h with h | ⟨c, hc, g, hcg, hbg⟩
    · exact ih h
    · obtain ⟨a, ha, hac⟩ := ih hc
      exact ⟨a, ha, (components I).trans' hac (components_of_shared hcg hbg)⟩

/-- A set that no group leads out of has whole components. -/
lemma component_of_closed (hS : ∀ a ∈ S, ∀ b, Shares I a b → b ∈ S) (h : components I a b) :
    a ∈ S ↔ b ∈ S := by
  have hle : ∀ a b, Relation.EqvGen (Shares I) a b → (a ∈ S ↔ b ∈ S) := by
    intro a b hab
    induction hab with
    | rel a b hab =>
      obtain ⟨g, ha, hb⟩ := hab
      exact ⟨fun h => hS a h b ⟨g, ha, hb⟩, fun h => hS b h a ⟨g, hb, ha⟩⟩
    | refl a => exact Iff.rfl
    | symm a b _ ih => exact ih.symm
    | trans a b c _ _ ihab ihbc => exact ihab.trans ihbc
  exact hle a b h

/-- Once a step reaches nothing new, the components are reached. -/
lemma reached_of_stable {n : ℕ} (hstable : reached I S (n + 1) = reached I S n) (ha : a ∈ S)
    (h : components I a b) : b ∈ reached I S n := by
  apply (component_of_closed ?_ h).mp (reached_mono (Nat.zero_le n) ha)
  intro c hc d hcd
  rw [← hstable]
  exact .inr ⟨c, hc, hcd⟩

/-- As long as steps reach something new, each of them has met a group that was not met before. -/
lemma stable_or_groups (I : α → γ → Prop) (S : Set α) (n : ℕ) : reached I S (n + 1) = reached I S n ∨
    ∃ gs : List γ, gs.Nodup ∧ gs.length = n + 1 ∧ ∀ g ∈ gs, ∃ k < n + 1, ∃ a ∈ reached I S k, I a g := by
  have hnew : ∀ n, reached I S (n + 1) ≠ reached I S n → ∃ b, b ∉ reached I S n ∧
      ∃ a ∈ reached I S n, Shares I a b := by
    intro n hne
    by_contra hnone
    apply hne
    apply Set.Subset.antisymm
    · rintro b (hb | hb)
      · exact hb
      · by_contra hnot
        exact hnone ⟨b, hnot, hb⟩
    · exact reached_mono (Nat.le_succ n)
  induction n with
  | zero =>
    by_cases hstable : reached I S 1 = reached I S 0
    · exact .inl hstable
    · obtain ⟨b, -, a, ha, g, hag, -⟩ := hnew 0 hstable
      exact .inr ⟨[g], by simp, rfl, by simpa using ⟨a, ha, hag⟩⟩
  | succ n ih =>
    by_cases hstable : reached I S (n + 2) = reached I S (n + 1)
    · exact .inl hstable
    · obtain ⟨b, hb, a, ha, g, hag, hbg⟩ := hnew (n + 1) hstable
      rcases ih with hbefore | ⟨gs, hnodup, hlength, hgs⟩
      · exact absurd (.inr ⟨a, hbefore ▸ ha, g, hag, hbg⟩) hb
      · refine .inr ⟨g :: gs, List.nodup_cons.mpr ⟨?_, hnodup⟩, by simp [hlength], ?_⟩
        · intro hg
          obtain ⟨k, hk, c, hc, hcg⟩ := hgs g hg
          have hnext : b ∈ reached I S (k + 1) := .inr ⟨c, hc, g, hcg, hbg⟩
          exact hb (reached_mono hk hnext)
        · intro g' hg'
          rcases List.mem_cons.mp hg' with rfl | hg'
          · exact ⟨n + 1, by omega, a, ha, hag⟩
          · obtain ⟨k, hk, hc⟩ := hgs g' hg'
            exact ⟨k, by omega, hc⟩

/-- With so many groups in the components at most, all of them are met in as many steps. -/
theorem groups_met {n : ℕ} {gs : List γ} (hgs : ∀ a ∈ S, ∀ b g, components I a b → I b g → g ∈ gs)
    (hn : gs.length ≤ n + 1) (ha : a ∈ S) (hab : components I a b) (hbg : I b g) :
    ∃ k < n + 1, ∃ c ∈ reached I S k, I c g := by
  rcases stable_or_groups I S n with hstable | ⟨met, hnodup, hlength, hmet⟩
  · exact ⟨n, by omega, b, reached_of_stable hstable ha hab, hbg⟩
  · have hsubset : met ⊆ gs := by
      intro g hg
      obtain ⟨k, -, c, hc, hcg⟩ := hmet g hg
      obtain ⟨a', ha', hac⟩ := component_of_reached hc
      exact hgs a' ha' c g hac hcg
    have hperm : met.Perm gs := (hnodup.subperm hsubset).perm_of_length_le (by omega)
    exact hmet g (hperm.mem_iff.mpr (hgs a ha b g hab hbg))

end IpDocket.Lib
