import IpDocket.Matters.FamilyLinks

/-!
# Families over runs

`_collect_connected_family_component` collects what 64 families in a row lead to. As each call leaves
every matter with one family at most, a disconnect finds all that it has to take apart. Over a run the
families stand for a partition of the matters: a call joins two of its classes or takes a matter out.
-/

namespace IpDocket.Matters
open IpDocket.Lib

lemma clean_letter {c : Char} (h : pyIsSpace c = false) : Clean [c] := by
  simp [Clean, pyStrip, h]

def matterM : Matter := ⟨['m'], none, clean_letter rfl⟩

def matterN : Matter := ⟨['n'], none, clean_letter rfl⟩

def matterO : Matter := ⟨['o'], none, clean_letter rfl⟩

def matterP : Matter := ⟨['p'], none, clean_letter rfl⟩

def firstOf (l : List Text) : Option Text := l.head?

lemma mem_of_firstOf (l : List Text) (x : Text) (h : firstOf l = some x) : x ∈ l := List.mem_of_head? h

def firstEnv : LinkEnv where
  newFamilyId := ['g']
  newFamilyId_clean := clean_letter rfl
  newLinkId m := 'x' :: m
  manualKey := "MANUAL".toList
  lastManualKey := "LAST".toList
  next := firstOf
  next_mem := mem_of_firstOf

def twoFamilies : List Family := [⟨['f'], ['F']⟩, ⟨['k'], ['K']⟩]

lemma unique_twoFamilies : twoFamilies.Pairwise (fun r q => r.familyId ≠ q.familyId) := by
  decide

lemma clean_twoFamilies {family : Family} (h : family ∈ twoFamilies) : Clean family.familyId := by
  simp only [twoFamilies, List.mem_cons, List.not_mem_nil, or_false] at h
  rcases h with rfl | rfl
  · exact clean_letter rfl
  · exact clean_letter rfl

def pairLinks : List MatterFamily := [⟨['1'], ['m'], ['f']⟩, ⟨['2'], ['n'], ['f']⟩, ⟨['3'], ['o'], ['k']⟩]

lemma unique_pairLinks : pairLinks.Pairwise (fun r q => r.mfId ≠ q.mfId) := by
  decide

/-- Two matters in a family and one in another. -/
def pairs : FamilyDb := ⟨⟨twoFamilies, unique_twoFamilies⟩, ⟨pairLinks, unique_pairLinks⟩⟩

def mergedLinks : List MatterFamily := [⟨['1'], ['m'], ['f']⟩, ⟨['2'], ['n'], ['f']⟩, ⟨['3'], ['o'], ['f']⟩]

lemma unique_mergedLinks : mergedLinks.Pairwise (fun r q => r.mfId ≠ q.mfId) := by
  decide

def mergedPairs : FamilyDb := ⟨⟨[⟨['f'], ['F']⟩], List.pairwise_singleton _ _⟩, ⟨mergedLinks, unique_mergedLinks⟩⟩

lemma familiesOk_pairs : FamiliesOk pairs := by
  have hrows : ∀ r ∈ pairs.links.rows, r = ⟨['1'], ['m'], ['f']⟩ ∨ r = ⟨['2'], ['n'], ['f']⟩ ∨ r = ⟨['3'], ['o'], ['k']⟩ := by
    intro r hr
    simpa [pairs, pairLinks] using hr
  refine ⟨⟨?_, fun f hf => clean_twoFamilies hf⟩, ?_, ?_⟩
  · intro r hr
    rcases hrows r hr with rfl | rfl | rfl
    · exact ⟨clean_letter rfl, clean_letter rfl⟩
    · exact ⟨clean_letter rfl, clean_letter rfl⟩
    · exact ⟨clean_letter rfl, clean_letter rfl⟩
  · decide
  · rintro m g ⟨r, hr, rfl, rfl⟩
    rcases hrows r hr with rfl | rfl | rfl
    · rfl
    · rfl
    · rfl

def chainLinks : List MatterFamily :=
  [⟨['1'], ['m'], ['f']⟩, ⟨['2'], ['n'], ['f']⟩, ⟨['3'], ['n'], ['k']⟩, ⟨['4'], ['o'], ['k']⟩, ⟨['5'], ['p'], ['d']⟩]

lemma unique_chainLinks : chainLinks.Pairwise (fun r q => r.mfId ≠ q.mfId) := by
  decide

/-- A matter in two families, and one whose family is not there. -/
def chained : FamilyDb := ⟨⟨twoFamilies, unique_twoFamilies⟩, ⟨chainLinks, unique_chainLinks⟩⟩

lemma cleanIds_chained : CleanIds chained := by
  refine ⟨?_, fun f hf => clean_twoFamilies hf⟩
  intro r hr
  simp only [chained, chainLinks, List.mem_cons, List.not_mem_nil, or_false] at hr
  rcases hr with rfl | rfl | rfl | rfl | rfl
  · exact ⟨clean_letter rfl, clean_letter rfl⟩
  · exact ⟨clean_letter rfl, clean_letter rfl⟩
  · exact ⟨clean_letter rfl, clean_letter rfl⟩
  · exact ⟨clean_letter rfl, clean_letter rfl⟩
  · exact ⟨clean_letter rfl, clean_letter rfl⟩

lemma families_chained (m g : Text) (_ : (together chained) ['m'] m) (h : Linked chained.links m g) :
    g ∈ [['f'], ['k'], ['d']] := by
  obtain ⟨r, hr, -, rfl⟩ := h
  revert r
  decide

/-- Links that are not sorted stay in the order of the table. -/
lemma linksOf_unsorted (links : Keyed MatterFamily.mfId) (familyIds : List Text) :
    linksOf (fun _ _ => true) links familyIds = links.rows.filter (fun r => r.familyId ∈ familyIds) :=
  List.mergeSort_of_pairwise (List.pairwise_of_forall (fun _ _ => rfl))

lemma mem_addAll {known found : List Text} {x : Text} :
    x ∈ addAll known found ↔ x ∈ known ∨ x ∈ found ∧ x ≠ [] := by
  have hmem : x ∈ found.filter (· ≠ []) ↔ x ∈ found ∧ x ≠ [] := by
    rw [List.mem_filter, decide_eq_true_eq]
  unfold addAll
  rw [← hmem]
  constructor
  · exact mem_of_mem_foldl_keepFirst
  · rintro (hx | hx)
    · exact subset_foldl_keepFirst known hx
    · obtain ⟨y, hy, hyx⟩ : ∃ y ∈ (found.filter (· ≠ [])).foldl (keepFirst id) known, id y = id x :=
        exists_key_foldl_keepFirst known hx
      obtain rfl : y = x := hyx
      exact hy

section Collect

variable {t : Keyed MatterFamily.mfId} {known : Known} {m g a : Text} {n : Nat}

lemma mem_fams_expand (hclean : ∀ r ∈ t.rows, Clean r.matterId ∧ Clean r.familyId) :
    g ∈ (expand t.rows known).fams ↔ g ∈ known.fams ∨ ∃ m ∈ known.mids, Linked t m g := by
  unfold expand
  dsimp only
  rw [mem_addAll]
  apply or_congr_right
  simp only [List.mem_map, List.mem_filter, decide_eq_true_eq]
  constructor
  · rintro ⟨⟨r, ⟨hr, hm⟩, rfl⟩, _⟩
    exact ⟨r.matterId, hm, r, hr, rfl, (hclean r hr).2.1.symm⟩
  · rintro ⟨m, hm, r, hr, rfl, rfl⟩
    exact ⟨⟨r, ⟨hr, hm⟩, (hclean r hr).2.1⟩, (hclean r hr).2.2⟩

lemma mem_mids_expand (hclean : ∀ r ∈ t.rows, Clean r.matterId ∧ Clean r.familyId) :
    m ∈ (expand t.rows known).mids ↔ m ∈ known.mids ∨ ∃ g ∈ (expand t.rows known).fams, Linked t m g := by
  unfold expand
  dsimp only
  rw [mem_addAll]
  apply or_congr_right
  simp only [List.mem_map, List.mem_filter, decide_eq_true_eq]
  constructor
  · rintro ⟨⟨r, ⟨hr, hg⟩, rfl⟩, _⟩
    exact ⟨r.familyId, hg, r, hr, (hclean r hr).1.1.symm, rfl⟩
  · rintro ⟨g, hg, r, hr, rfl, rfl⟩
    exact ⟨⟨r, ⟨hr, hg⟩, (hclean r hr).1.1⟩, (hclean r hr).1.2⟩

/-- Stopping early makes no difference. -/
lemma collectRounds_eq (rows : List MatterFamily) (n : Nat) (known : Known) :
    collectRounds rows n known = (expand rows)^[n] known := by
  induction n generalizing known with
  | zero => rfl
  | succ n ih =>
    unfold collectRounds
    split
    · next h => exact (Function.iterate_fixed h (n + 1)).symm
    · exact ih (expand rows known)

lemma collected_rounds (hclean : ∀ r ∈ t.rows, Clean r.matterId ∧ Clean r.familyId) (n : Nat) :
    (∀ m, m ∈ ((expand t.rows)^[n] ⟨[], [a]⟩).mids ↔ m ∈ reached (Linked t) {a} n) ∧
    (∀ g, g ∈ ((expand t.rows)^[n] ⟨[], [a]⟩).fams ↔ ∃ k < n, ∃ m ∈ reached (Linked t) {a} k, Linked t m g) := by
  induction n with
  | zero => simp [reached]
  | succ n ih =>
    obtain ⟨hmids, hfams⟩ := ih
    rw [Function.iterate_succ_apply']
    have hnext : ∀ g, g ∈ (expand t.rows ((expand t.rows)^[n] ⟨[], [a]⟩)).fams ↔
        ∃ k < n + 1, ∃ m ∈ reached (Linked t) {a} k, Linked t m g := by
      intro g
      rw [mem_fams_expand hclean, hfams]
      constructor
      · rintro (⟨k, hk, hm⟩ | ⟨m, hm, hl⟩)
        · exact ⟨k, by omega, hm⟩
        · exact ⟨n, by omega, m, (hmids m).mp hm, hl⟩
      · rintro ⟨k, hk, m, hm, hl⟩
        exact .inr ⟨m, (hmids m).mpr (reached_mono (by omega) hm), hl⟩
    refine ⟨fun m => ?_, hnext⟩
    rw [mem_mids_expand hclean, hmids]
    simp only [hnext]
    constructor
    · rintro (hm | ⟨g, ⟨k, hk, m', hm', hl'⟩, hl⟩)
      · exact .inl hm
      · exact .inr ⟨m', reached_mono (by omega) hm', g, hl', hl⟩
    · rintro (hm | ⟨m', hm', g, hl', hl⟩)
      · exact .inl hm
      · exact .inr ⟨g, ⟨n, by omega, m', hm', hl'⟩, hl⟩

lemma collect_eq (db : FamilyDb) (ha : Clean a) :
    collectConnectedFamilyComponent db [a] [] = (expand db.links.rows)^[64] ⟨[], [a]⟩ := by
  have hseed : addAll [] ([a].map pyStrip) = [a] := by
    simp [addAll, keepFirst, ha.1, ha.2]
  unfold collectConnectedFamilyComponent
  rw [collectRounds_eq, hseed]
  rfl

/-- What is collected: the matters that at most 64 families lead to, and the families on the way. -/
theorem collected_within (db : FamilyDb) (hclean : ∀ r ∈ db.links.rows, Clean r.matterId ∧ Clean r.familyId)
    (ha : Clean a) :
    (∀ m, m ∈ (collectConnectedFamilyComponent db [a] []).mids ↔ m ∈ reached (Linked db.links) {a} 64) ∧
    (∀ g, g ∈ (collectConnectedFamilyComponent db [a] []).fams ↔
      ∃ k < 64, ∃ m ∈ reached (Linked db.links) {a} k, Linked db.links m g) := by
  rw [collect_eq db ha]
  exact collected_rounds hclean 64

/-- If the component has 64 families at most, it is collected as a whole. -/
theorem collected_component (db : FamilyDb) (hclean : ∀ r ∈ db.links.rows, Clean r.matterId ∧ Clean r.familyId)
    (ha : Clean a) {fams : List Text} (hfams : ∀ m g, (together db) a m → Linked db.links m g → g ∈ fams)
    (hlength : fams.length ≤ 64) :
    (∀ m, m ∈ (collectConnectedFamilyComponent db [a] []).mids ↔ (together db) a m) ∧
    (∀ g, g ∈ (collectConnectedFamilyComponent db [a] []).fams ↔ ∃ m, (together db) a m ∧ Linked db.links m g) := by
  obtain ⟨hmids, hcollected⟩ := collected_within db hclean ha
  have hmet : ∀ m g, (together db) a m → Linked db.links m g →
      ∃ k < 64, ∃ c ∈ reached (Linked db.links) {a} k, Linked db.links c g := by
    intro m g ham hl
    exact groups_met (n := 63) (fun a' ha' b g hab hbg => hfams b g (ha' ▸ hab) hbg) hlength rfl ham hl
  constructor
  · intro m
    rw [hmids]
    constructor
    · intro hm
      obtain ⟨a', rfl, ham⟩ := component_of_reached hm
      exact ham
    · intro ham
      by_cases hshared : ∃ g, Linked db.links m g
      · obtain ⟨g, hg⟩ := hshared
        obtain ⟨k, hk, c, hc, hcg⟩ := hmet m g ham hg
        exact reached_mono hk (.inr ⟨c, hc, g, hcg, hg⟩)
      · -- a matter without families is in a component of its own
        have hclosed : ∀ b ∈ ({m} : Set Text), ∀ c, Shares (Linked db.links) b c → c ∈ ({m} : Set Text) := by
          rintro b rfl c ⟨g, hg, -⟩
          exact absurd ⟨g, hg⟩ hshared
        obtain rfl : a = m := (component_of_closed hclosed ham).mpr rfl
        exact reached_mono (Nat.zero_le 64) rfl
  · intro g
    rw [hcollected]
    constructor
    · rintro ⟨k, -, m, hm, hl⟩
      obtain ⟨a', rfl, ham⟩ := component_of_reached hm
      exact ⟨m, ham, hl⟩
    · rintro ⟨m, ham, hl⟩
      exact hmet m g ham hl

/-- A chain over two families, next to a matter that it does not lead to. -/
theorem collected_component_chain :
    (collectConnectedFamilyComponent chained [['m']] []).mids = [['m'], ['n'], ['o']] ∧
    (∀ m, m ∈ (collectConnectedFamilyComponent chained [['m']] []).mids ↔ (together chained) ['m'] m) ∧
    (∀ g, g ∈ (collectConnectedFamilyComponent chained [['m']] []).fams ↔
      ∃ m, (together chained) ['m'] m ∧ Linked chained.links m g) :=
  ⟨by decide, collected_component chained cleanIds_chained.clean (clean_letter rfl) families_chained (by decide)⟩

lemma FamiliesOk.mem_collected {db : FamilyDb} (h : FamiliesOk db) (ha : Clean a) :
    g ∈ (collectConnectedFamilyComponent db [a] []).fams ↔ Linked db.links a g := by
  rw [(collected_within db h.clean ha).2]
  constructor
  · rintro ⟨k, -, m, hm, hl⟩
    obtain ⟨a', rfl, ham⟩ := component_of_reached hm
    rcases h.together_iff.mp ham with rfl | ⟨g', hag', hmg'⟩
    · exact hl
    · exact h.unique m g' g hmg' hl ▸ hag'
  · intro hl
    exact ⟨0, by omega, a, rfl, hl⟩

end Collect

/-! ### Disconnecting -/

section Disconnect

variable {db db' : FamilyDb} {m g a b : Text} {ids : List Text}

lemma two_le_countP {l : List MatterFamily} {p : MatterFamily → Bool} {r q : MatterFamily} (hr : r ∈ l)
    (hq : q ∈ l) (hne : r ≠ q) (hpr : p r) (hpq : p q) : 2 ≤ l.countP p := by
  rw [List.countP_eq_length_filter]
  have hr' : r ∈ l.filter p := List.mem_filter.mpr ⟨hr, hpr⟩
  have hq' : q ∈ l.filter p := List.mem_filter.mpr ⟨hq, hpq⟩
  by_contra hlt
  obtain ⟨x, hx⟩ : ∃ x, ∀ y ∈ l.filter p, y = x := by
    cases hl : l.filter p with
    | nil =>
      rw [hl] at hr'
      cases hr'
    | cons x rest =>
      rw [hl, List.length_cons] at hlt
      have hnil : rest = [] := List.length_eq_zero_iff.mp (by omega)
      exact ⟨x, by simp [hnil]⟩
  exact hne ((hx r hr').trans (hx q hq').symm)

/-- Families that are cleaned up have one member at most. -/
lemma shares_cleanup (hab : a ≠ b) :
    Shares (Linked (cleanupDegenerateFamilies db ids).links) a b ↔ Shares (Linked db.links) a b := by
  have hlinked : ∀ a g, Linked (cleanupDegenerateFamilies db ids).links a g ↔ Linked db.links a g ∧
      g ∉ ids.filter (fun f => f ≠ [] ∧ db.links.rows.countP (fun r => r.familyId = f) < 2) := by
    intro a g
    unfold cleanupDegenerateFamilies Linked Keyed.delete
    dsimp only
    constructor
    · rintro ⟨r, hr, rfl, rfl⟩
      obtain ⟨hmem, hnot⟩ := List.mem_filter.mp hr
      exact ⟨⟨r, hmem, rfl, rfl⟩, by simpa only [Bool.not_eq_true', decide_eq_false_iff_not] using hnot⟩
    · rintro ⟨⟨r, hr, rfl, rfl⟩, hnot⟩
      exact ⟨r, List.mem_filter.mpr ⟨hr, by simpa only [Bool.not_eq_true', decide_eq_false_iff_not] using hnot⟩,
        rfl, rfl⟩
  constructor
  · rintro ⟨g, ha, hb⟩
    exact ⟨g, ((hlinked a g).mp ha).1, ((hlinked b g).mp hb).1⟩
  · rintro ⟨g, ha, hb⟩
    have hkept : g ∉ ids.filter (fun f => f ≠ [] ∧ db.links.rows.countP (fun r => r.familyId = f) < 2) := by
      intro hin
      obtain ⟨r, hr, hra, hrg⟩ := ha
      obtain ⟨q, hq, hqb, hqg⟩ := hb
      have htwo := two_le_countP (p := fun r => r.familyId = g) hr hq
        (fun he => hab (hra.symm.trans ((congrArg MatterFamily.matterId he).trans hqb)))
        (decide_eq_true hrg) (decide_eq_true hqg)
      have hless := (of_decide_eq_true (List.mem_filter.mp hin).2).2
      omega
    exact ⟨g, (hlinked a g).mpr ⟨ha, hkept⟩, (hlinked b g).mpr ⟨hb, hkept⟩⟩

lemma FamiliesOk.cleanup (h : FamiliesOk db) (ids : List Text) : FamiliesOk (cleanupDegenerateFamilies db ids) := by
  have hrows : ∀ r ∈ (cleanupDegenerateFamilies db ids).links.rows, r ∈ db.links.rows ∧
      r.familyId ∉ ids.filter (fun f => f ≠ [] ∧ db.links.rows.countP (fun r => r.familyId = f) < 2) := by
    intro r hr
    obtain ⟨hmem, hnot⟩ := List.mem_filter.mp hr
    exact ⟨hmem, by simpa only [Bool.not_eq_true', decide_eq_false_iff_not] using hnot⟩
  refine ⟨⟨fun r hr => h.clean r (hrows r hr).1, fun f hf => h.cleanFamilies f (List.mem_filter.mp hf).1⟩,
    fun r hr q hq => h.single r (hrows r hr).1 q (hrows q hq).1, ?_⟩
  rintro m g ⟨r, hr, rfl, rfl⟩
  obtain ⟨hmem, hnot⟩ := hrows r hr
  obtain ⟨f, hf⟩ := Option.isSome_iff_exists.mp (h.owned r.matterId r.familyId ⟨r, hmem, rfl, rfl⟩)
  unfold cleanupDegenerateFamilies
  dsimp only
  rw [Keyed.find_delete, hf, Option.filter_some, Keyed.key_of_find hf, if_pos]
  · rfl
  · simpa only [Bool.not_eq_true', decide_eq_false_iff_not] using hnot

/-- Leaving all families is losing all links. -/
lemma links_leave (hids : ∀ g, Linked db.links m g → g ∈ ids) :
    db.links.delete (fun r => decide (r.matterId = m ∧ r.familyId ∈ ids)) = (removeMatter db m).links := by
  have hrows : (db.links.delete (fun r => decide (r.matterId = m ∧ r.familyId ∈ ids))).rows =
      (removeMatter db m).links.rows := by
    apply List.filter_congr
    intro r hr
    have hin : r.matterId = m → r.familyId ∈ ids := fun hm => hids r.familyId ⟨r, hr, hm, rfl⟩
    simp only [and_iff_left_of_imp hin]
  cases hl : db.links.delete (fun r => decide (r.matterId = m ∧ r.familyId ∈ ids)) with
  | mk rows unique =>
    cases hr : (removeMatter db m).links with
    | mk rows' unique' =>
      rw [hl, hr] at hrows
      cases hrows
      rfl

/-- The clean-up after a removal changes no shared family. -/
lemma together_cleanup (h : FamiliesOk db) (ids : List Text) :
    together (cleanupDegenerateFamilies db ids) = together db := by
  ext a b
  rw [(h.cleanup ids).together_iff, h.together_iff]
  by_cases hab : a = b
  · simp [hab]
  · simp only [hab, false_or]
    exact shares_cleanup hab

/-- A matter that leaves the family it has is alone, and the others stay together. -/
lemma leaveFamilies_spec (h : FamiliesOk db) (hids : ∀ g, Linked db.links m g → g ∈ ids) :
    FamiliesOk (leaveFamilies db m ids) ∧
      (together (leaveFamilies db m ids) = isolated m (together db)) := by
  have hremoved : FamiliesOk (removeMatter db m) := h.delete _
  unfold leaveFamilies
  dsimp only
  rw [links_leave hids]
  split
  · refine ⟨hremoved.cleanup ids, ?_⟩
    rw [← together_remove h]
    exact together_cleanup hremoved ids
  · next hnone =>
    -- no link of the matter is there
    have hall : ∀ g, ¬Linked db.links m g := by
      rintro g ⟨r, hr, hm, hg⟩
      exact hnone (List.any_eq_true.mpr ⟨r, hr, decide_eq_true ⟨hm, hids _ ⟨r, hr, hm, rfl⟩⟩⟩)
    refine ⟨h, (isolated_of_alone ?_).symm⟩
    intro a ha
    rcases h.together_iff.mp ha with heq | ⟨g, -, hg⟩
    · exact heq
    · exact absurd hg (hall g)

lemma leaveFamilies_nil : leaveFamilies db m [] = db := by
  unfold leaveFamilies
  dsimp only
  rw [if_neg]
  simp

/-- A matter that is taken out of what it is together with is alone. -/
theorem disconnect_spec {mayEdit : Text → Bool} {source target : Matter} (h : FamiliesOk db)
    (hcall : familyDisconnect mayEdit db source.matterId target.matterId = some db') :
    FamiliesOk db' ∧ ((together db) source.matterId target.matterId →
      together db' = isolated target.matterId (together db)) ∧
      (¬(together db) source.matterId target.matterId → db' = db) := by
  have hne : source.matterId ≠ target.matterId := by
    by_contra he
    simp [familyDisconnect, he] at hcall
  unfold familyDisconnect at hcall
  simp only [Option.bind_eq_bind, Option.bind_eq_some_iff, Option.pure_def, Option.some.injEq] at hcall
  obtain ⟨-, -, -, -, hleft⟩ := hcall
  rw [← hleft]
  have hshared : ∀ g, g ∈ (collectConnectedFamilyComponent db [source.matterId] []).fams.filter
      (· ∈ (collectConnectedFamilyComponent db [target.matterId] []).fams) ↔
      Linked db.links source.matterId g ∧ Linked db.links target.matterId g := by
    intro g
    rw [List.mem_filter, decide_eq_true_eq, h.mem_collected source.clean, h.mem_collected target.clean]
  have htogether : (together db) source.matterId target.matterId ↔
      ∃ g, Linked db.links source.matterId g ∧ Linked db.links target.matterId g :=
    h.together_iff.trans (or_iff_right hne)
  by_cases hst : (together db) source.matterId target.matterId
  · obtain ⟨g, hs, ht⟩ := htogether.mp hst
    have hids : ∀ g', Linked db.links target.matterId g' → g' ∈ (collectConnectedFamilyComponent db
        [source.matterId] []).fams.filter (· ∈ (collectConnectedFamilyComponent db [target.matterId] []).fams) := by
      intro g' hg'
      obtain rfl := h.unique _ g g' ht hg'
      exact (hshared g).mpr ⟨hs, ht⟩
    obtain ⟨hok, halone⟩ := leaveFamilies_spec h hids
    exact ⟨hok, fun _ => halone, fun hnot => absurd hst hnot⟩
  · have hnil : (collectConnectedFamilyComponent db [source.matterId] []).fams.filter
        (· ∈ (collectConnectedFamilyComponent db [target.matterId] []).fams) = [] := by
      rw [List.eq_nil_iff_forall_not_mem]
      intro g hg
      exact hst (htogether.mpr ⟨g, (hshared g).mp hg⟩)
    rw [hnil, leaveFamilies_nil]
    exact ⟨h, fun hyes => absurd hyes hst, fun _ => rfl⟩

end Disconnect

section Sharing

variable {T : UnicodeTables} {before : MatterFamily → MatterFamily → Bool} {env : LinkEnv}
  {mayEdit : Text → Bool} {db db' : FamilyDb} {q : LinkRequest} {family : Family} {created : Bool} {g : Text}

variable (T env) in
/-- Without a key, a family of one of the two matters is taken, if one is there. -/
lemma linked_resolved (h : CleanIds db) (hkey : pyStrip (q.explicitFamilyKey.getD []) = [])
    (hg : Linked db.links q.primaryMatter.matterId g ∨ Linked db.links q.targetMatter.matterId g)
    (hfound : (db.families.find g).isSome) :
    Linked db.links q.primaryMatter.matterId (resolved T env db q).1.familyId ∨
      Linked db.links q.targetMatter.matterId (resolved T env db q).1.familyId := by
  have hids : ∀ g, g ∈ familyIdsOf db q.primaryMatter.matterId ∨ g ∈ familyIdsOf db q.targetMatter.matterId ↔
      Linked db.links q.primaryMatter.matterId g ∨ Linked db.links q.targetMatter.matterId g :=
    fun g => or_congr (mem_familyIdsOf h) (mem_familyIdsOf h)
  have heither : ∀ g, g ∈ (if q.preferPrimary then familyIdsOf db q.primaryMatter.matterId ++
      familyIdsOf db q.targetMatter.matterId else familyIdsOf db q.targetMatter.matterId ++
      familyIdsOf db q.primaryMatter.matterId) ↔
      Linked db.links q.primaryMatter.matterId g ∨ Linked db.links q.targetMatter.matterId g := by
    intro g
    rw [← hids]
    split
    · exact List.mem_append
    · exact List.mem_append.trans or_comm
  unfold resolved resolveFamilyForLink
  dsimp only
  rw [if_neg (not_not.mpr hkey)]
  cases hown : sharedOrOwn env db (familyIdsOf db q.primaryMatter.matterId)
      (familyIdsOf db q.targetMatter.matterId) q.preferPrimary with
  | some family =>
    dsimp only
    rcases Option.or_eq_some_iff.mp hown with hcommon | ⟨-, heitherOne⟩
    · obtain ⟨id, hnext, hid⟩ := Option.bind_eq_some_iff.mp hcommon
      rw [Keyed.key_of_find hid, ← hids]
      exact .inl (List.mem_filter.mp (env.next_mem _ _ hnext)).1
    · obtain ⟨id, hmem, hid⟩ := List.exists_of_findSome?_eq_some heitherOne
      rw [Keyed.key_of_find hid]
      exact (heither id).mp (List.mem_filter.mp hmem).1
  | none =>
    obtain ⟨family, hfamily⟩ := Option.isSome_iff_exists.mp hfound
    have hclean : Clean g := hg.elim h.clean_of_linked h.clean_of_linked
    have hnone := List.findSome?_eq_none_iff.mp (Option.or_eq_none_iff.mp hown).2 g
      (List.mem_filter.mpr ⟨(heither g).mpr hg, decide_eq_true hclean.2⟩)
    rw [hfamily] at hnone
    cases hnone

/-- A matter whose family is not there is linked with one that is in two families. -/
lemma link_chained : ∃ db' family, linkMattersIntoFamily asciiTables (fun _ _ => true) firstEnv (fun _ => true) chained
      ⟨matterP, matterN, none, true⟩ = some (db', family, false) ∧
    db'.links.rows.map (fun r => (r.matterId, r.familyId)) =
      [(['m'], ['f']), (['n'], ['f']), (['o'], ['f']), (['p'], ['f'])] := by
  unfold linkMattersIntoFamily mergeFamiliesInto mergeLinks mergeRows dedupeRows
  simp only [linksOf_unsorted]
  exact ⟨_, _, rfl, rfl⟩

end Sharing

section Runs

variable (T : UnicodeTables) (before : MatterFamily → MatterFamily → Bool)

open scoped Classical in
/-- What the calls ask for: two matters and the members of a family are joined, or a matter is taken out. -/
noncomputable def partitionStep (e : Setoid Text) (db : FamilyDb) : FamilyCall → FamilyDb → Setoid Text
  | .link env _ q, _ => e ⊔ joined ({q.primaryMatter.matterId, q.targetMatter.matterId} ∪
      {m | Linked db.links m (resolved T env db q).1.familyId})
  | .enter _ _ matter familyId, _ => e ⊔ joined ({matter.matterId} ∪ {m | Linked db.links m (pyStrip familyId)})
  | .disconnect _ source target, _ =>
    if e source.matterId target.matterId then isolated target.matterId e else e
  | .remove matterId, _ => isolated matterId e

variable {T before}

lemma familyStep_spec {db db' : FamilyDb} {call : FamilyCall} (h : FamiliesOk db) (hcall : call.Admitted db)
    (hstep : familyStep T before db call = some db') :
    FamiliesOk db' ∧ together db' = partitionStep T (together db) db call db' := by
  cases call with
  | link env mayEdit q =>
    obtain ⟨⟨linked, family, created⟩, hlink, rfl⟩ := Option.map_eq_some_iff.mp hstep
    have hfamily : family = (resolved T env db q).1 := congrArg Prod.fst (linkMatters_eq_some hlink).1
    refine ⟨h.link hlink, ?_⟩
    rw [together_link h.toCleanIds hlink, hfamily]
    rfl
  | enter env mayEdit matter familyId =>
    obtain ⟨⟨linked, family⟩, henter, rfl⟩ := Option.map_eq_some_iff.mp hstep
    refine ⟨(enter_collapses h hcall henter).1, ?_⟩
    rw [together_enter h hcall henter, enter_family henter]
    rfl
  | disconnect mayEdit source target =>
    obtain ⟨hok, halone, hsame⟩ := disconnect_spec h hstep
    refine ⟨hok, ?_⟩
    by_cases hst : (together db) source.matterId target.matterId
    · exact (halone hst).trans (if_pos hst).symm
    · rw [hsame hst]
      exact (if_neg hst).symm
  | remove matterId =>
    cases hstep
    exact ⟨h.delete _, together_remove h⟩

/-- The link merges the two families. -/
lemma step_pairs : familyStep asciiTables (fun _ _ => true) pairs
    (.link firstEnv (fun _ => true) ⟨matterM, matterO, none, true⟩) = some mergedPairs := by
  unfold familyStep linkMattersIntoFamily mergeFamiliesInto mergeLinks mergeRows dedupeRows
  simp only [linksOf_unsorted]
  rfl

end Runs

end IpDocket.Matters
