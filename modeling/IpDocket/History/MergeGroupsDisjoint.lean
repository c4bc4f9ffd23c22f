import IpDocket.History.MergeGroupsNormal
import Mathlib.Data.List.Pairwise

/-!
# Disjoint groups keep what they can

The groups that are returned are disjoint and are parts of the given ones. A group that shares no row with
what is returned may be lost all the same: its rows were claimed by a group that was dropped.
-/

namespace IpDocket.History
open IpDocket.Lib IpDocket.Search

section Claims

variable {F : Type} {minMembers : Int} {claimed : List Text} {groups : List (MergeGroup F)}

/-- The keys of the groups. -/
def allKeys (groups : List (MergeGroup F)) : List Text := groups.flatMap (·.memberKeys)

/-- The group with those of its keys that are not claimed. -/
def unclaimed (claimed : List Text) (g : MergeGroup F) : MergeGroup F :=
  { g with memberKeys := g.memberKeys.filter (· ∉ claimed) }

lemma claim_eq (claimed : List Text) {keys : List Text} (hkeys : keys.Nodup) :
    claim claimed keys = (keys.filter (· ∉ claimed), claimed ++ keys.filter (· ∉ claimed)) := by
  induction keys generalizing claimed with
  | nil => simp [claim]
  | cons key keys ih =>
    rw [List.nodup_cons] at hkeys
    rw [claim]
    by_cases hmem : key ∈ claimed
    · rw [if_pos hmem, ih claimed hkeys.2, List.filter_cons_of_neg (by simpa using hmem)]
    · have hsame : keys.filter (· ∉ claimed ++ [key]) = keys.filter (· ∉ claimed) := by
        apply List.filter_congr
        intro k hk
        have hne : k ≠ key := fun heq => hkeys.1 (heq ▸ hk)
        simp [hne]
      rw [if_neg hmem, ih (claimed ++ [key]) hkeys.2, hsame, List.filter_cons_of_pos (by simpa using hmem)]
      simp

/-- Only which keys are claimed matters. -/
lemma ensureFrom_congr {claimed claimed' : List Text} (h : ∀ k, k ∈ claimed ↔ k ∈ claimed')
    (hgroups : ∀ g ∈ groups, g.memberKeys.Nodup) :
    ensureFrom minMembers claimed groups = ensureFrom minMembers claimed' groups := by
  induction groups generalizing claimed claimed' with
  | nil => rfl
  | cons g groups ih =>
    have hkeys := hgroups g List.mem_cons_self
    have hrest : ∀ g ∈ groups, g.memberKeys.Nodup := fun g hg => hgroups g (List.mem_cons_of_mem _ hg)
    have hsame : g.memberKeys.filter (· ∉ claimed) = g.memberKeys.filter (· ∉ claimed') :=
      List.filter_congr (fun k _ => by simp [h k])
    have hnext : ensureFrom minMembers (claimed ++ g.memberKeys.filter (· ∉ claimed')) groups =
        ensureFrom minMembers (claimed' ++ g.memberKeys.filter (· ∉ claimed')) groups :=
      ih (fun k => by simp [h k]) hrest
    unfold ensureFrom
    rw [claim_eq claimed hkeys, claim_eq claimed' hkeys, hsame]
    dsimp only
    rw [hnext]

lemma ensureFrom_cons {g : MergeGroup F} (hkeys : g.memberKeys.Nodup)
    (hgroups : ∀ g ∈ groups, g.memberKeys.Nodup) :
    ensureFrom minMembers claimed (g :: groups) =
      (if ((unclaimed claimed g).memberKeys.length : Int) < minMembers then [] else [unclaimed claimed g]) ++
        ensureFrom minMembers (claimed ++ g.memberKeys) groups := by
  have hclaimed : ∀ k, k ∈ claimed ++ g.memberKeys.filter (· ∉ claimed) ↔ k ∈ claimed ++ g.memberKeys := by
    intro k
    by_cases hk : k ∈ claimed
    · simp [hk]
    · simp [hk]
  rw [← ensureFrom_congr hclaimed hgroups]
  conv_lhs => unfold ensureFrom
  rw [claim_eq claimed hkeys]
  change (if ((g.memberKeys.filter (· ∉ claimed)).length : Int) < minMembers then _ else _) =
    (if ((g.memberKeys.filter (· ∉ claimed)).length : Int) < minMembers then [] else [unclaimed claimed g]) ++ _
  by_cases hlt : ((g.memberKeys.filter (· ∉ claimed)).length : Int) < minMembers
  · rw [if_pos hlt, if_pos hlt, List.nil_append]
  · rw [if_neg hlt, if_neg hlt, List.singleton_append]
    rfl

/-- What is returned is what is left of groups in which enough is left. -/
lemma mem_ensureFrom (hgroups : ∀ g ∈ groups, g.memberKeys.Nodup) {r : MergeGroup F} :
    r ∈ ensureFrom minMembers claimed groups ↔ ∃ before e after, groups = before ++ e :: after ∧
      r = unclaimed (claimed ++ allKeys before) e ∧ minMembers ≤ r.memberKeys.length := by
  induction groups generalizing claimed with
  | nil => simp [ensureFrom]
  | cons g groups ih =>
    have hrest : ∀ g ∈ groups, g.memberKeys.Nodup := fun g hg => hgroups g (List.mem_cons_of_mem _ hg)
    rw [ensureFrom_cons (hgroups g List.mem_cons_self) hrest, List.mem_append, ih hrest]
    constructor
    · rintro (hr | ⟨before, e, after, rfl, hr, hmin⟩)
      · split at hr
        · cases hr
        · next hlt =>
          obtain rfl := List.mem_singleton.mp hr
          exact ⟨[], g, groups, rfl, by simp [allKeys], not_lt.mp hlt⟩
      · exact ⟨g :: before, e, after, rfl, by simpa [allKeys] using hr, hmin⟩
    · rintro ⟨before, e, after, hsplit, hr, hmin⟩
      cases before with
      | nil =>
        obtain ⟨rfl, rfl⟩ := List.cons.inj hsplit
        left
        rw [hr] at hmin
        simp only [allKeys, List.flatMap_nil, List.append_nil] at hmin hr
        rw [if_neg (not_lt.mpr hmin), hr]
        exact List.mem_singleton.mpr rfl
      | cons g' before =>
        obtain ⟨rfl, rfl⟩ := List.cons.inj hsplit
        exact .inr ⟨before, e, after, rfl, by simpa [allKeys] using hr, hmin⟩

lemma disjoint_claimed (hgroups : ∀ g ∈ groups, g.memberKeys.Nodup) {r : MergeGroup F}
    (hr : r ∈ ensureFrom minMembers claimed groups) : r.memberKeys.Disjoint claimed := by
  obtain ⟨before, e, after, -, rfl, -⟩ := (mem_ensureFrom hgroups).mp hr
  intro k hk hclaimed
  have hfree := (List.mem_filter.mp hk).2
  simp only [decide_eq_true_eq, List.mem_append, not_or] at hfree
  exact hfree.1 hclaimed

lemma pairwise_ensureFrom (hgroups : ∀ g ∈ groups, g.memberKeys.Nodup) :
    ((ensureFrom minMembers claimed groups).map (·.memberKeys)).Pairwise List.Disjoint := by
  induction groups generalizing claimed with
  | nil => exact List.Pairwise.nil
  | cons g groups ih =>
    have hrest : ∀ g ∈ groups, g.memberKeys.Nodup := fun g hg => hgroups g (List.mem_cons_of_mem _ hg)
    rw [ensureFrom_cons (hgroups g List.mem_cons_self) hrest]
    split
    · exact ih hrest
    · rw [List.singleton_append, List.map_cons, List.pairwise_cons]
      refine ⟨?_, ih hrest⟩
      intro keys hkeys k hk hmem
      obtain ⟨r, hr, rfl⟩ := List.mem_map.mp hkeys
      exact disjoint_claimed hrest hr hmem (List.mem_append_right _ (List.mem_filter.mp hk).1)

/-- A group that is returned, and the group that it is a part of. -/
def IsPart (minMembers : Int) (g r : MergeGroup F) : Prop :=
  r = { g with memberKeys := r.memberKeys } ∧ r.memberKeys.Sublist g.memberKeys ∧
    minMembers ≤ r.memberKeys.length

lemma parts_ensureFrom (hgroups : ∀ g ∈ groups, g.memberKeys.Nodup) :
    ∃ kept : List (MergeGroup F), kept.Sublist groups ∧
      List.Forall₂ (IsPart minMembers) kept (ensureFrom minMembers claimed groups) := by
  induction groups generalizing claimed with
  | nil => exact ⟨[], List.Sublist.refl _, List.Forall₂.nil⟩
  | cons g groups ih =>
    have hrest : ∀ g ∈ groups, g.memberKeys.Nodup := fun g hg => hgroups g (List.mem_cons_of_mem _ hg)
    obtain ⟨kept, hkept, hparts⟩ := @ih (claimed ++ g.memberKeys) hrest
    rw [ensureFrom_cons (hgroups g List.mem_cons_self) hrest]
    split
    · exact ⟨kept, hkept.cons g, hparts⟩
    · next hlt =>
      refine ⟨g :: kept, hkept.cons_cons g, List.Forall₂.cons ⟨rfl, ?_, not_lt.mp hlt⟩ hparts⟩
      exact List.filter_sublist

/-- Disjoint groups are returned as they are. -/
lemma ensureFrom_of_disjoint (hnodup : ∀ g ∈ groups, g.memberKeys.Nodup)
    (hmin : ∀ g ∈ groups, minMembers ≤ g.memberKeys.length)
    (hclaimed : ∀ g ∈ groups, g.memberKeys.Disjoint claimed)
    (hpairs : (groups.map (·.memberKeys)).Pairwise List.Disjoint) :
    ensureFrom minMembers claimed groups = groups := by
  induction groups generalizing claimed with
  | nil => rfl
  | cons g groups ih =>
    have hrest : ∀ g ∈ groups, g.memberKeys.Nodup := fun g hg => hnodup g (List.mem_cons_of_mem _ hg)
    rw [List.map_cons, List.pairwise_cons] at hpairs
    have hwhole : unclaimed claimed g = g := by
      have hkeys : g.memberKeys.filter (· ∉ claimed) = g.memberKeys := by
        rw [List.filter_eq_self]
        intro k hk
        exact decide_eq_true (hclaimed g List.mem_cons_self hk)
      unfold unclaimed
      rw [hkeys]
    rw [ensureFrom_cons (hnodup g List.mem_cons_self) hrest, hwhole,
      if_neg (not_lt.mpr (hmin g List.mem_cons_self)), List.singleton_append, ih hrest
        (fun g' hg' => hmin g' (List.mem_cons_of_mem _ hg')) ?_ hpairs.2]
    intro g' hg' k hk hmem
    obtain hold | hnew := List.mem_append.mp hmem
    · exact hclaimed g' (List.mem_cons_of_mem _ hg') hk hold
    · exact hpairs.1 g'.memberKeys (List.mem_map_of_mem hg') hnew hk

/-- Each key was new in one of the groups. -/
lemma mem_allKeys_iff (k : Text) :
    k ∈ allKeys groups ↔ ∃ before e after, groups = before ++ e :: after ∧
      k ∈ (unclaimed (allKeys before) e).memberKeys := by
  constructor
  · intro hk
    induction groups using List.reverseRecOn with
    | nil => cases hk
    | append_singleton groups g ih =>
      by_cases hold : k ∈ allKeys groups
      · obtain ⟨before, e, after, rfl, hmem⟩ := ih hold
        exact ⟨before, e, after ++ [g], by simp, hmem⟩
      · have hnew : k ∈ g.memberKeys := by
          simp only [allKeys, List.flatMap_append, List.mem_append] at hk hold
          simpa using hk.resolve_left hold
        exact ⟨groups, g, [], rfl, List.mem_filter.mpr ⟨hnew, decide_eq_true hold⟩⟩
  · rintro ⟨before, e, after, rfl, hmem⟩
    have hkey : k ∈ e.memberKeys := (List.mem_filter.mp hmem).1
    simp [allKeys, hkey]

/-- A group is found at one place only. -/
lemma split_unique {before before' after after' : List (MergeGroup F)} {g g' : MergeGroup F}
    (hdistinct : (groups.map (·.groupId)).Nodup) (h : groups = before ++ g :: after)
    (h' : groups = before' ++ g' :: after') (hid : g.groupId = g'.groupId) :
    before = before' ∧ g = g' ∧ after = after' := by
  subst h
  induction before generalizing before' with
  | nil =>
    cases before' with
    | nil =>
      obtain ⟨rfl, rfl⟩ := List.cons.inj h'
      exact ⟨rfl, rfl, rfl⟩
    | cons e before' =>
      obtain ⟨rfl, rfl⟩ := List.cons.inj h'
      simp [hid] at hdistinct
  | cons e before ih =>
    cases before' with
    | nil =>
      obtain ⟨rfl, rfl⟩ := List.cons.inj h'
      simp [hid] at hdistinct
    | cons e' before' =>
      obtain ⟨rfl, htail⟩ := List.cons.inj h'
      rw [List.cons_append, List.map_cons, List.nodup_cons] at hdistinct
      obtain ⟨rfl, rfl, rfl⟩ := ih hdistinct.2 htail
      exact ⟨rfl, rfl, rfl⟩

/-- A group is returned whole if none of its keys is claimed. -/
lemma mem_ensureFrom_whole (hgroups : ∀ g ∈ groups, g.memberKeys.Nodup)
    {earlier later : List (MergeGroup F)} {g : MergeGroup F} (hsplit : groups = earlier ++ g :: later)
    (hmin : minMembers ≤ g.memberKeys.length) (hfree : ∀ k ∈ g.memberKeys, k ∉ allKeys earlier) :
    g ∈ ensureFrom minMembers [] groups := by
  have hkeys : g.memberKeys.filter (· ∉ allKeys earlier) = g.memberKeys := by
    rw [List.filter_eq_self]
    intro k hk
    exact decide_eq_true (hfree k hk)
  have hwhole : unclaimed ([] ++ allKeys earlier) g = g := by
    unfold unclaimed
    rw [List.nil_append, hkeys]
  exact (mem_ensureFrom hgroups).mpr ⟨earlier, g, later, hsplit, hwhole.symm, hmin⟩

end Claims

section Returned

variable {F : Type}

/-- What is to be returned: disjoint parts of given groups in their order, and each group whole that shares
no row with an earlier group that is returned. -/
structure NonOverlapping (minMembers : Int) (groups result : List (MergeGroup F)) : Prop where
  disjoint : (result.map (·.memberKeys)).Pairwise List.Disjoint
  parts : ∃ kept : List (MergeGroup F), kept.Sublist groups ∧
    List.Forall₂ (IsPart minMembers) kept result
  whole : ∀ (earlier : List (MergeGroup F)) (g : MergeGroup F) (later : List (MergeGroup F)),
    groups = earlier ++ g :: later → minMembers ≤ g.memberKeys.length →
    (∀ r ∈ result, r.groupId ∈ earlier.map (·.groupId) → r.memberKeys.Disjoint g.memberKeys) → g ∈ result

/-- A group of which too few rows are new has a new row of a later group, and that group is large enough
and has no row of the groups of which enough rows are new. -/
def Starves (minMembers : Int) (groups : List (MergeGroup F)) : Prop :=
  ∃ (earlier : List (MergeGroup F)) (g : MergeGroup F) (later : List (MergeGroup F)),
    groups = earlier ++ g :: later ∧ minMembers ≤ g.memberKeys.length ∧
    (∀ (before : List (MergeGroup F)) (e : MergeGroup F) (after : List (MergeGroup F)),
      earlier = before ++ e :: after →
      minMembers ≤ (unclaimed (allKeys before) e).memberKeys.length →
        (unclaimed (allKeys before) e).memberKeys.Disjoint g.memberKeys) ∧
    ∃ (before : List (MergeGroup F)) (e : MergeGroup F) (after : List (MergeGroup F)),
      earlier = before ++ e :: after ∧
      ((unclaimed (allKeys before) e).memberKeys.length : Int) < minMembers ∧
      ¬(unclaimed (allKeys before) e).memberKeys.Disjoint g.memberKeys

variable {minMembers : Int} {groups : List (MergeGroup F)}

lemma whole_iff_not_starves (hgroups : ∀ g ∈ groups, g.memberKeys.Nodup)
    (hdistinct : (groups.map (·.groupId)).Nodup) :
    NonOverlapping minMembers groups (ensureFrom minMembers [] groups) ↔ ¬Starves minMembers groups := by
  constructor
  · rintro h ⟨earlier, g, later, hsplit, hmin, hkept, before, e, after, hearlier, -, hshared⟩
    have hreturned : g ∈ ensureFrom minMembers [] groups := by
      apply h.whole earlier g later hsplit hmin
      intro r hr hid
      obtain ⟨before', e', after', hsplit', rfl, hmin'⟩ := (mem_ensureFrom hgroups).mp hr
      obtain ⟨e'', he'', hid''⟩ := List.mem_map.mp hid
      obtain ⟨before'', after'', hearlier''⟩ := List.append_of_mem he''
      have hsplit'' : groups = before'' ++ e'' :: (after'' ++ g :: later) := by
        rw [hsplit, hearlier'']
        simp
      obtain ⟨rfl, rfl, -⟩ := split_unique hdistinct hsplit'' hsplit' hid''
      exact hkept before'' e'' after'' hearlier'' hmin'
    -- the group is found among the returned ones at its own place, where the shared row is claimed
    obtain ⟨before', e', after', hsplit', hg, -⟩ := (mem_ensureFrom hgroups).mp hreturned
    have hid : g.groupId = e'.groupId := by
      rw [hg]
      rfl
    obtain ⟨rfl, rfl, -⟩ := split_unique hdistinct hsplit hsplit' hid
    apply hshared
    intro k hk hkey
    have hclaimed : k ∈ allKeys earlier := (mem_allKeys_iff k).mpr ⟨before, e, after, hearlier, hk⟩
    rw [hg] at hkey
    have hfree := (List.mem_filter.mp hkey).2
    simp only [decide_eq_true_eq, List.nil_append] at hfree
    exact hfree hclaimed
  · intro hstarves
    refine ⟨pairwise_ensureFrom hgroups, parts_ensureFrom hgroups, ?_⟩
    intro earlier g later hsplit hmin hreturned
    have hkept : ∀ before e after, earlier = before ++ e :: after →
        minMembers ≤ (unclaimed (allKeys before) e).memberKeys.length →
          (unclaimed (allKeys before) e).memberKeys.Disjoint g.memberKeys := by
      intro before e after hearlier hmin'
      apply hreturned
      · refine (mem_ensureFrom hgroups).mpr ⟨before, e, after ++ g :: later, ?_, rfl, hmin'⟩
        rw [hsplit, hearlier]
        simp
      · rw [hearlier]
        simp [unclaimed]
    apply mem_ensureFrom_whole hgroups hsplit hmin
    intro k hk hclaimed
    obtain ⟨before, e, after, hearlier, hmem⟩ := (mem_allKeys_iff k).mp hclaimed
    by_cases hfew : minMembers ≤ (unclaimed (allKeys before) e).memberKeys.length
    · exact hkept before e after hearlier hfew hmem hk
    · apply hstarves
      exact ⟨earlier, g, later, hsplit, hmin, hkept, before, e, after, hearlier, not_le.mp hfew,
        fun hdisjoint => hdisjoint hmem hk⟩

end Returned

section Normal

variable {T : UnicodeTables} {H : PyHost T} {minMembers : Int} {groups : List (MergeGroup H.floats.carrier)}

lemma Normalised.nodup (h : Normalised H groups) : ∀ g ∈ groups, g.memberKeys.Nodup :=
  fun g hg => (h.normal g hg).distinct

/-- A part of a normal group is a normal group if there are two rows in it. -/
lemma NormalGroup.part {g r : MergeGroup H.floats.carrier} (h : NormalGroup H g) (hmin : 2 ≤ minMembers)
    (hr : IsPart minMembers g r) : NormalGroup H r := by
  obtain ⟨hsame, hkeys, hlong⟩ := hr
  have htwo : 2 ≤ r.memberKeys.length := by omega
  have hfew : r.memberKeys.length ≤ maxHistoryMergeMembers := hkeys.length_le.trans h.few
  rw [hsame]
  exact ⟨h.groupId, h.title, fun k hk => h.keys k (hkeys.subset hk), h.distinct.sublist hkeys, hfew, htwo,
    h.createdAt, h.updatedAt⟩

lemma parts_ids {kept result : List (MergeGroup H.floats.carrier)}
    (h : List.Forall₂ (IsPart minMembers) kept result) :
    result.map (·.groupId) = kept.map (·.groupId) := by
  induction h with
  | nil => rfl
  | cons hpart _ ih =>
    rw [List.map_cons, List.map_cons, ih, hpart.1]

lemma parts_normal {kept result : List (MergeGroup H.floats.carrier)}
    (h : List.Forall₂ (IsPart minMembers) kept result) (hmin : 2 ≤ minMembers)
    (hkept : ∀ g ∈ kept, NormalGroup H g) : ∀ r ∈ result, NormalGroup H r := by
  induction h with
  | nil =>
    intro r hr
    cases hr
  | @cons g r kept result hpart _ ih =>
    intro r' hr'
    obtain rfl | hr' := List.mem_cons.mp hr'
    · exact (hkept g List.mem_cons_self).part hmin hpart
    · exact ih (fun g' hg' => hkept g' (List.mem_cons_of_mem _ hg')) r' hr'

lemma ensureNonOverlapping_eq (newId : Nat → Text) (h : Normalised H groups) (hmin : 2 ≤ minMembers) :
    ensureNonOverlapping H newId groups minMembers = ensureFrom minMembers [] groups := by
  unfold ensureNonOverlapping
  rw [normalize_normalised newId h, if_neg (by omega), max_eq_right (by omega)]

/-- What is returned is in normal form again. -/
lemma normalised_ensureFrom (h : Normalised H groups) (hmin : 2 ≤ minMembers) :
    Normalised H (ensureFrom minMembers [] groups) := by
  obtain ⟨kept, hkept, hparts⟩ := @parts_ensureFrom _ minMembers [] groups h.nodup
  refine ⟨parts_normal hparts hmin (fun g hg => h.normal g (hkept.subset hg)), ?_, ?_⟩
  · rw [parts_ids hparts]
    exact h.distinct.sublist (hkept.map _)
  · rw [← hparts.length_eq]
    exact hkept.length_le.trans h.few

lemma ensureFrom_ensureFrom (h : Normalised H groups) (hmin : 2 ≤ minMembers) :
    ensureFrom minMembers [] (ensureFrom minMembers [] groups) = ensureFrom minMembers [] groups := by
  have hnormal := normalised_ensureFrom h hmin
  apply ensureFrom_of_disjoint hnormal.nodup
  · intro g hg
    obtain ⟨-, -, -, -, -, hlong⟩ := (mem_ensureFrom h.nodup).mp hg
    exact hlong
  · intro g _ k _ hclaimed
    cases hclaimed
  · exact pairwise_ensureFrom h.nodup

/-- Disjoint parts of the groups are returned, and are left as they are by a second pass; and no group is
lost needlessly just if no dropped group has taken a row of a group that could have been kept. -/
theorem nonOverlapping_iff (newId : Nat → Text) (h : Normalised H groups) (hmin : 2 ≤ minMembers) :
    (NonOverlapping minMembers groups (ensureNonOverlapping H newId groups minMembers) ∧
      ensureNonOverlapping H newId (ensureNonOverlapping H newId groups minMembers) minMembers =
        ensureNonOverlapping H newId groups minMembers) ↔
      ¬Starves minMembers groups := by
  have hagain : ensureNonOverlapping H newId (ensureFrom minMembers [] groups) minMembers =
      ensureFrom minMembers [] groups := by
    rw [ensureNonOverlapping_eq newId (normalised_ensureFrom h hmin) hmin, ensureFrom_ensureFrom h hmin]
  rw [ensureNonOverlapping_eq newId h hmin, ← whole_iff_not_starves h.nodup h.distinct]
  exact ⟨fun hall => hall.1, fun hparts => ⟨hparts, hagain⟩⟩

end Normal

/-! ### A group that is lost -/

section Lost

def historyHost : PyHost asciiDigitTables.toUnicodeTables := ⟨centFloats, fun _ => []⟩

/-- A group of two notices. -/
def pairOf (groupId first second : Char) : MergeGroup historyHost.floats.carrier where
  groupId := [groupId]
  title := []
  memberKeys := ["notice:".toList ++ [first], "notice:".toList ++ [second]]
  collapsed := true
  createdAt := none
  createdBy := .null
  updatedAt := none
  updatedBy := .null

lemma normalGroup_pairOf {groupId first second : Char} (hid : pyIsSpace groupId = false)
    (hfirst : pyIsSpace first = false) (hsecond : pyIsSpace second = false) (hne : first ≠ second) :
    NormalGroup historyHost (pairOf groupId first second) := by
  have hkey : ∀ c, pyIsSpace c = false →
      normalizeHistoryRowKey historyHost (.str ("notice:".toList ++ [c])) = "notice:".toList ++ [c] :=
    fun c hc => normalizeHistoryRowKey_key (.inl rfl) (List.cons_ne_nil c [])
      ⟨by simpa using hc, by simpa using hc⟩
  have hdistinct : (pairOf groupId first second).memberKeys.Nodup := by simp [pairOf, hne]
  refine ⟨⟨List.cons_ne_nil _ _, ?_⟩, rfl, ?_, hdistinct, ?_, le_refl 2, ?_, ?_⟩
  · exact pyStrip_of_stripped ⟨by simpa [pairOf] using hid, by simpa [pairOf] using hid⟩
  · intro k hk
    simp only [pairOf, List.mem_cons, List.not_mem_nil, or_false] at hk
    obtain rfl | rfl := hk
    · exact ⟨List.cons_ne_nil _ _, hkey first hfirst⟩
    · exact ⟨List.cons_ne_nil _ _, hkey second hsecond⟩
  · change 2 ≤ 4000
    omega
  · intro t ht
    cases ht
  · intro t ht
    cases ht

def pairOne := pairOf 'a' '1' '2'

/-- It shares a row with the first and one with the third. -/
def pairTwo := pairOf 'b' '2' '3'

def pairThree := pairOf 'c' '3' '4'

lemma normalised_pairs : Normalised historyHost [pairOne, pairTwo, pairThree] := by
  refine ⟨?_, by decide, by decide⟩
  intro g hg
  simp only [List.mem_cons, List.not_mem_nil, or_false] at hg
  obtain rfl | rfl | rfl := hg
  · exact normalGroup_pairOf rfl rfl rfl (by decide)
  · exact normalGroup_pairOf rfl rfl rfl (by decide)
  · exact normalGroup_pairOf rfl rfl rfl (by decide)

lemma normalised_two_pairs : Normalised historyHost [pairOne, pairTwo] := by
  refine ⟨?_, by decide, by decide⟩
  intro g hg
  apply normalised_pairs.normal
  simp only [List.mem_cons, List.not_mem_nil, or_false] at hg ⊢
  exact hg.imp_right .inl

def unusedId (_ : Nat) : Text := []

/-- Without the third pair nothing is lost. -/
theorem nonOverlapping_two_pairs :
    NonOverlapping 2 [pairOne, pairTwo] (ensureNonOverlapping historyHost unusedId [pairOne, pairTwo] 2) ∧
      ensureNonOverlapping historyHost unusedId
          (ensureNonOverlapping historyHost unusedId [pairOne, pairTwo] 2) 2 =
        ensureNonOverlapping historyHost unusedId [pairOne, pairTwo] 2 := by
  rw [nonOverlapping_iff unusedId normalised_two_pairs (by omega)]
  rintro ⟨earlier, g, later, hsplit, -, -, before, e, after, rfl, hfew, -⟩
  have hlength := congrArg List.length hsplit
  simp only [List.length_cons, List.length_nil, List.length_append] at hlength
  obtain rfl : before = [] := List.eq_nil_of_length_eq_zero (by omega)
  obtain rfl : e = pairOne := (List.cons.inj hsplit).1.symm
  revert hfew
  decide

/-- The third pair shares no row with the first, which alone is returned. -/
theorem third_pair_is_lost :
    Normalised historyHost [pairOne, pairTwo, pairThree] ∧
      ensureNonOverlapping historyHost unusedId [pairOne, pairTwo, pairThree] 2 = [pairOne] ∧
      ¬NonOverlapping 2 [pairOne, pairTwo, pairThree]
        (ensureNonOverlapping historyHost unusedId [pairOne, pairTwo, pairThree] 2) := by
  have hresult : ensureNonOverlapping historyHost unusedId [pairOne, pairTwo, pairThree] 2 = [pairOne] := by
    rw [ensureNonOverlapping_eq unusedId normalised_pairs (by omega)]
    rfl
  refine ⟨normalised_pairs, hresult, ?_⟩
  rw [hresult]
  intro h
  have hthird := h.whole [pairOne, pairTwo] pairThree [] rfl (by decide) (by
    intro r hr _
    rw [List.mem_singleton.mp hr]
    exact List.disjoint_left.mpr (by decide))
  have hid : pairThree.groupId = pairOne.groupId := congrArg _ (List.mem_singleton.mp hthird)
  revert hid
  decide

end Lost
end IpDocket.History
