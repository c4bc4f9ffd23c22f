import IpDocket.Matters.Families

/-!
# Linking families

Merging works off the links of the families to be merged one after the other: each becomes a link of the
canonical family, or goes if its matter has one there. The pass over the canonical family after that
changes nothing in who is linked. So a link of two matters collapses their families into one, and joins
the components of the two and of what that family already had.
-/

namespace IpDocket.Matters
open IpDocket.Lib

/-- The matter belongs to the family. -/
def Linked (t : Keyed MatterFamily.mfId) (m f : Text) : Prop := ∃ r ∈ t.rows, r.matterId = m ∧ r.familyId = f

/-- The links of the second table were links of the same matters before. -/
def FromLinks (t t' : Keyed MatterFamily.mfId) : Prop :=
  ∀ r' ∈ t'.rows, ∃ r ∈ t.rows, r.mfId = r'.mfId ∧ r.matterId = r'.matterId

section Rows

variable {t t' : Keyed MatterFamily.mfId} {row : MatterFamily} {canonical m f : Text}

lemma FromLinks.refl (t : Keyed MatterFamily.mfId) : FromLinks t t := fun r hr => ⟨r, hr, rfl, rfl⟩

lemma FromLinks.trans {t'' : Keyed MatterFamily.mfId} (h : FromLinks t t') (h' : FromLinks t' t'') :
    FromLinks t t'' := by
  intro r'' hr''
  obtain ⟨r', hr', hid', hm'⟩ := h' r'' hr''
  obtain ⟨r, hr, hid, hm⟩ := h r' hr'
  exact ⟨r, hr, hid.trans hid', hm.trans hm'⟩

lemma fromLinks_delete (p : MatterFamily → Bool) : FromLinks t (t.delete p) :=
  fun r hr => ⟨r, (List.mem_filter.mp hr).1, rfl, rfl⟩

lemma fromLinks_into : FromLinks t (t.update (onRows (fun r => r.mfId = row.mfId) (intoFamily canonical))
    (key_onRows (mfId_intoFamily canonical))) := by
  intro r' hr'
  obtain ⟨r, hr, rfl⟩ := List.mem_map.mp hr'
  refine ⟨r, hr, (key_onRows (mfId_intoFamily canonical) r).symm, ?_⟩
  unfold onRows
  split <;> rfl

/-- A link is one that is dropped, or it stays. -/
lemma linked_iff_delete (hrow : row ∈ t.rows) :
    Linked t m f ↔ Linked (t.delete (fun r => r.mfId = row.mfId)) m f ∨ row.matterId = m ∧ row.familyId = f := by
  unfold Linked
  constructor
  · rintro ⟨r, hr, hm, hf⟩
    by_cases h : r = row
    · subst h
      exact .inr ⟨hm, hf⟩
    · exact .inl ⟨r, (Keyed.mem_delete_row hrow).mpr ⟨hr, h⟩, hm, hf⟩
  · rintro (⟨r, hr, h⟩ | h)
    · exact ⟨r, ((Keyed.mem_delete_row hrow).mp hr).1, h⟩
    · exact ⟨row, hrow, h⟩

lemma linked_into_iff (hrow : row ∈ t.rows) :
    Linked (t.update (onRows (fun r => r.mfId = row.mfId) (intoFamily canonical))
        (key_onRows (mfId_intoFamily canonical))) m f ↔
      Linked (t.delete (fun r => r.mfId = row.mfId)) m f ∨ row.matterId = m ∧ canonical = f := by
  unfold Linked
  constructor
  · rintro ⟨r, hr, hm, hf⟩
    rcases (Keyed.mem_update_row (mfId_intoFamily canonical) hrow).mp hr with rfl | ⟨hr, hne⟩
    · exact .inr ⟨hm, hf⟩
    · exact .inl ⟨r, (Keyed.mem_delete_row hrow).mpr ⟨hr, hne⟩, hm, hf⟩
  · rintro (⟨r, hr, h⟩ | h)
    · exact ⟨r, (Keyed.mem_update_row (mfId_intoFamily canonical) hrow).mpr
        (.inr ((Keyed.mem_delete_row hrow).mp hr)), h⟩
    · exact ⟨intoFamily canonical row,
        (Keyed.mem_update_row (mfId_intoFamily canonical) hrow).mpr (.inl rfl), h⟩

end Rows

/-! ### Merging families -/

/-- The links of `M` that are still to be worked off, in a table that has come from links `I`. -/
structure Merging (I : Text → Text → Prop) (canonical : Text) (M : List Text) (s : MergeState)
    (todo : List MatterFamily) : Prop where
  nodup : todo.Nodup
  todo_iff : ∀ r, r ∈ todo ↔ r ∈ s.links.rows ∧ r.familyId ∈ M
  mids : ∀ m, m ∈ s.mids ↔ Linked s.links m canonical
  clean : ∀ r ∈ s.links.rows, Clean r.matterId
  away : ∀ m g, g ≠ canonical → g ∉ M → (Linked s.links m g ↔ I m g)
  gathered : ∀ m, (Linked s.links m canonical ∨ ∃ r ∈ todo, r.matterId = m) ↔
    I m canonical ∨ ∃ g ∈ M, I m g

section Merge

variable {I : Text → Text → Prop} {canonical : Text} {M : List Text} {s : MergeState}
  {row : MatterFamily} {rest todo : List MatterFamily}

/-- What is still to be worked off after the first link. -/
lemma Merging.tail_iff (h : Merging I canonical M s (row :: rest)) (r : MatterFamily) :
    r ∈ rest ↔ (r ∈ s.links.rows ∧ r ≠ row) ∧ r.familyId ∈ M := by
  obtain ⟨hnotin, -⟩ := List.nodup_cons.mp h.nodup
  have htodo := h.todo_iff r
  rw [List.mem_cons] at htodo
  constructor
  · intro hr
    obtain ⟨hmem, hin⟩ := htodo.mp (.inr hr)
    exact ⟨⟨hmem, fun he => hnotin (he ▸ hr)⟩, hin⟩
  · rintro ⟨⟨hmem, hne⟩, hin⟩
    exact (htodo.mpr ⟨hmem, hin⟩).resolve_left hne

/-- A link that leaves a merged family does not show elsewhere. -/
lemma Merging.linked_delete (h : Merging I canonical M s (row :: rest)) {m g : Text} (hg : g ∉ M) :
    Linked (s.links.delete (fun r => r.mfId = row.mfId)) m g ↔ Linked s.links m g := by
  obtain ⟨hrow, hfam⟩ := (h.todo_iff row).mp List.mem_cons_self
  rw [linked_iff_delete hrow]
  simp only [iff_self_or, and_imp]
  rintro - rfl
  exact absurd hfam hg

/-- The link of a matter that is in the canonical family already is deleted. -/
lemma Merging.delete (hM : canonical ∉ M) (h : Merging I canonical M s (row :: rest))
    (hmid : row.matterId ∈ s.mids) : Merging I canonical M (s.drop row) rest := by
  obtain ⟨hrow, -⟩ := (h.todo_iff row).mp List.mem_cons_self
  refine ⟨(List.nodup_cons.mp h.nodup).2, ?_, ?_, ?_, ?_, ?_⟩
  · intro r
    rw [h.tail_iff, MergeState.drop, Keyed.mem_delete_row hrow]
  · intro m
    exact (h.mids m).trans (h.linked_delete hM).symm
  · intro r hr
    exact h.clean r (List.mem_filter.mp hr).1
  · intro m g hg hgM
    exact (h.linked_delete hgM).trans (h.away m g hg hgM)
  · intro m
    have hsame : Linked (s.drop row).links m canonical ↔ Linked s.links m canonical := h.linked_delete hM
    rw [← h.gathered m, hsame]
    simp only [List.mem_cons, exists_eq_or_imp]
    constructor
    · rintro (hl | hl)
      · exact .inl hl
      · exact .inr (.inr hl)
    · rintro (hl | rfl | hl)
      · exact .inl hl
      · exact .inl ((h.mids _).mp hmid)
      · exact .inr hl

/-- The link of another matter becomes one of the canonical family. -/
lemma Merging.move (hM : canonical ∉ M) (h : Merging I canonical M s (row :: rest)) (changed : Nat) :
    Merging I canonical M ⟨s.links.update (onRows (fun r => r.mfId = row.mfId) (intoFamily canonical))
      (key_onRows (mfId_intoFamily canonical)), s.mids ++ [row.matterId], changed⟩ rest := by
  obtain ⟨hrow, -⟩ := (h.todo_iff row).mp List.mem_cons_self
  have hinto : ∀ m g, Linked (s.links.update (onRows (fun r => r.mfId = row.mfId) (intoFamily canonical))
      (key_onRows (mfId_intoFamily canonical))) m g ↔
      Linked (s.links.delete (fun r => r.mfId = row.mfId)) m g ∨ row.matterId = m ∧ canonical = g :=
    fun m g => linked_into_iff hrow
  refine ⟨(List.nodup_cons.mp h.nodup).2, ?_, ?_, ?_, ?_, ?_⟩
  · intro r
    rw [h.tail_iff, Keyed.mem_update_row (mfId_intoFamily canonical) hrow]
    constructor
    · rintro ⟨hr, hin⟩
      exact ⟨.inr hr, hin⟩
    · rintro ⟨rfl | hr, hin⟩
      · exact absurd hin hM
      · exact ⟨hr, hin⟩
  · intro m
    rw [hinto, h.linked_delete hM, ← h.mids m, List.mem_append, List.mem_singleton]
    simp [eq_comm]
  · intro r hr
    rcases (Keyed.mem_update_row (mfId_intoFamily canonical) hrow).mp hr with rfl | ⟨hr, _⟩
    · exact h.clean row hrow
    · exact h.clean r hr
  · intro m g hg hgM
    rw [hinto, h.linked_delete hgM, h.away m g hg hgM]
    simp [Ne.symm hg]
  · intro m
    rw [← h.gathered m, hinto, h.linked_delete hM]
    simp only [List.mem_cons, exists_eq_or_imp, and_true]
    tauto

lemma Merging.step (hM : canonical ∉ M) (h : Merging I canonical M s (row :: rest)) :
    Merging I canonical M (mergeRow canonical s row) rest := by
  obtain ⟨hrow, -⟩ := (h.todo_iff row).mp List.mem_cons_self
  have hclean := h.clean row hrow
  unfold mergeRow
  dsimp only
  rw [hclean.1]
  by_cases hmid : row.matterId ∈ s.mids
  · rw [if_pos (.inr hmid)]
    exact h.delete hM hmid
  · rw [if_neg (by simp [hclean.2, hmid])]
    exact h.move hM (s.changed + 1)

lemma Merging.run (hM : canonical ∉ M) (h : Merging I canonical M s todo) :
    Merging I canonical M (todo.foldl (mergeRow canonical) s) [] := by
  induction todo generalizing s with
  | nil => exact h
  | cons row rest ih => exact ih (h.step hM)

lemma fromLinks_mergeRow : FromLinks s.links (mergeRow canonical s row).links := by
  unfold mergeRow
  dsimp only
  split
  · exact fromLinks_delete _
  · exact fromLinks_into

lemma fromLinks_foldl (step : MergeState → MatterFamily → MergeState)
    (hstep : ∀ s row, FromLinks s.links (step s row).links) (s : MergeState) (todo : List MatterFamily) :
    FromLinks s.links (todo.foldl step s).links := by
  induction todo generalizing s with
  | nil => exact .refl _
  | cons row rest ih => exact (hstep s row).trans (ih _)

/-- The pass over the canonical family keeps who is linked. -/
structure Deduping (t : Keyed MatterFamily.mfId) (canonical : Text) (s : MergeState)
    (todo : List MatterFamily) : Prop where
  nodup : todo.Nodup
  todo_mem : ∀ r ∈ todo, r ∈ s.links.rows ∧ r.familyId = canonical
  mids : ∀ m ∈ s.mids, ∃ r ∈ s.links.rows, r ∉ todo ∧ r.matterId = m ∧ r.familyId = canonical
  clean : ∀ r ∈ s.links.rows, Clean r.matterId
  linked : ∀ m g, Linked s.links m g ↔ Linked t m g

lemma Deduping.step {t : Keyed MatterFamily.mfId} (h : Deduping t canonical s (row :: rest)) :
    Deduping t canonical (dedupeRow s row) rest := by
  obtain ⟨hnotin, hnodup⟩ := List.nodup_cons.mp h.nodup
  obtain ⟨hrow, hfam⟩ := h.todo_mem row List.mem_cons_self
  have hclean := h.clean row hrow
  unfold dedupeRow
  dsimp only
  rw [hclean.1]
  by_cases hmid : row.matterId ∈ s.mids
  · rw [if_pos (.inr hmid)]
    obtain ⟨kept, hkept, hkeptrest, hkeptm, hkeptf⟩ := h.mids _ hmid
    have hkeptne : kept ≠ row := fun he => hkeptrest (he ▸ List.mem_cons_self)
    have hstays : Linked (s.links.delete (fun r => r.mfId = row.mfId)) row.matterId row.familyId :=
      ⟨kept, (Keyed.mem_delete_row hrow).mpr ⟨hkept, hkeptne⟩, hkeptm, hkeptf.trans hfam.symm⟩
    refine ⟨hnodup, ?_, ?_, ?_, ?_⟩
    · intro r hr
      obtain ⟨hmem, hin⟩ := h.todo_mem r (List.mem_cons_of_mem row hr)
      exact ⟨(Keyed.mem_delete_row hrow).mpr ⟨hmem, fun he => hnotin (he ▸ hr)⟩, hin⟩
    · intro m hm
      obtain ⟨r, hr, hnot, hrest⟩ := h.mids m hm
      rw [List.mem_cons, not_or] at hnot
      exact ⟨r, (Keyed.mem_delete_row hrow).mpr ⟨hr, hnot.1⟩, hnot.2, hrest⟩
    · intro r hr
      exact h.clean r (List.mem_filter.mp hr).1
    · intro m g
      rw [← h.linked m g, linked_iff_delete (m := m) (f := g) hrow]
      constructor
      · exact .inl
      · rintro (hl | ⟨rfl, rfl⟩)
        · exact hl
        · exact hstays
  · rw [if_neg (by simp [hclean.2, hmid])]
    refine ⟨hnodup, fun r hr => h.todo_mem r (List.mem_cons_of_mem row hr), ?_, h.clean, h.linked⟩
    intro m hm
    rcases List.mem_append.mp hm with hm | hm
    · obtain ⟨r, hr, hnot, hrest⟩ := h.mids m hm
      exact ⟨r, hr, fun hin => hnot (List.mem_cons_of_mem row hin), hrest⟩
    · rw [List.mem_singleton.mp hm]
      exact ⟨row, hrow, hnotin, rfl, hfam⟩

lemma Deduping.run {t : Keyed MatterFamily.mfId} (h : Deduping t canonical s todo) :
    Deduping t canonical (todo.foldl dedupeRow s) [] := by
  induction todo generalizing s with
  | nil => exact h
  | cons row rest ih => exact ih h.step

lemma fromLinks_dedupeRow : FromLinks s.links (dedupeRow s row).links := by
  unfold dedupeRow
  dsimp only
  split
  · exact fromLinks_delete _
  · exact .refl _

variable (before : MatterFamily → MatterFamily → Bool) {t : Keyed MatterFamily.mfId}

lemma mem_linksOf {ids : List Text} {r : MatterFamily} :
    r ∈ linksOf before t ids ↔ r ∈ t.rows ∧ r.familyId ∈ ids := by
  unfold linksOf
  rw [List.mem_mergeSort, List.mem_filter, decide_eq_true_eq]

lemma nodup_linksOf (ids : List Text) : (linksOf before t ids).Nodup := by
  unfold linksOf
  rw [(List.mergeSort_perm _ _).nodup_iff]
  exact (t.unique.imp (fun hne he => hne (congrArg MatterFamily.mfId he))).filter _

lemma merging_start (hclean : ∀ r ∈ t.rows, Clean r.matterId) :
    Merging (Linked t) canonical M (mergeStart t canonical) (linksOf before t M) := by
  refine ⟨nodup_linksOf before M, fun r => mem_linksOf before, ?_, hclean, fun _ _ _ _ => Iff.rfl, ?_⟩
  · intro m
    simp only [mergeStart, List.mem_filter, List.mem_map, decide_eq_true_eq, Linked]
    constructor
    · rintro ⟨⟨r, ⟨hr, hf⟩, rfl⟩, _⟩
      exact ⟨r, hr, (hclean r hr).1.symm, hf⟩
    · rintro ⟨r, hr, rfl, hf⟩
      exact ⟨⟨r, ⟨hr, hf⟩, (hclean r hr).1⟩, (hclean r hr).2⟩
  · intro m
    apply or_congr_right
    constructor
    · rintro ⟨r, hr, hm⟩
      obtain ⟨hmem, hin⟩ := (mem_linksOf before).mp hr
      exact ⟨r.familyId, hin, r, hmem, hm, rfl⟩
    · rintro ⟨g, hg, r, hr, hm, hf⟩
      exact ⟨r, (mem_linksOf before).mpr ⟨hr, hf ▸ hg⟩, hm⟩

variable (canonical) in
lemma deduping_start (hclean : ∀ r ∈ s.links.rows, Clean r.matterId) :
    Deduping s.links canonical { s with mids := [] } (linksOf before s.links [canonical]) := by
  refine ⟨nodup_linksOf before [canonical], ?_, by simp, hclean, fun _ _ => Iff.rfl⟩
  intro r hr
  simpa using (mem_linksOf before).mp hr

/-- The links of the merged families become links of the canonical one, and no other link changes. -/
theorem linked_mergeLinks (hclean : ∀ r ∈ t.rows, Clean r.matterId) (hM : canonical ∉ M) (m g : Text) :
    Linked (mergeLinks before t canonical M).links m g ↔
      if g = canonical then Linked t m canonical ∨ ∃ g' ∈ M, Linked t m g' else g ∉ M ∧ Linked t m g := by
  have hmerged : Merging (Linked t) canonical M (mergeRows before t canonical M) [] :=
    (merging_start before hclean).run hM
  have hdeduped := (deduping_start canonical before hmerged.clean).run
  have hlinked : Linked (mergeLinks before t canonical M).links m g ↔
      Linked (mergeRows before t canonical M).links m g := hdeduped.linked m g
  rw [hlinked]
  split
  · next hg =>
    subst hg
    rw [← hmerged.gathered m]
    simp
  · next hg =>
    by_cases hgM : g ∈ M
    · simp only [hgM, not_true, false_and, iff_false]
      rintro ⟨r, hr, -, hf⟩
      exact absurd ((hmerged.todo_iff r).mpr ⟨hr, hf ▸ hgM⟩) (List.not_mem_nil)
    · rw [hmerged.away m g hg hgM]
      simp [hgM]

lemma fromLinks_mergeLinks : FromLinks t (mergeLinks before t canonical M).links := by
  have hmerged : FromLinks t (mergeRows before t canonical M).links :=
    fromLinks_foldl (mergeRow canonical) (fun _ _ => fromLinks_mergeRow) (mergeStart t canonical) _
  exact hmerged.trans (fromLinks_foldl dedupeRow (fun _ _ => fromLinks_dedupeRow)
    { mergeRows before t canonical M with mids := [] } _)

end Merge

/-- No id is blank or has blanks around it. -/
structure CleanIds (db : FamilyDb) : Prop where
  clean : ∀ r ∈ db.links.rows, Clean r.matterId ∧ Clean r.familyId
  cleanFamilies : ∀ f ∈ db.families.rows, Clean f.familyId

/-- Each matter has one link at most, and its family is there. -/
structure FamiliesOk (db : FamilyDb) : Prop extends CleanIds db where
  single : ∀ r ∈ db.links.rows, ∀ q ∈ db.links.rows, r.matterId = q.matterId → r = q
  owned : ∀ m g, Linked db.links m g → (db.families.find g).isSome

/-- Matters that families lead to from each other. -/
def together (db : FamilyDb) : Setoid Text := components (Linked db.links)

section Calls

variable {T : UnicodeTables} {before : MatterFamily → MatterFamily → Bool} {env : LinkEnv}
  {mayEdit : Text → Bool} {db db' : FamilyDb} {m f g : Text}

lemma FamiliesOk.unique (h : FamiliesOk db) (a g g' : Text) (hg : Linked db.links a g)
    (hg' : Linked db.links a g') : g = g' := by
  obtain ⟨r, hr, hm, rfl⟩ := hg
  obtain ⟨q, hq, hm', rfl⟩ := hg'
  rw [h.single r hr q hq (hm.trans hm'.symm)]

/-- Two matters are together exactly if they share a family. -/
lemma FamiliesOk.together_iff (h : FamiliesOk db) {a b : Text} :
    (together db) a b ↔ a = b ∨ Shares (Linked db.links) a b := components_iff_of_single h.unique

lemma CleanIds.clean_of_linked (h : CleanIds db) (hl : Linked db.links m g) : Clean g := by
  obtain ⟨r, hr, -, rfl⟩ := hl
  exact (h.clean r hr).2

lemma mem_familyIdsOf (h : CleanIds db) : g ∈ familyIdsOf db m ↔ Linked db.links m g := by
  unfold familyIdsOf Linked
  simp only [List.mem_filter, List.mem_map, decide_eq_true_eq]
  constructor
  · rintro ⟨⟨r, ⟨hr, hm⟩, rfl⟩, _⟩
    exact ⟨r, hr, hm, (h.clean r hr).2.1.symm⟩
  · rintro ⟨r, hr, hm, rfl⟩
    exact ⟨⟨r, ⟨hr, hm⟩, (h.clean r hr).2.1⟩, (h.clean r hr).2.2⟩

/-- The family of a link is one that exists, or it gets the id that is drawn. -/
lemma resolved_cases (T : UnicodeTables) (env : LinkEnv) (db : FamilyDb) (q : LinkRequest) :
    (resolved T env db q).2 = false ∧ (resolved T env db q).1 ∈ db.families.rows ∨
      (resolved T env db q).2 = true ∧ (resolved T env db q).1.familyId = env.newFamilyId := by
  have hkey : ∀ key family, db.byKey key = some family → family ∈ db.families.rows :=
    fun key family hfound => List.mem_of_find?_eq_some hfound
  have hnamed : ∀ (c : Prop) [Decidable c] key family, (if c then db.byKey key else none) = some family →
      family ∈ db.families.rows := by
    intro c _ key family hfound
    by_cases hc : c
    · rw [if_pos hc] at hfound
      exact hkey key family hfound
    · rw [if_neg hc] at hfound
      cases hfound
  have hown : ∀ ids ids' prefer family, sharedOrOwn env db ids ids' prefer = some family →
      family ∈ db.families.rows := by
    intro ids ids' prefer family hfound
    rcases Option.or_eq_some_iff.mp hfound with hfound | ⟨-, hfound⟩
    · obtain ⟨id, -, hid⟩ := Option.bind_eq_some_iff.mp hfound
      exact Keyed.mem_of_find hid
    · obtain ⟨id, -, hid⟩ := List.exists_of_findSome?_eq_some hfound
      exact Keyed.mem_of_find hid
  unfold resolved resolveFamilyForLink
  dsimp only
  split
  · unfold familyOfKey
    split
    · next family hfound => exact .inl ⟨rfl, hkey _ family hfound⟩
    · exact .inr ⟨rfl, rfl⟩
  · split
    · next family hfound => exact .inl ⟨rfl, hown _ _ _ family hfound⟩
    · unfold familyOfRefs
      dsimp only
      split
      · next family hfound => exact .inl ⟨rfl, hnamed _ _ family hfound⟩
      · exact .inr ⟨rfl, rfl⟩

lemma insertFamily_eq_some {family : Family} (h : insertFamily db family = some db') :
    db'.links = db.links ∧ db'.families.rows = db.families.rows ++ [family] := by
  unfold insertFamily at h
  split at h
  · cases h
  · obtain ⟨families, hfamilies, rfl⟩ := Option.map_eq_some_iff.mp h
    exact ⟨rfl, (Keyed.insertNew_eq_some hfamilies).2⟩

lemma ensureLink_eq_some (h : ensureLink env db m f = some db') :
    db'.families = db.families ∧ (∀ r, r ∈ db'.links.rows ↔ r ∈ db.links.rows ∨
      ¬Linked db.links m f ∧ r = ⟨env.newLinkId m, m, f⟩) := by
  have hany : db.links.rows.any (fun r => r.matterId = m ∧ r.familyId = f) = true ↔ Linked db.links m f := by
    simp [Linked]
  unfold ensureLink at h
  split at h
  · next hl =>
    cases h
    exact ⟨rfl, fun r => by simp [hany.mp hl]⟩
  · next hl =>
    obtain ⟨links, hlinks, rfl⟩ := Option.map_eq_some_iff.mp h
    refine ⟨rfl, fun r => ?_⟩
    have hnot : ¬Linked db.links m f := fun hl' => hl (hany.mpr hl')
    rw [(Keyed.insertNew_eq_some hlinks).2, List.mem_append, List.mem_singleton]
    simp only [hnot, not_false_iff, true_and]

lemma linked_ensureLink (h : ensureLink env db m f = some db') (a g : Text) :
    Linked db'.links a g ↔ Linked db.links a g ∨ a = m ∧ g = f := by
  have hrows := (ensureLink_eq_some h).2
  constructor
  · rintro ⟨r, hr, hm, hf⟩
    rcases (hrows r).mp hr with hr | ⟨-, rfl⟩
    · exact .inl ⟨r, hr, hm, hf⟩
    · exact .inr ⟨hm.symm, hf.symm⟩
  · rintro (⟨r, hr, hrest⟩ | ⟨rfl, rfl⟩)
    · exact ⟨r, (hrows r).mpr (.inl hr), hrest⟩
    · by_cases hl : Linked db.links a g
      · obtain ⟨r, hr, hrest⟩ := hl
        exact ⟨r, (hrows r).mpr (.inl hr), hrest⟩
      · exact ⟨⟨env.newLinkId a, a, g⟩, (hrows _).mpr (.inr ⟨hl, rfl⟩), rfl, rfl⟩

/-- A matter that has no other family enters one. -/
lemma FamiliesOk.ensureLink (h : FamiliesOk db) (hm : Clean m) (hf : (db.families.find f).isSome)
    (honly : ∀ g, Linked db.links m g → g = f) (he : ensureLink env db m f = some db') : FamiliesOk db' := by
  obtain ⟨hfamilies, hrows⟩ := ensureLink_eq_some he
  have hcleanf : Clean f := by
    obtain ⟨family, hfamily⟩ := Option.isSome_iff_exists.mp hf
    rw [← Keyed.key_of_find hfamily]
    exact h.cleanFamilies family (Keyed.mem_of_find hfamily)
  have hnew : ∀ r ∈ db.links.rows, ¬Linked db.links m f → r.matterId ≠ m := by
    rintro r hr hnot rfl
    obtain rfl := honly r.familyId ⟨r, hr, rfl, rfl⟩
    exact hnot ⟨r, hr, rfl, rfl⟩
  refine ⟨⟨?_, ?_⟩, ?_, ?_⟩
  · intro r hr
    rcases (hrows r).mp hr with hr | ⟨-, rfl⟩
    · exact h.clean r hr
    · exact ⟨hm, hcleanf⟩
  · rw [hfamilies]
    exact h.cleanFamilies
  · intro r hr q hq hrq
    rcases (hrows r).mp hr with hr | ⟨hnot, rfl⟩
    · rcases (hrows q).mp hq with hq | ⟨hnot, rfl⟩
      · exact h.single r hr q hq hrq
      · exact absurd hrq (hnew r hr hnot)
    · rcases (hrows q).mp hq with hq | ⟨-, rfl⟩
      · exact absurd hrq.symm (hnew q hq hnot)
      · rfl
  · intro a g hl
    rw [hfamilies]
    rcases (linked_ensureLink he a g).mp hl with hl | ⟨-, rfl⟩
    · exact h.owned a g hl
    · exact hf

variable {ids : List Text} {canonical : Text}

variable (before) in
/-- The links of the other families become links of the canonical one. -/
lemma linked_mergeFamiliesInto (h : CleanIds db) (hc : Clean canonical) (hids : ∀ g ∈ ids, Clean g)
    (m g : Text) : Linked (mergeFamiliesInto before db canonical ids).1.links m g ↔
      if g = canonical then Linked db.links m canonical ∨ ∃ g' ∈ ids, Linked db.links m g'
      else g ∉ ids ∧ Linked db.links m g := by
  have hmerge : ∀ g, g ∈ (ids.map pyStrip).filter (fun f => f ≠ [] ∧ f ≠ canonical) ↔ g ∈ ids ∧ g ≠ canonical := by
    intro g
    simp only [List.mem_filter, List.mem_map, decide_eq_true_eq]
    constructor
    · rintro ⟨⟨g', hg', rfl⟩, -, hne⟩
      rw [(hids g' hg').1] at hne ⊢
      exact ⟨hg', hne⟩
    · rintro ⟨hg, hne⟩
      exact ⟨⟨g, hg, (hids g hg).1⟩, (hids g hg).2, hne⟩
  have hgathered : (Linked db.links m canonical ∨ ∃ g' ∈ (ids.map pyStrip).filter
      (fun f => f ≠ [] ∧ f ≠ canonical), Linked db.links m g') ↔
      Linked db.links m canonical ∨ ∃ g' ∈ ids, Linked db.links m g' := by
    simp only [hmerge]
    constructor
    · rintro (hl | ⟨g', ⟨hg', -⟩, hl⟩)
      · exact .inl hl
      · exact .inr ⟨g', hg', hl⟩
    · rintro (hl | ⟨g', hg', hl⟩)
      · exact .inl hl
      · by_cases hne : g' = canonical
        · exact .inl (hne ▸ hl)
        · exact .inr ⟨g', ⟨hg', hne⟩, hl⟩
  unfold mergeFamiliesInto
  dsimp only
  rw [hc.1]
  split
  · next hnone =>
    have hempty := hnone.resolve_left hc.2
    rw [hempty] at hmerge hgathered
    split
    · next hg =>
      subst hg
      rw [← hgathered]
      simp
    · next hg =>
      have hnot : g ∉ ids := fun hin => by simpa using (hmerge g).mpr ⟨hin, hg⟩
      simp [hnot]
  · rw [linked_mergeLinks before (fun r hr => (h.clean r hr).1) (fun hin => ((hmerge _).mp hin).2 rfl)]
    split
    · exact hgathered
    · next hg =>
      rw [hmerge]
      simp [hg]

variable (before) in
lemma families_mergeFamiliesInto (hc : Clean canonical) (hids : ∀ g ∈ ids, Clean g)
    (hg : g = canonical ∨ g ∉ ids) (hfound : (db.families.find g).isSome) :
    ((mergeFamiliesInto before db canonical ids).1.families.find g).isSome := by
  unfold mergeFamiliesInto
  dsimp only
  rw [hc.1]
  split
  · exact hfound
  · obtain ⟨family, hfamily⟩ := Option.isSome_iff_exists.mp hfound
    rw [Keyed.find_delete, hfamily, Option.filter_some, if_pos]
    · rfl
    · rw [Keyed.key_of_find hfamily]
      simp only [List.mem_filter, List.mem_map, decide_eq_true_eq, Bool.not_eq_true', decide_eq_false_iff_not]
      rintro ⟨⟨g', hg', rfl⟩, -, hne⟩
      rw [(hids g' hg').1] at hne hg
      rcases hg with hg | hg
      · exact hne hg
      · exact hg hg'

lemma mem_families_mergeFamiliesInto {family : Family}
    (hfamily : family ∈ (mergeFamiliesInto before db canonical ids).1.families.rows) :
    family ∈ db.families.rows := by
  unfold mergeFamiliesInto at hfamily
  dsimp only at hfamily
  split at hfamily
  · exact hfamily
  · exact (List.mem_filter.mp hfamily).1

lemma fromLinks_mergeFamiliesInto : FromLinks db.links (mergeFamiliesInto before db canonical ids).1.links := by
  unfold mergeFamiliesInto
  dsimp only
  split
  · exact .refl _
  · exact fromLinks_mergeLinks before

variable (before) in
lemma FamiliesOk.merge (h : FamiliesOk db) (hc : Clean canonical) (hids : ∀ g ∈ ids, Clean g)
    (hcanonical : (db.families.find canonical).isSome) :
    FamiliesOk (mergeFamiliesInto before db canonical ids).1 := by
  have hlinked := linked_mergeFamiliesInto before h.toCleanIds hc hids
  refine ⟨⟨?_, ?_⟩, ?_, ?_⟩
  · intro r' hr'
    obtain ⟨r, hr, -, hm⟩ := fromLinks_mergeFamiliesInto r' hr'
    have hl := (hlinked r'.matterId r'.familyId).mp ⟨r', hr', rfl, rfl⟩
    refine ⟨hm ▸ (h.clean r hr).1, ?_⟩
    split at hl
    · next he => exact he ▸ hc
    · exact h.clean_of_linked hl.2
  · exact fun family hfamily => h.cleanFamilies family (mem_families_mergeFamiliesInto hfamily)
  · intro r' hr' q' hq' hrq
    obtain ⟨r, hr, hid, hm⟩ := fromLinks_mergeFamiliesInto r' hr'
    obtain ⟨q, hq, hid', hm'⟩ := fromLinks_mergeFamiliesInto q' hq'
    have he := h.single r hr q hq (hm.trans (hrq.trans hm'.symm))
    exact Keyed.eq_of_key hr' hq' (hid.symm.trans ((congrArg MatterFamily.mfId he).trans hid'))
  · intro m g hl
    have hl := (hlinked m g).mp hl
    split at hl
    · next he =>
      exact families_mergeFamiliesInto before hc hids (.inl he) (he ▸ hcanonical)
    · exact families_mergeFamiliesInto before hc hids (.inr hl.1) (h.owned m g hl.2)

variable {q : LinkRequest} {family : Family} {created : Bool}

/-- What a call has done that has not raised. -/
lemma linkMatters_eq_some (h : linkMattersIntoFamily T before env mayEdit db q = some (db', family, created)) :
    (family, created) = resolved T env db q ∧ ∃ found withPrimary,
      withFamily db (family, created) = some found ∧
      ensureLink env (mergeFamiliesInto before found (pyStrip family.familyId)
        (familyIdsOf db q.primaryMatter.matterId ++ familyIdsOf db q.targetMatter.matterId)).1
        q.primaryMatter.matterId family.familyId = some withPrimary ∧
      ensureLink env withPrimary q.targetMatter.matterId family.familyId = some db' := by
  unfold linkMattersIntoFamily at h
  simp only [Option.bind_eq_bind, Option.bind_eq_some_iff, Option.pure_def, Option.some.injEq] at h
  obtain ⟨-, -, -, -, found, hfound, withPrimary, hprimary, linked, hlinked, heq⟩ := h
  obtain ⟨rfl, he⟩ := Prod.mk.inj heq
  rw [he] at hfound hprimary hlinked
  exact ⟨he.symm, found, withPrimary, hfound, hprimary, hlinked⟩

/-- The family is found or inserted, and the links are as they were. -/
lemma found_clean (h : CleanIds db) {found : FamilyDb} (he : (family, created) = resolved T env db q)
    (hfound : withFamily db (family, created) = some found) :
    CleanIds found ∧ found.links = db.links ∧ Clean family.familyId ∧
      (found.families.find family.familyId).isSome ∧
      ∀ g, (db.families.find g).isSome → (found.families.find g).isSome := by
  have hcases := resolved_cases T env db q
  rw [← he] at hcases
  rcases hcases with ⟨hcreated, hmem⟩ | ⟨hcreated, hid⟩
  · dsimp only at hcreated hmem
    subst hcreated
    cases hfound
    exact ⟨h, rfl, h.cleanFamilies family hmem, Option.isSome_iff_exists.mpr ⟨family, Keyed.find_of_mem hmem⟩,
      fun _ hg => hg⟩
  · dsimp only at hcreated hid
    subst hcreated
    obtain ⟨hlinks, hrows⟩ := insertFamily_eq_some hfound
    have hclean : Clean family.familyId := hid ▸ env.newFamilyId_clean
    have hin : family ∈ found.families.rows := hrows ▸ List.mem_append_right _ (List.mem_singleton_self family)
    refine ⟨⟨?_, ?_⟩, hlinks, hclean, Option.isSome_iff_exists.mpr ⟨family, Keyed.find_of_mem hin⟩, ?_⟩
    · rw [hlinks]
      exact h.clean
    · intro f hf
      rw [hrows, List.mem_append, List.mem_singleton] at hf
      rcases hf with hf | rfl
      · exact h.cleanFamilies f hf
      · exact hclean
    · intro g hg
      obtain ⟨f, hf⟩ := Option.isSome_iff_exists.mp hg
      have hmem : f ∈ found.families.rows := hrows ▸ List.mem_append_left _ (Keyed.mem_of_find hf)
      exact Option.isSome_iff_exists.mpr ⟨f, Keyed.find_eq_some.mpr ⟨hmem, Keyed.key_of_find hf⟩⟩

lemma FamiliesOk.found (h : FamiliesOk db) {found : FamilyDb} (he : (family, created) = resolved T env db q)
    (hfound : withFamily db (family, created) = some found) : FamiliesOk found := by
  obtain ⟨hclean, hlinks, -, -, hstays⟩ := found_clean h.toCleanIds he hfound
  refine ⟨hclean, ?_, ?_⟩
  · rw [hlinks]
    exact h.single
  · intro m g hl
    rw [hlinks] at hl
    exact hstays g (h.owned m g hl)

/-- The families that are merged are those of the two matters. -/
lemma mem_familyIdsOf_append (h : CleanIds db) {a b : Text} :
    g ∈ familyIdsOf db a ++ familyIdsOf db b ↔ Linked db.links a g ∨ Linked db.links b g := by
  rw [List.mem_append, mem_familyIdsOf h, mem_familyIdsOf h]

lemma clean_familyIdsOf_append (h : CleanIds db) {a b : Text} :
    ∀ g ∈ familyIdsOf db a ++ familyIdsOf db b, Clean g := by
  intro g hg
  rcases (mem_familyIdsOf_append h).mp hg with hl | hl
  · exact h.clean_of_linked hl
  · exact h.clean_of_linked hl

/-- After the merge the two matters are in no other family. -/
lemma merged_only (h : CleanIds db) (hc : Clean canonical) {a b : Text} (hm : m = a ∨ m = b)
    (hl : Linked (mergeFamiliesInto before db canonical (familyIdsOf db a ++ familyIdsOf db b)).1.links m g) :
    g = canonical := by
  by_contra hne
  rw [linked_mergeFamiliesInto before h hc (clean_familyIdsOf_append h), if_neg hne, mem_familyIdsOf_append h] at hl
  rcases hm with rfl | rfl
  · exact hl.1 (.inl hl.2)
  · exact hl.1 (.inr hl.2)

/-- A link collapses the families of the two matters into the one that it returns. -/
theorem link_collapses (h : CleanIds db)
    (hlink : linkMattersIntoFamily T before env mayEdit db q = some (db', family, created)) :
    Collapses (Linked db.links) (Linked db'.links)
      {g | Linked db.links q.primaryMatter.matterId g ∨ Linked db.links q.targetMatter.matterId g}
      family.familyId {q.primaryMatter.matterId, q.targetMatter.matterId} := by
  obtain ⟨he, found, withPrimary, hfound, hprimary, htarget⟩ := linkMatters_eq_some hlink
  obtain ⟨hok, hlinks, hclean, -, -⟩ := found_clean h he hfound
  rw [hclean.1] at hprimary
  have hids := fun g => @mem_familyIdsOf_append db g h q.primaryMatter.matterId q.targetMatter.matterId
  have hmerged := linked_mergeFamiliesInto before hok hclean
    (@clean_familyIdsOf_append db h q.primaryMatter.matterId q.targetMatter.matterId)
  rw [hlinks] at hmerged
  have hafter : ∀ m g, Linked db'.links m g ↔ (Linked (mergeFamiliesInto before found family.familyId
      (familyIdsOf db q.primaryMatter.matterId ++ familyIdsOf db q.targetMatter.matterId)).1.links m g ∨
      m = q.primaryMatter.matterId ∧ g = family.familyId) ∨ m = q.targetMatter.matterId ∧ g = family.familyId := by
    intro m g
    rw [linked_ensureLink htarget, linked_ensureLink hprimary]
  constructor
  · intro m g hg
    rw [hafter, hmerged, if_neg hg, hids]
    simp [hg]
  · intro m
    have hpair : m ∈ ({q.primaryMatter.matterId, q.targetMatter.matterId} : Set Text) ↔
        m = q.primaryMatter.matterId ∨ m = q.targetMatter.matterId := Iff.rfl
    have hgathered : (∃ g ∈ familyIdsOf db q.primaryMatter.matterId ++ familyIdsOf db q.targetMatter.matterId,
        Linked db.links m g) ↔ ∃ g ∈ {g | Linked db.links q.primaryMatter.matterId g ∨
          Linked db.links q.targetMatter.matterId g}, Linked db.links m g :=
      exists_congr (fun g => and_congr_left' (hids g))
    rw [hafter, hmerged, if_pos rfl, hpair, ← hgathered]
    simp only [and_true]
    exact or_assoc.trans or_comm

lemma FamiliesOk.link (h : FamiliesOk db)
    (hlink : linkMattersIntoFamily T before env mayEdit db q = some (db', family, created)) : FamiliesOk db' := by
  obtain ⟨he, found, withPrimary, hfound, hprimary, htarget⟩ := linkMatters_eq_some hlink
  have hok := h.found he hfound
  obtain ⟨-, hlinks, hclean, hisSome, -⟩ := found_clean h.toCleanIds he hfound
  rw [hclean.1] at hprimary
  have hids : ∀ a, familyIdsOf db a = familyIdsOf found a := by
    intro a
    unfold familyIdsOf
    rw [hlinks]
  rw [hids, hids] at hprimary
  have hidsClean := @clean_familyIdsOf_append found hok.toCleanIds q.primaryMatter.matterId q.targetMatter.matterId
  have hokMerged := hok.merge before hclean hidsClean hisSome
  have hstays := families_mergeFamiliesInto before hclean hidsClean (.inl rfl) hisSome
  have hokPrimary := hokMerged.ensureLink q.primaryMatter.clean hstays
    (fun _ => merged_only hok.toCleanIds hclean (.inl rfl)) hprimary
  refine hokPrimary.ensureLink q.targetMatter.clean ?_ ?_ htarget
  · rw [(ensureLink_eq_some hprimary).1]
    exact hstays
  · intro g hl
    rcases (linked_ensureLink hprimary _ g).mp hl with hl | ⟨-, hg⟩
    · exact merged_only hok.toCleanIds hclean (.inr rfl) hl
    · exact hg

/-- A link joins the two matters and what the family that it returns already had. -/
theorem together_link (h : CleanIds db)
    (hlink : linkMattersIntoFamily T before env mayEdit db q = some (db', family, created)) :
    together db' = together db ⊔ joined ({q.primaryMatter.matterId, q.targetMatter.matterId} ∪
      {m | Linked db.links m family.familyId}) := by
  apply components_collapse (link_collapses h hlink)
  rintro g (hg | hg)
  · exact ⟨_, .inl rfl, hg⟩
  · exact ⟨_, .inr rfl, hg⟩

/-- The family that is entered is the one that is named. -/
lemma enter_family {matter : Matter} {familyId : Text}
    (henter : linkMatterToFamilyId env mayEdit db matter familyId = some (db', family)) :
    family.familyId = pyStrip familyId := by
  unfold linkMatterToFamilyId at henter
  simp only [Option.bind_eq_bind, Option.bind_eq_some_iff, Option.pure_def, Option.some.injEq] at henter
  obtain ⟨-, -, found, hfound, -, -, linked, -, heq⟩ := henter
  obtain ⟨-, rfl⟩ := Prod.mk.inj heq
  exact Keyed.key_of_find hfound

/-- A matter that has no family enters one. -/
theorem enter_collapses {matter : Matter} {familyId : Text} (h : FamiliesOk db)
    (hnew : ∀ r ∈ db.links.rows, r.matterId ≠ matter.matterId)
    (henter : linkMatterToFamilyId env mayEdit db matter familyId = some (db', family)) :
    FamiliesOk db' ∧ ∀ m g, Linked db'.links m g ↔ Linked db.links m g ∨ g = family.familyId ∧ m ∈ ({matter.matterId} : Set Text) := by
  unfold linkMatterToFamilyId at henter
  simp only [Option.bind_eq_bind, Option.bind_eq_some_iff, Option.pure_def, Option.some.injEq] at henter
  obtain ⟨-, -, found, hfound, -, -, linked, hlinked, heq⟩ := henter
  obtain ⟨rfl, rfl⟩ := Prod.mk.inj heq
  have hmem := Keyed.mem_of_find hfound
  refine ⟨h.ensureLink matter.clean (Option.isSome_iff_exists.mpr ⟨_, Keyed.find_of_mem hmem⟩) ?_ hlinked, ?_⟩
  · rintro g ⟨r, hr, hm, -⟩
    exact absurd hm (hnew r hr)
  · intro m g
    rw [linked_ensureLink hlinked]
    simp [and_comm]

lemma together_enter {matter : Matter} {familyId : Text} (h : FamiliesOk db)
    (hnew : ∀ r ∈ db.links.rows, r.matterId ≠ matter.matterId)
    (henter : linkMatterToFamilyId env mayEdit db matter familyId = some (db', family)) :
    together db' = together db ⊔ joined ({matter.matterId} ∪ {m | Linked db.links m family.familyId}) :=
  components_collapse (collapses_enter (enter_collapses h hnew henter).2) (fun _ hg => absurd hg (Set.notMem_empty _))

/-- Links that go leave the rest in order. -/
lemma FamiliesOk.delete (h : FamiliesOk db) (p : MatterFamily → Bool) :
    FamiliesOk { db with links := db.links.delete p } := by
  have hmem : ∀ r ∈ (db.links.delete p).rows, r ∈ db.links.rows := fun r hr => (List.mem_filter.mp hr).1
  refine ⟨⟨fun r hr => h.clean r (hmem r hr), h.cleanFamilies⟩,
    fun r hr q hq => h.single r (hmem r hr) q (hmem q hq), ?_⟩
  rintro m g ⟨r, hr, hrest⟩
  exact h.owned m g ⟨r, hmem r hr, hrest⟩

lemma together_remove (h : FamiliesOk db) : together (removeMatter db m) = isolated m (together db) := by
  have hlinked : ∀ a g, Linked (removeMatter db m).links a g ↔ a ≠ m ∧ Linked db.links a g := by
    intro a g
    unfold Linked removeMatter Keyed.delete
    simp only [List.mem_filter, Bool.not_eq_true', decide_eq_false_iff_not]
    constructor
    · rintro ⟨r, ⟨hr, hne⟩, rfl, hf⟩
      exact ⟨hne, r, hr, rfl, hf⟩
    · rintro ⟨hne, r, hr, rfl, hf⟩
      exact ⟨r, ⟨hr, hne⟩, rfl, hf⟩
  apply components_leave h.unique
  · intro a b _
    simp only [Shares, hlinked]
    constructor
    · rintro ⟨g, ⟨ha, hag⟩, hb, hbg⟩
      exact ⟨ha, hb, g, hag, hbg⟩
    · rintro ⟨ha, hb, g, hag, hbg⟩
      exact ⟨g, ⟨ha, hag⟩, hb, hbg⟩
  · exact (h.delete _).unique

end Calls

end IpDocket.Matters
