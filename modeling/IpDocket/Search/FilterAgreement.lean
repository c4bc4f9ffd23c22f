import IpDocket.Search.Expression

/-!
# Search in SQL and in memory

The filter drops a group that has no clauses or a negated term without one, also when the row
matches it, and it drops the clauses of the negated fields after the first one that it does not
know. The filter and the search in memory agree on a row exactly if this makes no difference.
-/

namespace IpDocket.Search
open IpDocket.Lib

variable {ρ : Type}

lemma selects_sqlNot {c : Sql ρ} {row : ρ} : selects (sqlNot c) row ↔ c row = some false := by
  unfold selects sqlNot
  cases h : c row with
  | none => simp
  | some b => cases b <;> simp

lemma selects_sqlAnd {cs : List (Sql ρ)} {row : ρ} :
    selects (sqlAnd cs) row ↔ ∀ c ∈ cs, selects c row := by
  unfold selects sqlAnd
  constructor
  · intro h c hc
    split at h
    · cases h
    · split at h
      · next hall =>
        rw [List.all_eq_true] at hall
        exact of_decide_eq_true (hall c hc)
      · cases h
  · intro h
    have hnone : cs.any (fun c => c row = some false) = false := by
      rw [List.any_eq_false]
      intro c hc hfalse
      rw [h c hc, decide_eq_true_eq] at hfalse
      cases hfalse
    have hall : cs.all (fun c => c row = some true) = true := by
      rw [List.all_eq_true]
      intro c hc
      exact decide_eq_true (h c hc)
    rw [hnone, hall]
    rfl

lemma selects_sqlOr {cs : List (Sql ρ)} {row : ρ} :
    selects (sqlOr cs) row ↔ ∃ c ∈ cs, selects c row := by
  unfold selects sqlOr
  constructor
  · intro h
    split at h
    · next hany =>
      obtain ⟨c, hc, hrow⟩ := List.any_eq_true.mp hany
      exact ⟨c, hc, of_decide_eq_true hrow⟩
    · split at h <;> cases h
  · rintro ⟨c, hc, hrow⟩
    have hany : cs.any (fun c => c row = some true) = true :=
      List.any_eq_true.mpr ⟨c, hc, decide_eq_true hrow⟩
    rw [hany]
    rfl

/-- The clause says of the row what the search in memory says; without a clause this is `false`. -/
def ClauseAgrees (clause : Option (Sql ρ)) (row : ρ) (matched : Bool) : Prop :=
  match clause with
  | none => matched = false
  | some c => c row = some matched

section Clauses

variable {α : Type} {clause : α → Option (Sql ρ)} {row : ρ} {matched : α → Bool} {as : List α}

/-- The clauses of a list all select the row exactly if all its items match. -/
lemma mapM_selects (h : ∀ a ∈ as, ClauseAgrees (clause a) row (matched a)) :
    (∃ cs, as.mapM clause = some cs ∧ ∀ c ∈ cs, selects c row) ↔ ∀ a ∈ as, matched a = true := by
  induction as with
  | nil => simp
  | cons a as ih =>
    have ha := h a List.mem_cons_self
    have hrest := ih (fun b hb => h b (List.mem_cons_of_mem _ hb))
    rw [List.forall_mem_cons, ← hrest]
    cases hc : clause a with
    | none =>
      rw [hc] at ha
      have hfalse : matched a = false := ha
      simp [List.mapM_cons, hc, hfalse]
    | some c =>
      rw [hc] at ha
      have hrow : c row = some (matched a) := ha
      cases hm : as.mapM clause with
      | none => simp [List.mapM_cons, hc, hm]
      | some cs => simp [List.mapM_cons, hc, hm, selects, hrow]

/-- The negated clauses of a list all select the row exactly if no item matches and each has a
clause. -/
lemma mapM_sqlNot_selects (h : ∀ a ∈ as, ClauseAgrees (clause a) row (matched a)) :
    (∃ cs, as.mapM clause = some cs ∧ ∀ c ∈ cs.map sqlNot, selects c row) ↔
      ∀ a ∈ as, matched a = false ∧ (clause a).isSome := by
  induction as with
  | nil => simp
  | cons a as ih =>
    have ha := h a List.mem_cons_self
    have hrest := ih (fun b hb => h b (List.mem_cons_of_mem _ hb))
    rw [List.forall_mem_cons, ← hrest]
    cases hc : clause a with
    | none => simp [List.mapM_cons, hc]
    | some c =>
      rw [hc] at ha
      have hrow : c row = some (matched a) := ha
      cases hm : as.mapM clause with
      | none => simp [List.mapM_cons, hc, hm]
      | some cs => simp [List.mapM_cons, hc, hm, selects_sqlNot, hrow]

end Clauses

section Agreement

variable (T : SearchTables) (searchText : Text) (fieldValues : String → Option FieldValue)
  (general : Option (Text → Option (Sql ρ)))
  (fieldBuilders : String → Option (Text → Option (Sql ρ))) (row : ρ)

/-- The builders agree with `textMatchesQuery` on all clauses of the expression, and the fields
have the same names on both sides. -/
structure BuildersAgree (e : SearchExpression) : Prop where
  raw : e.groups = [] →
    ClauseAgrees (termClause general e.raw) row (textMatchesQuery T searchText e.raw)
  terms : ∀ g ∈ e.groups, ∀ term ∈ g.terms ++ g.notTerms,
    ClauseAgrees (termClause general term) row (textMatchesQuery T searchText term)
  names : ∀ name, (fieldBuilders name).isSome = (fieldValues name).isSome
  fields : ∀ g ∈ e.groups, ∀ item ∈ g.fields ++ g.notFields, ∀ builder,
    fieldBuilders item.1 = some builder → ∀ value ∈ item.2,
      ClauseAgrees (builder value) row (fieldMatches T fieldValues item.1 value)

/-- The values of the negated fields before the loop ends. -/
def keptNegated : List (String × List Text) → List (String × Text)
  | [] => []
  | (name, values) :: rest =>
    match fieldBuilders name with
    | none => []
    | some builder =>
      let kept := values.takeWhile (fun value => (builder value).isSome)
      kept.map (fun value => (name, value)) ++
        if kept.length = values.length then keptNegated rest else []

/-- The filter drops the group: a negated term has no clause, or there is no clause at all. -/
def Dropped (g : SearchExpressionGroup) : Prop :=
  (∃ term ∈ g.notTerms, termClause general term = none) ∨
  (g.terms = [] ∧ g.notTerms = [] ∧ (∀ item ∈ g.fields, item.2 = []) ∧
    keptNegated fieldBuilders g.notFields = [])

/-- The filter keeps the group and the row meets its clauses. -/
structure FilterAccepts (g : SearchExpressionGroup) : Prop where
  kept : ¬Dropped general fieldBuilders g
  terms : ∀ term ∈ g.terms, textMatchesQuery T searchText term = true
  notTerms : ∀ term ∈ g.notTerms, textMatchesQuery T searchText term = false
  fields : ∀ item ∈ g.fields, (fieldBuilders item.1).isSome ∧
    ∀ value ∈ item.2, fieldMatches T fieldValues item.1 value = true
  negated : ∀ nv ∈ keptNegated fieldBuilders g.notFields,
    fieldMatches T fieldValues nv.1 nv.2 = false

/-- The filter accepts a row that does not match the group: a value of a negated field after the
end of the loop matches, or a field without values has no value in the row. -/
def Overreaches (g : SearchExpressionGroup) : Prop :=
  FilterAccepts T searchText fieldValues general fieldBuilders g ∧
  ((∃ item ∈ g.notFields, ∃ value ∈ item.2, fieldMatches T fieldValues item.1 value = true) ∨
    ∃ item ∈ g.fields, valuesFor fieldValues item.1 = [])

/-- The row matches a group that the filter keeps, or it matches a group exactly if the filter
overreaches in some group. -/
def NoDifference (e : SearchExpression) : Prop :=
  (∃ g ∈ e.groups, matchesGroup T searchText fieldValues g = true ∧
    ¬Dropped general fieldBuilders g) ∨
  ((∃ g ∈ e.groups, matchesGroup T searchText fieldValues g = true) ↔
    ∃ g ∈ e.groups, Overreaches T searchText fieldValues general fieldBuilders g)

end Agreement

section Negated

variable {builder : Text → Option (Sql ρ)} {row : ρ} {matched : Text → Bool}

lemma valueClauses_length (builder : Text → Option (Sql ρ)) (values : List Text) : (valueClauses builder values).1.length =
    (values.takeWhile (fun value => (builder value).isSome)).length := by
  induction values with
  | nil => rfl
  | cons value values ih =>
    unfold valueClauses
    cases hb : builder value with
    | none => simp [hb]
    | some clause => simp [hb, ih]

/-- The loop stops within the values exactly if not all of them are kept. -/
lemma valueClauses_stopped (builder : Text → Option (Sql ρ)) (values : List Text) : (valueClauses builder values).2 = true ↔
    (values.takeWhile (fun value => (builder value).isSome)).length ≠ values.length := by
  induction values with
  | nil => simp [valueClauses]
  | cons value values ih =>
    unfold valueClauses
    cases hb : builder value with
    | none => simp [hb]
    | some clause => simp [hb, ih]

lemma valueClauses_selects {values : List Text}
    (h : ∀ value ∈ values, ClauseAgrees (builder value) row (matched value)) :
    (∀ c ∈ (valueClauses builder values).1.map sqlNot, selects c row) ↔
      ∀ value ∈ values.takeWhile (fun value => (builder value).isSome), matched value = false := by
  induction values with
  | nil => simp [valueClauses]
  | cons value values ih =>
    have hvalue := h value List.mem_cons_self
    have hrest := ih (fun v hv => h v (List.mem_cons_of_mem _ hv))
    unfold valueClauses
    cases hb : builder value with
    | none => simp [hb]
    | some clause =>
      rw [hb] at hvalue
      have hrow : clause row = some (matched value) := hvalue
      rw [List.takeWhile_cons_of_pos (by rw [hb]; rfl), List.forall_mem_cons, ← hrest]
      change (∀ c ∈ (clause :: (valueClauses builder values).1).map sqlNot, selects c row) ↔ _
      rw [List.map_cons, List.forall_mem_cons, selects_sqlNot, hrow, Option.some.injEq]

end Negated

section Groups

variable {T : SearchTables} {searchText : Text} {fieldValues : String → Option FieldValue}
  {general : Option (Text → Option (Sql ρ))}
  {fieldBuilders : String → Option (Text → Option (Sql ρ))} {row : ρ}

lemma notFieldClauses_length (items : List (String × List Text)) :
    (notFieldClauses fieldBuilders items).length = (keptNegated fieldBuilders items).length := by
  induction items with
  | nil => rfl
  | cons item items ih =>
    obtain ⟨name, values⟩ := item
    unfold notFieldClauses keptNegated
    cases fieldBuilders name with
    | none => rfl
    | some builder =>
      have hlength := valueClauses_length builder values
      have hstopped := valueClauses_stopped builder values
      dsimp only
      rw [List.length_append, List.length_append, List.length_map, List.length_map, hlength]
      by_cases hall : (values.takeWhile (fun value => (builder value).isSome)).length = values.length
      · rw [if_pos hall, if_neg (by rw [hstopped]; exact not_not_intro hall), ih]
      · rw [if_neg hall, if_pos (hstopped.mpr hall)]
        rfl

/-- The clauses of the negated fields select the row exactly if no value that is kept matches. -/
lemma notFieldClauses_selects {items : List (String × List Text)}
    (h : ∀ item ∈ items, ∀ builder, fieldBuilders item.1 = some builder → ∀ value ∈ item.2,
      ClauseAgrees (builder value) row (fieldMatches T fieldValues item.1 value)) :
    (∀ c ∈ notFieldClauses fieldBuilders items, selects c row) ↔
      ∀ nv ∈ keptNegated fieldBuilders items, fieldMatches T fieldValues nv.1 nv.2 = false := by
  induction items with
  | nil => simp [notFieldClauses, keptNegated]
  | cons item items ih =>
    obtain ⟨name, values⟩ := item
    have hitem := h (name, values) List.mem_cons_self
    have hrest := ih (fun item hi => h item (List.mem_cons_of_mem _ hi))
    unfold notFieldClauses keptNegated
    cases hb : fieldBuilders name with
    | none => simp
    | some builder =>
      have hvalues := valueClauses_selects (hitem builder hb)
      have hstopped := valueClauses_stopped builder values
      dsimp only
      rw [List.forall_mem_append, List.forall_mem_append, hvalues, List.forall_mem_map]
      by_cases hall : (values.takeWhile (fun value => (builder value).isSome)).length = values.length
      · rw [if_pos hall, if_neg (by rw [hstopped]; exact not_not_intro hall), hrest]
      · rw [if_neg hall, if_pos (hstopped.mpr hall)]
        simp

/-- The clauses of the fields select the row exactly if all fields are known and match. -/
lemma fieldClauses_selects {items : List (String × List Text)}
    (h : ∀ item ∈ items, ∀ builder, fieldBuilders item.1 = some builder → ∀ value ∈ item.2,
      ClauseAgrees (builder value) row (fieldMatches T fieldValues item.1 value)) :
    (∃ fs, items.mapM (fun item => (fieldBuilders item.1).bind (fun builder =>
        item.2.mapM builder)) = some fs ∧ ∀ c ∈ fs.flatten, selects c row) ↔
      ∀ item ∈ items, (fieldBuilders item.1).isSome ∧
        ∀ value ∈ item.2, fieldMatches T fieldValues item.1 value = true := by
  induction items with
  | nil => simp
  | cons item items ih =>
    have hitem := h item List.mem_cons_self
    have hrest := ih (fun item hi => h item (List.mem_cons_of_mem _ hi))
    rw [List.forall_mem_cons, ← hrest]
    cases hb : fieldBuilders item.1 with
    | none => simp [List.mapM_cons, hb]
    | some builder =>
      have hvalues := mapM_selects (hitem builder hb)
      rw [← hvalues]
      cases hm : item.2.mapM builder with
      | none => simp [List.mapM_cons, hb, hm]
      | some cs =>
        cases hms : items.mapM (fun item => (fieldBuilders item.1).bind (fun builder =>
            item.2.mapM builder)) with
        | none => simp [List.mapM_cons, hb, hm, hms]
        | some fs =>
          simp only [List.mapM_cons, hb, hm, hms, Option.bind_eq_bind, Option.bind_some,
            Option.pure_def, Option.some.injEq, exists_eq_left', List.flatten_cons,
            List.forall_mem_append, Option.isSome_some, true_and]

lemma length_of_mapM {α β : Type} {f : α → Option β} {as : List α} {bs : List β}
    (h : as.mapM f = some bs) : bs.length = as.length := by
  induction as generalizing bs with
  | nil =>
    cases h
    rfl
  | cons a as ih =>
    rw [List.mapM_cons] at h
    obtain ⟨b, _, h⟩ := Option.bind_eq_some_iff.mp h
    obtain ⟨bs', hbs, h⟩ := Option.bind_eq_some_iff.mp h
    cases h
    rw [List.length_cons, List.length_cons, ih hbs]

lemma flatten_fieldClauses_eq_nil {items : List (String × List Text)} {fs : List (List (Sql ρ))}
    (h : items.mapM (fun item => (fieldBuilders item.1).bind (fun builder =>
      item.2.mapM builder)) = some fs) : fs.flatten = [] ↔ ∀ item ∈ items, item.2 = [] := by
  induction items generalizing fs with
  | nil =>
    cases h
    simp
  | cons item items ih =>
    rw [List.mapM_cons] at h
    obtain ⟨cs, hcs, h⟩ := Option.bind_eq_some_iff.mp h
    obtain ⟨fs', hfs, h⟩ := Option.bind_eq_some_iff.mp h
    obtain ⟨builder, _, hvalues⟩ := Option.bind_eq_some_iff.mp hcs
    cases h
    have hlength := length_of_mapM hvalues
    rw [List.flatten_cons, List.append_eq_nil_iff, ih hfs, List.forall_mem_cons]
    apply and_congr_left'
    rw [← List.length_eq_zero_iff, ← List.length_eq_zero_iff, hlength]

lemma groupClauses_eq_some {g : SearchExpressionGroup} {cs : List (Sql ρ)} :
    groupClauses general fieldBuilders g = some cs ↔
      ∃ ts ns fs, g.terms.mapM (termClause general) = some ts ∧
        g.notTerms.mapM (termClause general) = some ns ∧
        g.fields.mapM (fun item => (fieldBuilders item.1).bind (fun builder =>
          item.2.mapM builder)) = some fs ∧
        cs = ts ++ ns.map sqlNot ++ fs.flatten ++ notFieldClauses fieldBuilders g.notFields := by
  unfold groupClauses
  constructor
  · intro h
    obtain ⟨ts, hts, h⟩ := Option.bind_eq_some_iff.mp h
    obtain ⟨ns, hns, h⟩ := Option.bind_eq_some_iff.mp h
    obtain ⟨fs, hfs, h⟩ := Option.bind_eq_some_iff.mp h
    cases h
    exact ⟨ts, ns, fs, hts, hns, hfs, rfl⟩
  · rintro ⟨ts, ns, fs, hts, hns, hfs, rfl⟩
    rw [hts, hns, hfs]
    rfl

/-- The clauses of a valid group are none exactly if the group has nothing to build them from. -/
lemma groupClauses_eq_nil {g : SearchExpressionGroup} {ts ns : List (Sql ρ)}
    {fs : List (List (Sql ρ))} (hts : g.terms.mapM (termClause general) = some ts)
    (hns : g.notTerms.mapM (termClause general) = some ns)
    (hfs : g.fields.mapM (fun item => (fieldBuilders item.1).bind (fun builder =>
      item.2.mapM builder)) = some fs) :
    ts ++ ns.map sqlNot ++ fs.flatten ++ notFieldClauses fieldBuilders g.notFields = [] ↔
      g.terms = [] ∧ g.notTerms = [] ∧ (∀ item ∈ g.fields, item.2 = []) ∧
        keptNegated fieldBuilders g.notFields = [] := by
  have hterms : ts = [] ↔ g.terms = [] := by
    rw [← List.length_eq_zero_iff, ← List.length_eq_zero_iff, length_of_mapM hts]
  have hnot : ns = [] ↔ g.notTerms = [] := by
    rw [← List.length_eq_zero_iff, ← List.length_eq_zero_iff, length_of_mapM hns]
  have hnegated : notFieldClauses fieldBuilders g.notFields = [] ↔
      keptNegated fieldBuilders g.notFields = [] := by
    rw [← List.length_eq_zero_iff, ← List.length_eq_zero_iff, notFieldClauses_length]
  rw [List.append_eq_nil_iff, List.append_eq_nil_iff, List.append_eq_nil_iff, List.map_eq_nil_iff,
    hterms, hnot, flatten_fieldClauses_eq_nil hfs, hnegated]
  simp only [and_assoc]

variable {e : SearchExpression}

/-- What the filter of a group accepts. -/
lemma groupClauses_selects
    (h : BuildersAgree T searchText fieldValues general fieldBuilders row e)
    {g : SearchExpressionGroup} (hg : g ∈ e.groups) :
    (∃ cs, groupClauses general fieldBuilders g = some cs ∧ cs ≠ [] ∧ ∀ c ∈ cs, selects c row) ↔
      FilterAccepts T searchText fieldValues general fieldBuilders g := by
  have hterms := mapM_selects (fun t ht => h.terms g hg t (List.mem_append_left _ ht))
  have hnot := mapM_sqlNot_selects (fun t ht => h.terms g hg t (List.mem_append_right _ ht))
  have hfields := fieldClauses_selects (fun item hi => h.fields g hg item (List.mem_append_left _ hi))
  have hnegated := notFieldClauses_selects
    (fun item hi => h.fields g hg item (List.mem_append_right _ hi))
  constructor
  · rintro ⟨cs, hcs, hne, hall⟩
    obtain ⟨ts, ns, fs, hts, hns, hfs, rfl⟩ := groupClauses_eq_some.mp hcs
    rw [List.forall_mem_append, List.forall_mem_append, List.forall_mem_append] at hall
    obtain ⟨⟨⟨hall₁, hall₂⟩, hall₃⟩, hall₄⟩ := hall
    have hnotTerms := hnot.mp ⟨ns, hns, hall₂⟩
    constructor
    · rintro (⟨term, hterm, hnone⟩ | hnil)
      · have hsome := (hnotTerms term hterm).2
        rw [hnone] at hsome
        cases hsome
      · exact hne ((groupClauses_eq_nil hts hns hfs).mpr hnil)
    · exact hterms.mp ⟨ts, hts, hall₁⟩
    · exact fun term hterm => (hnotTerms term hterm).1
    · exact hfields.mp ⟨fs, hfs, hall₃⟩
    · exact hnegated.mp hall₄
  · intro hg
    have hclauses : ∀ term ∈ g.notTerms, (termClause general term).isSome := by
      intro term hterm
      rw [Option.isSome_iff_ne_none]
      intro hnone
      exact hg.kept (.inl ⟨term, hterm, hnone⟩)
    obtain ⟨ts, hts, hall₁⟩ := hterms.mpr hg.terms
    obtain ⟨ns, hns, hall₂⟩ := hnot.mpr (fun term hterm => ⟨hg.notTerms term hterm, hclauses term hterm⟩)
    obtain ⟨fs, hfs, hall₃⟩ := hfields.mpr hg.fields
    have hall₄ := hnegated.mpr hg.negated
    refine ⟨_, groupClauses_eq_some.mpr ⟨ts, ns, fs, hts, hns, hfs, rfl⟩, ?_, ?_⟩
    · intro hnil
      exact hg.kept (.inr ((groupClauses_eq_nil hts hns hfs).mp hnil))
    · rw [List.forall_mem_append, List.forall_mem_append, List.forall_mem_append]
      exact ⟨⟨⟨hall₁, hall₂⟩, hall₃⟩, hall₄⟩

/-- The filter selects a row exactly if it accepts it for some group. -/
lemma filterSelects_iff (h : BuildersAgree T searchText fieldValues general fieldBuilders row e)
    (hgroups : e.groups ≠ []) : filterSelects general fieldBuilders e row = true ↔
      ∃ g ∈ e.groups, FilterAccepts T searchText fieldValues general fieldBuilders g := by
  unfold filterSelects buildSqlalchemySearchFilter
  rw [if_neg hgroups]
  dsimp only
  have hgroup : (∃ cs ∈ (e.groups.filterMap (groupClauses general fieldBuilders)).filter (· ≠ []),
      ∀ c ∈ cs, selects c row) ↔
      ∃ g ∈ e.groups, FilterAccepts T searchText fieldValues general fieldBuilders g := by
    constructor
    · rintro ⟨cs, hcs, hall⟩
      obtain ⟨hmem, hne⟩ := List.mem_filter.mp hcs
      obtain ⟨g, hg, hclauses⟩ := List.mem_filterMap.mp hmem
      exact ⟨g, hg, (groupClauses_selects h hg).mp ⟨cs, hclauses, of_decide_eq_true hne, hall⟩⟩
    · rintro ⟨g, hg, haccepts⟩
      obtain ⟨cs, hclauses, hne, hall⟩ := (groupClauses_selects h hg).mpr haccepts
      exact ⟨cs, List.mem_filter.mpr ⟨List.mem_filterMap.mpr ⟨g, hg, hclauses⟩, decide_eq_true hne⟩,
        hall⟩
  rw [← hgroup]
  generalize (e.groups.filterMap (groupClauses general fieldBuilders)).filter (· ≠ []) = groups
  by_cases hnil : groups = []
  · rw [if_pos hnil, hnil]
    simp
  · rw [if_neg hnil, Option.any_some, decide_eq_true_eq, selects_sqlOr]
    constructor
    · rintro ⟨c, hc, hrow⟩
      obtain ⟨cs, hcs, rfl⟩ := List.mem_map.mp hc
      exact ⟨cs, hcs, selects_sqlAnd.mp hrow⟩
    · rintro ⟨cs, hcs, hall⟩
      exact ⟨sqlAnd cs, List.mem_map_of_mem hcs, selects_sqlAnd.mpr hall⟩

/-! ### The search in memory -/

lemma matchesGroup_iff {g : SearchExpressionGroup} :
    matchesGroup T searchText fieldValues g = true ↔
      (∀ term ∈ g.terms, textMatchesQuery T searchText term = true) ∧
      (∀ term ∈ g.notTerms, textMatchesQuery T searchText term = false) ∧
      (∀ item ∈ g.fields, valuesFor fieldValues item.1 ≠ [] ∧
        ∀ value ∈ item.2, fieldMatches T fieldValues item.1 value = true) ∧
      ∀ item ∈ g.notFields, ∀ value ∈ item.2, fieldMatches T fieldValues item.1 value = false := by
  -- a field without values in the row matches nothing
  have hnone : ∀ item : String × List Text, valuesFor fieldValues item.1 = [] →
      ∀ value ∈ item.2, fieldMatches T fieldValues item.1 value = false := by
    intro item hitem value _
    unfold fieldMatches
    rw [hitem]
    rfl
  unfold matchesGroup
  simp only [Bool.and_eq_true, List.all_eq_true, Bool.not_eq_true', decide_eq_true_eq,
    Bool.or_eq_true, List.any_eq_false, Bool.not_eq_true, and_assoc]
  refine and_congr_right' (and_congr_right' (and_congr_right' ?_))
  constructor
  · intro h item hitem
    obtain hempty | hvalues := h item hitem
    · exact hnone item hempty
    · exact hvalues
  · intro h item hitem
    exact .inr (h item hitem)

/-- A field with a value in the row is known. -/
lemma isSome_of_valuesFor (names : ∀ name, (fieldBuilders name).isSome = (fieldValues name).isSome)
    {name : String} (h : valuesFor fieldValues name ≠ []) : (fieldBuilders name).isSome := by
  rw [names]
  unfold valuesFor at h
  cases hv : fieldValues name with
  | none =>
    rw [hv] at h
    exact absurd rfl h
  | some v => rfl

lemma exists_of_mem_keptNegated {items : List (String × List Text)} {nv : String × Text}
    (h : nv ∈ keptNegated fieldBuilders items) : ∃ item ∈ items, item.1 = nv.1 ∧ nv.2 ∈ item.2 := by
  induction items with
  | nil => cases h
  | cons item items ih =>
    obtain ⟨name, values⟩ := item
    unfold keptNegated at h
    cases hb : fieldBuilders name with
    | none =>
      rw [hb] at h
      cases h
    | some builder =>
      rw [hb] at h
      dsimp only at h
      obtain hkept | hrest := List.mem_append.mp h
      · obtain ⟨value, hvalue, rfl⟩ := List.mem_map.mp hkept
        exact ⟨(name, values), List.mem_cons_self, rfl, (List.takeWhile_sublist _).mem hvalue⟩
      · split at hrest
        · obtain ⟨item, hitem, hnv⟩ := ih hrest
          exact ⟨item, List.mem_cons_of_mem _ hitem, hnv⟩
        · cases hrest

/-- The filter accepts what matches a group that it keeps. -/
lemma filterAccepts_of_matches
    (h : BuildersAgree T searchText fieldValues general fieldBuilders row e)
    {g : SearchExpressionGroup} (hmatch : matchesGroup T searchText fieldValues g = true)
    (hkept : ¬Dropped general fieldBuilders g) :
    FilterAccepts T searchText fieldValues general fieldBuilders g := by
  obtain ⟨hterms, hnotTerms, hfields, hnotFields⟩ := matchesGroup_iff.mp hmatch
  constructor
  · exact hkept
  · exact hterms
  · exact hnotTerms
  · intro item hitem
    obtain ⟨hvalues, hall⟩ := hfields item hitem
    exact ⟨isSome_of_valuesFor h.names hvalues, hall⟩
  · intro nv hnv
    obtain ⟨item, hitem, hname, hvalue⟩ := exists_of_mem_keptNegated hnv
    rw [← hname]
    exact hnotFields item hitem nv.2 hvalue

/-- What the filter accepts matches the group, or the filter overreaches in it. -/
lemma filterAccepts_cases {g : SearchExpressionGroup}
    (h : FilterAccepts T searchText fieldValues general fieldBuilders g) :
    (matchesGroup T searchText fieldValues g = true ∧ ¬Dropped general fieldBuilders g) ∨
      Overreaches T searchText fieldValues general fieldBuilders g := by
  by_cases hover : (∃ item ∈ g.notFields, ∃ value ∈ item.2,
      fieldMatches T fieldValues item.1 value = true) ∨
      ∃ item ∈ g.fields, valuesFor fieldValues item.1 = []
  · exact .inr ⟨h, hover⟩
  · left
    obtain ⟨hnegated, hvalues⟩ := not_or.mp hover
    refine ⟨matchesGroup_iff.mpr ⟨h.terms, h.notTerms, ?_, ?_⟩, h.kept⟩
    · intro item hitem
      exact ⟨fun hnil => hvalues ⟨item, hitem, hnil⟩, (h.fields item hitem).2⟩
    · intro item hitem value hvalue
      rw [← Bool.not_eq_true]
      intro hmatch
      exact hnegated ⟨item, hitem, value, hvalue, hmatch⟩

lemma or_iff_iff_or {A B C : Prop} (h : A → B) : ((A ∨ C) ↔ B) ↔ (A ∨ (B ↔ C)) := by
  grind

/-- The search in SQL and the search in memory agree on a row exactly if what the filter drops
makes no difference for it. -/
theorem filter_agrees_iff (T : SearchTables) (searchText : Text)
    (fieldValues : String → Option FieldValue) (general : Option (Text → Option (Sql ρ)))
    (fieldBuilders : String → Option (Text → Option (Sql ρ))) (row : ρ) (e : SearchExpression)
    (h : BuildersAgree T searchText fieldValues general fieldBuilders row e) :
    (filterSelects general fieldBuilders e row = true ↔
      matchesSearchExpression T searchText fieldValues e = true) ↔
      NoDifference T searchText fieldValues general fieldBuilders e := by
  by_cases hgroups : e.groups = []
  · have hsame : filterSelects general fieldBuilders e row =
        matchesSearchExpression T searchText fieldValues e := by
      have hraw := h.raw hgroups
      unfold filterSelects buildSqlalchemySearchFilter matchesSearchExpression
      rw [if_pos hgroups, if_pos hgroups]
      cases hc : termClause general e.raw with
      | none =>
        rw [hc] at hraw
        have hfalse : textMatchesQuery T searchText e.raw = false := hraw
        rw [hfalse]
        rfl
      | some c =>
        rw [hc] at hraw
        have hrow : c row = some (textMatchesQuery T searchText e.raw) := hraw
        rw [Option.any_some, Bool.eq_iff_iff, decide_eq_true_eq]
        unfold selects
        rw [hrow, Option.some.injEq]
    rw [hsame]
    unfold NoDifference
    rw [hgroups]
    simp
  · have hmemory : matchesSearchExpression T searchText fieldValues e = true ↔
        ∃ g ∈ e.groups, matchesGroup T searchText fieldValues g = true := by
      unfold matchesSearchExpression
      rw [if_neg hgroups, List.any_eq_true]
    have hsql : filterSelects general fieldBuilders e row = true ↔
        (∃ g ∈ e.groups, matchesGroup T searchText fieldValues g = true ∧
          ¬Dropped general fieldBuilders g) ∨
        ∃ g ∈ e.groups, Overreaches T searchText fieldValues general fieldBuilders g := by
      rw [filterSelects_iff h hgroups]
      constructor
      · rintro ⟨g, hg, haccepts⟩
        obtain hmatch | hover := filterAccepts_cases haccepts
        · exact .inl ⟨g, hg, hmatch⟩
        · exact .inr ⟨g, hg, hover⟩
      · rintro (⟨g, hg, hmatch, hkept⟩ | ⟨g, hg, hover⟩)
        · exact ⟨g, hg, filterAccepts_of_matches h hmatch hkept⟩
        · exact ⟨g, hg, hover.1⟩
    have hmatched : (∃ g ∈ e.groups, matchesGroup T searchText fieldValues g = true ∧
        ¬Dropped general fieldBuilders g) →
        ∃ g ∈ e.groups, matchesGroup T searchText fieldValues g = true := by
      rintro ⟨g, hg, hmatch, _⟩
      exact ⟨g, hg, hmatch⟩
    rw [hmemory, hsql]
    exact or_iff_iff_or hmatched

/-- The filter builds a clause for everything in the group that a row can fail. -/
structure Built (general : Option (Text → Option (Sql ρ)))
    (fieldBuilders : String → Option (Text → Option (Sql ρ))) (g : SearchExpressionGroup) : Prop where
  kept : ¬Dropped general fieldBuilders g
  fields : ∀ item ∈ g.fields, item.2 ≠ []
  negated : ∀ item ∈ g.notFields, (fieldBuilders item.1).isSome → ∀ value ∈ item.2,
    (item.1, value) ∈ keptNegated fieldBuilders g.notFields

/-- An expression of built groups is searched alike on every row. -/
lemma noDifference_of_built
    (names : ∀ name, (fieldBuilders name).isSome = (fieldValues name).isSome)
    (hbuilt : ∀ g ∈ e.groups, Built general fieldBuilders g) :
    NoDifference T searchText fieldValues general fieldBuilders e := by
  have hknown : ∀ {name : String} {value : Text}, fieldMatches T fieldValues name value = true →
      valuesFor fieldValues name ≠ [] ∧ (fieldBuilders name).isSome := by
    intro name value hmatch
    have hvalues : valuesFor fieldValues name ≠ [] := by
      intro hnil
      unfold fieldMatches at hmatch
      rw [hnil] at hmatch
      cases hmatch
    exact ⟨hvalues, isSome_of_valuesFor names hvalues⟩
  have hover : ¬∃ g ∈ e.groups, Overreaches T searchText fieldValues general fieldBuilders g := by
    rintro ⟨g, hg, haccepts, ⟨item, hitem, value, hvalue, hmatch⟩ | ⟨item, hitem, hnil⟩⟩
    · have hkept := (hbuilt g hg).negated item hitem (hknown hmatch).2 value hvalue
      have hfalse := haccepts.negated _ hkept
      rw [hmatch] at hfalse
      cases hfalse
    · obtain ⟨value, hvalue⟩ := List.exists_mem_of_ne_nil _ ((hbuilt g hg).fields item hitem)
      exact (hknown ((haccepts.fields item hitem).2 value hvalue)).1 hnil
  by_cases hmatch : ∃ g ∈ e.groups, matchesGroup T searchText fieldValues g = true
  · obtain ⟨g, hg, hmatch⟩ := hmatch
    exact .inl ⟨g, hg, hmatch, (hbuilt g hg).kept⟩
  · exact .inr ⟨fun h => absurd h hmatch, fun h => absurd h hover⟩

end Groups

/-- A row with a search text and a client. -/
structure CaseRow where
  text : Text
  client : Text

def CaseRow.fieldValues (row : CaseRow) (name : String) : Option FieldValue :=
  if name = "client" then some (.one row.client) else none

def caseGeneral : Option (Text → Option (Sql CaseRow)) :=
  some (fun term => some (fun row => some (textMatchesQuery asciiSearch row.text term)))

def caseFields (name : String) : Option (Text → Option (Sql CaseRow)) :=
  if name = "client" then
    some (fun value => some (fun row =>
      some (fieldMatches asciiSearch row.fieldValues "client" value)))
  else none

lemma caseBuilders_agree (row : CaseRow) (e : SearchExpression) :
    BuildersAgree asciiSearch row.text row.fieldValues caseGeneral caseFields row e where
  raw _ := rfl
  terms _ _ _ _ := rfl
  names name := by
    unfold caseFields CaseRow.fieldValues
    split <;> rfl
  fields _ _ item _ builder hbuilder value _ := by
    unfold caseFields at hbuilder
    split at hbuilder
    · next hname =>
      cases hbuilder
      rw [hname]
      rfl
    · cases hbuilder

/-- `alpha -client:beta -owner:x` -/
def clientFirst : SearchExpression :=
  ⟨[], [⟨["alpha".toList], [], [], [("client", ["beta".toList]), ("owner", ["x".toList])]⟩]⟩

theorem filter_agrees_clientFirst :
    filterSelects caseGeneral caseFields clientFirst ⟨"alpha".toList, "beta".toList⟩ = true ↔
      matchesSearchExpression asciiSearch "alpha".toList
        (CaseRow.fieldValues ⟨"alpha".toList, "beta".toList⟩) clientFirst = true := by
  have hagree := caseBuilders_agree ⟨"alpha".toList, "beta".toList⟩ clientFirst
  refine (filter_agrees_iff _ _ _ _ _ _ _ hagree).mpr (noDifference_of_built hagree.names ?_)
  intro g hg
  rw [List.mem_singleton.mp hg]
  constructor
  · rintro (⟨term, hterm, _⟩ | ⟨hterms, _⟩)
    · cases hterm
    · cases hterms
  · intro item hitem
    cases hitem
  · decide +kernel

/-- `alpha -owner:x -client:beta` -/
def ownerFirst : SearchExpression :=
  ⟨[], [⟨["alpha".toList], [], [], [("owner", ["x".toList]), ("client", ["beta".toList])]⟩]⟩

/-- The filter selects a row of the client that the expression excludes. -/
theorem filter_selects_excluded :
    BuildersAgree asciiSearch "alpha".toList (CaseRow.fieldValues ⟨"alpha".toList, "beta".toList⟩)
      caseGeneral caseFields ⟨"alpha".toList, "beta".toList⟩ ownerFirst ∧
    filterSelects caseGeneral caseFields ownerFirst ⟨"alpha".toList, "beta".toList⟩ = true ∧
    matchesSearchExpression asciiSearch "alpha".toList
      (CaseRow.fieldValues ⟨"alpha".toList, "beta".toList⟩) ownerFirst = false := by
  refine ⟨caseBuilders_agree ⟨"alpha".toList, "beta".toList⟩ ownerFirst, ?_, ?_⟩
  · decide +kernel
  · decide +kernel

end IpDocket.Search
