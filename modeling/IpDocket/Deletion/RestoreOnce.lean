import IpDocket.Lib.Run
import IpDocket.Deletion.DeleteRestore

/-!
# How often a deletion is restored

`restore_log` reads `restored_at`, commits the row and marks the log in a second transaction.
Any number of sessions call it for one log here, and a session can die at any point. The
constraints of the database keep a second row out if the log fixes a key of its row; what
happens between the two transactions nothing makes up for.
-/

namespace IpDocket.Deletion
open IpDocket.Lib

variable {P : PyTypes}

/-- The row that a restoration writes. -/
inductive Target (P : PyTypes)
  | row (r : Record P)
  | legacy (r : LegacyRow P)

/-- The targets are one row. A legacy row gets a new id each time. -/
def Target.same : Target P → Target P → Bool
  | .row r, .row q => sameRow r q
  | _, _ => false

/-- The targets violate a unique constraint unless they are one row. -/
def Target.clash : Target P → Target P → Bool
  | .row r, .row q => sharesKey r q
  | .legacy r, .legacy q => sharesLegacyKey r q
  | _, _ => false

def Target.InDb (db : Db P) : Target P → Prop
  | .row r => r ∈ db.rows
  | .legacy r => r ∈ db.legacy

def Plan.target (env : RestoreEnv P) (db : Db P) : Plan P → Target P
  | .rows main _ => .row (db.rowOf env main)
  | .legacy r => .legacy r

/-- Where a call of `restore_log` stands: `checked` has read `restored_at` and the preview,
`selected` has read the rows, `committed` has written its row and not yet marked the log. -/
inductive RestorePhase (P : PyTypes)
  | idle
  | checked
  | selected (env : RestoreEnv P) (plan : Plan P)
  | committed (restored : Restored P)

def RestorePhase.isIdle : RestorePhase P → Bool
  | .idle => true
  | _ => false

def RestorePhase.isCommitted : RestorePhase P → Bool
  | .committed _ => true
  | _ => false

/-- `created` is a history variable: the rows that were committed for the log. -/
structure RestoreSystem (P : PyTypes) where
  db : Db P
  log : DeletionLog P
  sessions : List (RestorePhase P)
  created : List (Target P)

def RestoreSystem.start (db : Db P) (log : DeletionLog P) : RestoreSystem P := ⟨db, log, [], []⟩

inductive RestoreAction (P : PyTypes)
  | connect
  | check (i : Nat)
  | select (i : Nat) (env : RestoreEnv P)
  | commit (i : Nat)
  | mark (i : Nat) (actor : Option ℤ) (now : Time)
  | crash (i : Nat)

def RestoreSystem.setPhase (s : RestoreSystem P) (i : Nat) (p : RestorePhase P) : RestoreSystem P :=
  { s with sessions := s.sessions.set i p }

/-- A call that raises leaves its session idle. -/
def restoreStep (s : RestoreSystem P) : RestoreAction P → Option (RestoreSystem P)
  | .connect => some { s with sessions := s.sessions ++ [.idle] }
  | .check i =>
    match s.sessions[i]? with
    | some .idle =>
      if s.log.restoredAt.isSome then some s
      else
        match previewLog s.db s.log with
        | .ok [] => some (s.setPhase i .checked)
        | _ => some s
    | _ => none
  | .select i env =>
    match s.sessions[i]? with
    | some .checked =>
      match restorePlan env s.db s.log with
      | .ok plan => some (s.setPhase i (.selected env plan))
      | .error _ => some (s.setPhase i .idle)
    | _ => none
  | .commit i =>
    match s.sessions[i]? with
    | some (.selected env plan) =>
      match s.db.commitPlan env s.log plan with
      | .ok restored =>
        some { s.setPhase i (.committed restored) with
          db := restored.db
          created := s.created ++ [plan.target env s.db] }
      | .error _ => some (s.setPhase i .idle)
    | _ => none
  | .mark i actor now =>
    match s.sessions[i]? with
    | some (.committed restored) =>
      some { s.setPhase i .idle with log := markRestored s.log restored actor now }
    | _ => none
  | .crash i =>
    match s.sessions[i]? with
    | some _ => some (s.setPhase i .idle)
    | none => none

/-- A session that runs alone does what `restoreLog` does. -/
lemma run_restoreLog {env : RestoreEnv P} {db : Db P} {log log' : DeletionLog P} {actor : Option ℤ}
    {now : Time} {restored : Restored P}
    (h : restoreLog env db log actor now = .ok (restored, log')) :
    ∃ t, Run restoreStep ⟨db, log, [.idle], []⟩
      [.check 0, .select 0 env, .commit 0, .mark 0 actor now]
      ⟨restored.db, log', [.idle], [t]⟩ := by
  unfold restoreLog at h
  obtain ⟨restored', hrows, hlog⟩ := except_bind_eq_ok.mp h
  cases hlog
  unfold restoreRows at hrows
  split at hrows
  · cases hrows
  next hopen =>
  obtain ⟨blockers, hpreview, hrows⟩ := except_bind_eq_ok.mp hrows
  cases blockers with
  | cons b blockers => cases hrows
  | nil =>
    obtain ⟨plan, hplan, hcommit⟩ := except_bind_eq_ok.mp hrows
    refine ⟨plan.target env db, ?_⟩
    refine .cons (t := ⟨db, log, [.checked], []⟩) trivial ?_ ?_
    · simp [restoreStep, hopen, hpreview, RestoreSystem.setPhase]
    refine .cons (t := ⟨db, log, [.selected env plan], []⟩) trivial ?_ ?_
    · simp [restoreStep, hplan, RestoreSystem.setPhase]
    refine .cons (t := ⟨restored.db, log, [.committed restored], [plan.target env db]⟩) trivial ?_ ?_
    · simp [restoreStep, hcommit, RestoreSystem.setPhase]
    refine .cons trivial ?_ (.nil _)
    simp [restoreStep, RestoreSystem.setPhase]

lemma Db.save_spec {env : RestoreEnv P} {db db' : Db P} {w : Write P} {row : Record P}
    (h : db.save env w = .ok (db', row)) :
    (∀ q ∈ db.rows, sharesKey (db.rowOf env w) q → sameRow (db.rowOf env w) q) ∧
    (db.rowOf env w) ∈ db'.rows ∧ db'.legacy = db.legacy ∧
    ∀ q ∈ db.rows, q.model ≠ w.object.model → q ∈ db'.rows := by
  have hmodel := model_rowOf env db w
  unfold Db.save at h
  dsimp only at h
  split at h
  · split at h
    · split at h
      · cases h
      next hunique =>
      have hkeys : ∀ q ∈ db.rows, sharesKey (db.rowOf env w) q → sameRow (db.rowOf env w) q := by
        intro q hq hshares
        by_contra hsame
        apply hunique
        rw [List.any_eq_true]
        exact ⟨q, hq, by simp [hshares, hsame]⟩
      refine ⟨hkeys, ?_⟩
      split at h
      · split at h
        · cases h
        next hany =>
        cases h
        simp only [Bool.not_eq_true, Bool.not_eq_false', List.any_eq_true] at hany
        obtain ⟨q, hq, hsame⟩ := hany
        refine ⟨List.mem_map.mpr ⟨q, hq, if_pos hsame⟩, rfl, ?_⟩
        intro q hq hne
        refine List.mem_map.mpr ⟨q, hq, if_neg ?_⟩
        intro hrow
        unfold sameRow at hrow
        rw [Bool.and_eq_true, decide_eq_true_eq, hmodel] at hrow
        exact hne hrow.1.symm
      · split at h
        · cases h
        · cases h
          refine ⟨List.mem_append_right _ (List.mem_singleton.mpr rfl), rfl, ?_⟩
          intro q hq _
          exact List.mem_append_left _ hq
    · cases h
  · cases h

lemma saveChildren_spec {env : RestoreEnv P} {m : Model} {ws : List (Write P)}
    (hws : ∀ w ∈ ws, w.object.model ≠ m) {db db' : Db P} (h : db.saveChildren env ws = .ok db')
    {q : Record P} (hq : q ∈ db.rows) (hm : q.model = m) : q ∈ db'.rows := by
  unfold Db.saveChildren at h
  induction ws generalizing db with
  | nil =>
    cases h
    exact hq
  | cons w ws ih =>
    rw [List.foldlM_cons] at h
    obtain ⟨db₁, hsave, hrest⟩ := except_bind_eq_ok.mp h
    cases hrun : db.save env w with
    | error e =>
      rw [hrun] at hsave
      cases hsave
    | ok saved =>
      rw [hrun] at hsave
      cases hsave
      apply ih (fun w hw => hws w (List.mem_cons_of_mem _ hw)) hrest
      exact (Db.save_spec hrun).2.2.2 q hq (fun heq => hws w List.mem_cons_self (heq.symm.trans hm))

/-- The children of a plan are of other models. -/
lemma restorePlan_children {env : RestoreEnv P} {db : Db P} {log : DeletionLog P} {main : Write P}
    {children : List (Write P)} (h : restorePlan env db log = .ok (.rows main children)) :
    ∀ w ∈ children, w.object.model ≠ main.object.model := by
  have hsingle : ∀ {x : Write P}, .ok (Plan.rows x []) = (.ok (.rows main children) :
      Except RestoreError (Plan P)) → ∀ w ∈ children, w.object.model ≠ main.object.model := by
    intro x hx w hw
    cases hx
    cases hw
  have hamong : ∀ models, restoreAmong db models log = .ok (.rows main children) →
      ∀ w ∈ children, w.object.model ≠ main.object.model := by
    intro models hx
    unfold restoreAmong at hx
    split at hx
    · split at hx
      · exact hsingle hx
      · cases hx
    · cases hx
  have hbilling : restoreBilling db log = .ok (.rows main children) →
      ∀ w ∈ children, w.object.model ≠ main.object.model := by
    intro hx w hw
    unfold restoreBilling at hx
    dsimp only at hx
    split at hx
    · cases hx
    next m _ =>
    cases hx
    rw [model_upsertFromPayload]
    cases m with
    | legacyInvoice =>
      rw [model_restoreChildRows hw]
      decide
    | legacyExpense =>
      obtain hw | hw := List.mem_append.mp hw
      · rw [model_restoreChildRows hw]
        decide
      · rw [model_restoreChildRows hw]
        decide
    | _ => cases hw
  unfold restorePlan at h
  split at h
  · unfold restoreDeadline at h
    dsimp only at h
    split at h
    · exact hsingle h
    · split at h <;> cases h
  · unfold restoreRenewal at h
    dsimp only at h
    split at h
    · split at h
      · cases h
      · exact hsingle h
    · split at h
      · cases h
      · split at h <;> cases h
  · unfold restoreWorkflow at h
    split at h
    · exact hsingle h
    · cases h
  · exact hamong _ h
  · exact hamong _ h
  · exact hbilling h
  · exact hbilling h
  · exact hbilling h
  · exact hbilling h
  · cases h

/-- A commit that succeeds leaves its row in the database, and a row in its way is the row
itself. -/
lemma commitPlan_spec {env : RestoreEnv P} {db db₁ : Db P} {log log' : DeletionLog P} {plan : Plan P}
    {restored : Restored P} (hplan : restorePlan env db₁ log = .ok plan)
    (h : db.commitPlan env log' plan = .ok restored) :
    (plan.target env db).InDb restored.db ∧
    ∀ q : Target P, q.InDb db → (plan.target env db).same q ∨ (plan.target env db).clash q →
      (plan.target env db).same q := by
  cases plan with
  | legacy r =>
    unfold Db.commitPlan at h
    dsimp only at h
    cases hsave : db.saveLegacy r with
    | error e =>
      rw [hsave] at h
      cases h
    | ok db' =>
      rw [hsave] at h
      cases h
      unfold Db.saveLegacy at hsave
      split at hsave
      · cases hsave
      next hfree =>
      cases hsave
      refine ⟨List.mem_append_right _ (List.mem_singleton.mpr rfl), ?_⟩
      intro q hq hor
      obtain hsame | hclash := hor
      · exact hsame
      · cases q with
        | row q => cases hclash
        | legacy q =>
          apply absurd _ hfree
          rw [List.any_eq_true]
          exact ⟨q, hq, hclash⟩
  | rows main children =>
    have hchildren := restorePlan_children hplan
    unfold Db.commitPlan at h
    dsimp only at h
    obtain ⟨⟨db', row⟩, hsave, hrest⟩ := except_bind_eq_ok.mp h
    obtain ⟨db'', hkids, hend⟩ := except_bind_eq_ok.mp hrest
    cases hend
    obtain ⟨hkeys, hmem, _, _⟩ := Db.save_spec hsave
    constructor
    · exact saveChildren_spec hchildren hkids hmem (model_rowOf env db main)
    · intro q hq hor
      obtain hsame | hclash := hor
      · exact hsame
      · cases q with
        | row q => exact hkeys q hq hclash
        | legacy q => cases hclash

/-- The rows that restorations of the log can write, whatever they read. -/
def Writes (log : DeletionLog P) (t : Target P) : Prop :=
  ∃ env db₁ db plan, restorePlan env db₁ log = .ok plan ∧ t = plan.target env db

/-- Any two restorations of the log write one row, or the database keeps one of them out. -/
def KeyFixed (log : DeletionLog P) : Prop :=
  ∀ t t', Writes log t → Writes log t' → t.same t' ∨ t.clash t'

lemma sameValue_symm {v w : Val P} (h : sameValue v w = true) : sameValue w v = true := by
  cases v <;> cases w <;> simp_all [sameValue]

lemma sameValue_trans {v w x : Val P} (h : sameValue v w = true) (h' : sameValue w x = true) :
    sameValue v x = true := by
  cases v <;> cases w <;> cases x <;> simp_all [sameValue]

lemma Target.same_symm {t t' : Target P} (h : t.same t' = true) : t'.same t = true := by
  cases t <;> cases t' <;> try cases h
  unfold Target.same sameRow at *
  rw [Bool.and_eq_true, decide_eq_true_eq] at *
  exact ⟨h.1.symm, sameValue_symm h.2⟩

lemma Target.same_trans {t t' t'' : Target P} (h : t.same t' = true) (h' : t'.same t'' = true) :
    t.same t'' = true := by
  cases t <;> cases t' <;> cases t'' <;> first | cases h | cases h' | skip
  unfold Target.same sameRow at *
  rw [Bool.and_eq_true, decide_eq_true_eq] at *
  exact ⟨h.1.trans h'.1, sameValue_trans h.2 h'.2⟩

/-- Every plan of the log writes a row of the model with these cells. -/
def PlansCells (log : DeletionLog P) (m : Model) (names : List String) (v : String → Val P) : Prop :=
  ∀ env db plan, restorePlan env db log = .ok plan → ∃ w children, plan = .rows w children ∧
    w.object.model = m ∧ ∀ n ∈ names, w.object.cells n = v n

lemma PlansCells.writes {log : DeletionLog P} {m : Model} {names : List String} {v : String → Val P}
    (h : PlansCells log m names v) (hv : ∀ n ∈ names, sameValue (v n) (v n) = true) {t : Target P}
    (ht : Writes log t) : ∃ r, t = .row r ∧ r.model = m ∧ ∀ n ∈ names, r.cells n = v n := by
  obtain ⟨env, db₁, db, plan, hplan, rfl⟩ := ht
  obtain ⟨w, children, rfl, hm, hcells⟩ := h env db₁ plan hplan
  refine ⟨_, rfl, (model_rowOf env db w).trans hm, ?_⟩
  intro n hn
  have hne : w.object.cells n ≠ .null := by
    intro hnull
    have hsame := hv n hn
    rw [← hcells n hn, hnull] at hsame
    cases hsame
  have hplain : w.Plain n := by
    apply plain_of_not_bool
    intro b hbool
    have hsame := hv n hn
    rw [← hcells n hn, hbool] at hsame
    cases hsame
  rw [cells_rowOf_of_ne_null env db hplain hne]
  exact hcells n hn

/-- The primary key is fixed. -/
lemma PlansCells.keyFixed_pk {log : DeletionLog P} {m : Model} {v : Val P}
    (h : PlansCells log m [m.pk] (fun _ => v)) (hv : sameValue v v = true) : KeyFixed log := by
  intro t t' ht ht'
  obtain ⟨r, rfl, hr, hpk⟩ := h.writes (fun _ _ => hv) ht
  obtain ⟨q, rfl, hq, hpk'⟩ := h.writes (fun _ _ => hv) ht'
  left
  change sameRow r q = true
  unfold sameRow Record.pkValue
  rw [hr, hq, hpk _ List.mem_cons_self, hpk' _ List.mem_cons_self, hv]
  simp

/-- The columns of a unique constraint are fixed. -/
lemma PlansCells.keyFixed_unique {log : DeletionLog P} {m : Model} {key : List String}
    {v : String → Val P} (h : PlansCells log m key v) (hkey : key ∈ uniqueKeys m)
    (hv : ∀ n ∈ key, sameValue (v n) (v n) = true) : KeyFixed log := by
  intro t t' ht ht'
  obtain ⟨r, rfl, hr, hcells⟩ := h.writes hv ht
  obtain ⟨q, rfl, hq, hcells'⟩ := h.writes hv ht'
  right
  change sharesKey r q = true
  have hany : (uniqueKeys r.model).any (fun key => key.all (fun name =>
      sameValue (r.cells name) (q.cells name))) = true := by
    rw [hr, List.any_eq_true]
    refine ⟨key, hkey, ?_⟩
    rw [List.all_eq_true]
    intro n hn
    rw [hcells n hn, hcells' n hn]
    exact hv n hn
  unfold sharesKey
  rw [hany, hr, hq]
  simp

lemma sameValue_str_iff {v : Val P} {t : Text} : sameValue v (.str t) = true ↔ v = .str t := by
  cases v <;> simp [sameValue]

/-- The log of a docket fixes its row if it has the id. -/
lemma keyFixed_docket {log : DeletionLog P} (htype : log.entityType = .deadline)
    (hid : truthy (log.payload.get "docket_id") = true) : KeyFixed log := by
  have hstr : ∀ t, strOr (log.payload.get "docket_id") t =
      pyStrVal (ofJson (log.payload.get "docket_id")) := fun t => if_pos hid
  have hplans : PlansCells log .docketItem [Model.docketItem.pk]
      (fun _ => .str (pyStrVal (ofJson (log.payload.get "docket_id")))) := by
    intro env db plan hplan
    unfold restorePlan at hplan
    rw [htype] at hplan
    dsimp only at hplan
    unfold restoreDeadline at hplan
    dsimp only at hplan
    rw [hid, Bool.true_or, if_pos rfl, hstr] at hplan
    generalize pyStrVal (ofJson (log.payload.get "docket_id")) = id at hplan
    generalize hfound : db.get .docketItem (.str id) = found at hplan
    cases hplan
    refine ⟨_, _, rfl, ?_, ?_⟩
    · rw [Record.model_setAll, model_clearSoftDeleteFields]
      cases found with
      | none => rfl
      | some q => exact (Db.get_spec hfound).2.1
    · intro n hn
      rw [List.mem_singleton.mp hn]
      change (assigned (found.getD ((newObject .docketItem).set "docket_id" (.str id)))
        (docketAssignments env db log)).cells "docket_id" = .str id
      rw [cells_assigned_of_notMem (by rw [names_docketAssignments]; decide) (by decide)]
      cases found with
      | none => rfl
      | some q =>
        obtain ⟨_, hm, hsame⟩ := Db.get_spec hfound
        unfold Record.pkValue at hsame
        rw [hm] at hsame
        exact sameValue_str_iff.mp hsame
  exact hplans.keyFixed_pk (by simp [sameValue])

/-- The log of an annuity fixes the matter and the cycle. -/
lemma keyFixed_renewal {log : DeletionLog P} (htype : log.entityType = .renewal)
    (hid : (truthy (log.payload.get "annuity_id") || truthy (log.payload.get "matter_id")) = true) :
    KeyFixed log := by
  have hplans : PlansCells log .annuityItem ["matter_id", "cycle_no"] (fun n =>
      if n = "matter_id" then .str (strOr (log.payload.get "matter_id") [])
      else .int ((coerceInt (orElse (log.payload.get "cycle_no") (log.payload.get "year"))).getD 0)) := by
    intro env db plan hplan
    unfold restorePlan at hplan
    rw [htype] at hplan
    dsimp only at hplan
    unfold restoreRenewal at hplan
    dsimp only at hplan
    rw [hid, if_pos rfl] at hplan
    split at hplan
    · cases hplan
    generalize hfound : db.annuity _ _ _ = found at hplan
    cases hplan
    refine ⟨_, _, rfl, ?_, ?_⟩
    · rw [Record.model_setAll, model_clearSoftDeleteFields]
      cases found with
      | none => rfl
      | some q => exact (Db.annuity_spec hfound).2
    · intro n hn
      simp only [List.mem_cons, List.not_mem_nil, or_false] at hn
      obtain rfl | rfl := hn
      · exact cells_assigned (by rw [names_annuityAssignments]; decide) (by simp [annuityAssignments])
      · exact cells_assigned (by rw [names_annuityAssignments]; decide) (by simp [annuityAssignments])
  apply hplans.keyFixed_unique (by decide)
  intro n hn
  simp only [List.mem_cons, List.not_mem_nil, or_false] at hn
  obtain rfl | rfl := hn <;> simp [sameValue]

/-- The log of a workflow fixes its row if it has a business code. -/
lemma keyFixed_workflow {log : DeletionLog P} (htype : log.entityType = .workflow) {code : Text}
    (hcode : log.payload.get "business_code" = .str code) : KeyFixed log := by
  have hplans : PlansCells log .workflow ["business_code"] (fun _ => .str code) := by
    intro env db plan hplan
    unfold restorePlan at hplan
    rw [htype] at hplan
    dsimp only at hplan
    unfold restoreWorkflow at hplan
    split at hplan
    · cases hplan
      refine ⟨_, _, rfl, Record.model_setAll _ _, ?_⟩
      intro n hn
      rw [List.mem_singleton.mp hn]
      apply Record.cells_setAll_of_mem
      · rw [names_workflowValues]
        decide
      · simp [workflowValues, hcode, ofJson]
    · cases hplan
  exact hplans.keyFixed_unique (by decide) (by simp [sameValue])

lemma keyFixed_columns {db₀ : List (Record P)} {r : Row P} (hm : ByColumns r.model)
    (hpk : r.pkValue ≠ .str []) : KeyFixed (buildLog db₀ r.toRecord) := by
  obtain ⟨c, hc, hname, htype, hnull⟩ := pk_mem r.model
  have hplain : ∀ m : Model, m.pk ∉ softDeleteNames ∧ m.archiveColumnType ≠ .date ∧
      m.archiveColumnType ≠ .datetime := by decide +kernel
  obtain ⟨hsoft, hdate, htime⟩ := hplain r.model
  have hholds : c.type.Holds r.pkValue := Row.holdsAt rfl ⟨c, hc, hname, rfl⟩
  have hne : r.pkValue ≠ .null := Row.notNullAt rfl ⟨c, hc, hname, hnull⟩
  have hplans : PlansCells (buildLog db₀ r.toRecord) r.model [r.model.pk] (fun _ => r.pkValue) := by
    intro env db plan hplan
    obtain ⟨children, hcolumns, _⟩ : ∃ children,
        restorePlan env db (buildLog db₀ r.toRecord) = .ok (.rows _ children) ∧ _ :=
      restorePlan_columns hm
    rw [hcolumns] at hplan
    cases hplan
    refine ⟨_, _, rfl, model_upsertFromPayload _ _ _, ?_⟩
    intro n hn
    rw [List.mem_singleton.mp hn, ← hname, cells_columns (hasColumns_buildLog db₀ r) rfl hc (hname ▸ hsoft),
      hname]
    exact assignValue_jsonSafe hholds (htype ▸ hdate) (htype ▸ htime) hpk
  apply hplans.keyFixed_pk
  obtain h | h := archiveColumnType_cases r.model
  · rw [htype, h] at hholds
    obtain hv | ⟨t, hv⟩ := holds_text_cases hholds
    · exact absurd hv hne
    · rw [hv]
      simp [sameValue]
  · rw [htype, h] at hholds
    cases hv : r.pkValue with
    | null => exact absurd hv hne
    | int n => simp [sameValue]
    | _ =>
      rw [hv] at hholds
      cases hholds

/-- Of the logs that the archive writes, only those of a workflow without a business code and of
a row with an empty key leave the row open. -/
lemma keyFixed_buildLog (db₀ : List (Record P)) (r : Row P) (hpk : r.pkValue ≠ .str [])
    (hcode : r.model = .workflow → r.cells "business_code" ≠ .null) :
    KeyFixed (buildLog db₀ r.toRecord) := by
  have htype : (buildLog db₀ r.toRecord).entityType = entityTypeForObject r.model := rfl
  have htruthy : ∀ {m : Model} {n : String}, r.model = m → m.pk = n →
      (∃ c ∈ m.columns, c.name = n ∧ c.type = .text) →
      (∃ c ∈ m.columns, c.name = n ∧ c.nullable = false) →
      truthy ((buildLog db₀ r.toRecord).payload.get n) = true := by
    intro m n hm hn htext hnull
    have hholds : ColumnType.text.Holds (r.cells n) := Row.holdsAt hm htext
    obtain ⟨c, hc, hname, _⟩ := htext
    rw [get_column hm ⟨c, hc, hname⟩, truthy_jsonSafe_text hholds]
    unfold Record.pkValue at hpk
    rw [hm, hn] at hpk
    obtain hv | ⟨t, hv⟩ := holds_text_cases hholds
    · exact absurd hv (Row.notNullAt hm hnull)
    · rw [hv] at hpk ⊢
      cases t with
      | nil => exact absurd rfl hpk
      | cons c t => exact ⟨c, t, rfl⟩
  cases hm : r.model with
  | docketItem =>
    rw [hm] at htype
    exact keyFixed_docket htype (htruthy hm rfl (by decide) (by decide))
  | annuityItem =>
    rw [hm] at htype
    have hid : truthy ((buildLog db₀ r.toRecord).payload.get "annuity_id") = true :=
      htruthy hm rfl (by decide) (by decide)
    apply keyFixed_renewal htype
    rw [hid, Bool.true_or]
  | workflow =>
    rw [hm] at htype
    have hstring : (ColumnType.string 50).Holds (r.cells "business_code") := Row.holdsAt hm (by decide)
    obtain hv | ⟨t, hv⟩ := holds_text_cases (holds_text_of_string hstring)
    · exact absurd hv (hcode hm)
    · have hget : (buildLog db₀ r.toRecord).payload.get "business_code" = .str t := by
        rw [get_column hm (by decide), hv]
        rfl
      exact keyFixed_workflow htype hget
  | _ =>
    apply keyFixed_columns _ hpk
    rw [hm]
    decide

/-! ### At most once -/

/-- The rows that were committed for the log are one row. -/
def RestoreSystem.AtMostOneRow (s : RestoreSystem P) : Prop :=
  s.created.Pairwise (fun t t' => t.same t' = true)

/-- No call is in progress. -/
def RestoreSystem.Quiescent (s : RestoreSystem P) : Prop := ∀ p ∈ s.sessions, p.isIdle = true

/-- A session that dies is not between its two commits. -/
def marksAfterCommit (s : RestoreSystem P) : RestoreAction P → Prop
  | .crash i => (s.sessions[i]?).all (fun p => !p.isCommitted) = true
  | _ => True

instance (s : RestoreSystem P) (a : RestoreAction P) : Decidable (marksAfterCommit s a) :=
  match a with
  | .crash i => inferInstanceAs (Decidable ((s.sessions[i]?).all (fun p => !p.isCommitted) = true))
  | .connect | .check _ | .select _ _ | .commit _ | .mark _ _ _ => inferInstanceAs (Decidable True)

/-- A row that was committed is in the database, and all that were committed are this row;
until the log is marked, the session that will mark it is there. -/
structure RestoreInv (s : RestoreSystem P) : Prop where
  fixed : KeyFixed s.log
  selected : ∀ (i : Nat) env plan, s.sessions[i]? = some (.selected env plan) →
    ∃ db, restorePlan env db s.log = .ok plan
  stored : s.created ≠ [] → ∃ q, Writes s.log q ∧ q.InDb s.db ∧
    ((∀ t ∈ s.created, t.same q = true) ∨ s.created = [q])
  one : s.AtMostOneRow
  marked : s.created ≠ [] → s.log.restoredAt.isSome ∨
    ∃ (i : Nat) (p : RestorePhase P), s.sessions[i]? = some p ∧ p.isCommitted = true

/-- A step that changes only the sessions keeps the invariant if it selects nothing new and does
not lose a session that will mark the log. -/
lemma RestoreInv.sessions {s : RestoreSystem P} (h : RestoreInv s) {sessions : List (RestorePhase P)}
    (hselected : ∀ (i : Nat) env plan, sessions[i]? = some (.selected env plan) →
      ∃ db, restorePlan env db s.log = .ok plan)
    (hmarked : ∀ (i : Nat) p, s.sessions[i]? = some p → p.isCommitted = true →
      sessions[i]? = some p) : RestoreInv { s with sessions := sessions } where
  fixed := h.fixed
  selected := hselected
  stored := h.stored
  one := h.one
  marked hne := by
    obtain hlog | ⟨i, p, hp, hcommitted⟩ := h.marked hne
    · exact .inl hlog
    · exact .inr ⟨i, p, hmarked i p hp hcommitted, hcommitted⟩

/-- The phase of one session is set. -/
lemma RestoreInv.setPhase {s : RestoreSystem P} (h : RestoreInv s) {i : Nat} {p p' : RestorePhase P}
    (hp : s.sessions[i]? = some p) (hcommitted : p.isCommitted = false)
    (hselected : ∀ env plan, p' = .selected env plan →
      ∃ db, restorePlan env db s.log = .ok plan) : RestoreInv (s.setPhase i p') := by
  apply h.sessions
  · intro j env plan hj
    obtain ⟨_, heq⟩ | ⟨_, hold⟩ := getElem?_set_cases hj
    · exact hselected env plan heq.symm
    · exact h.selected j env plan hold
  · intro j q hq hc
    have hne : i ≠ j := by
      rintro rfl
      rw [hp] at hq
      cases hq
      rw [hcommitted] at hc
      cases hc
    rw [List.getElem?_set_ne hne]
    exact hq

/-- A commit writes the row that is already there. -/
lemma RestoreInv.commit {s : RestoreSystem P} (h : RestoreInv s) {i : Nat} {env : RestoreEnv P}
    {plan : Plan P} {restored : Restored P} (hp : s.sessions[i]? = some (.selected env plan))
    (hcommit : s.db.commitPlan env s.log plan = .ok restored) :
    RestoreInv { s.setPhase i (.committed restored) with
      db := restored.db
      created := s.created ++ [plan.target env s.db] } := by
  obtain ⟨db₁, hplan⟩ := h.selected i env plan hp
  obtain ⟨hmem, hway⟩ := commitPlan_spec hplan hcommit
  have hwrites : Writes s.log (plan.target env s.db) := ⟨env, db₁, s.db, plan, hplan, rfl⟩
  generalize plan.target env s.db = t at hmem hway hwrites
  -- what was committed before is the row that this commit writes
  have hsame : ∀ x ∈ s.created, x.same t = true := by
    intro x hx
    obtain ⟨q, hq, hin, hall⟩ := h.stored (List.ne_nil_of_mem hx)
    have htq : t.same q = true := hway q hin (h.fixed t q hwrites hq)
    obtain hall | hall := hall
    · exact Target.same_trans (hall x hx) (Target.same_symm htq)
    · rw [hall, List.mem_singleton] at hx
      rw [hx]
      exact Target.same_symm htq
  constructor
  · exact h.fixed
  · intro j env' plan' hj
    obtain ⟨_, heq⟩ | ⟨_, hold⟩ := getElem?_set_cases hj
    · cases heq
    · exact h.selected j env' plan' hold
  · intro _
    refine ⟨t, hwrites, hmem, ?_⟩
    by_cases hnil : s.created = []
    · right
      change s.created ++ [t] = [t]
      rw [hnil]
      rfl
    · left
      intro x hx
      obtain hx | hx := List.mem_append.mp hx
      · exact hsame x hx
      · rw [List.mem_singleton.mp hx]
        obtain ⟨y, hy⟩ := List.exists_mem_of_ne_nil _ hnil
        exact Target.same_trans (Target.same_symm (hsame y hy)) (hsame y hy)
  · unfold RestoreSystem.AtMostOneRow
    rw [List.pairwise_append]
    refine ⟨h.one, List.pairwise_singleton _ _, ?_⟩
    intro x hx y hy
    rw [List.mem_singleton.mp hy]
    exact hsame x hx
  · intro _
    refine .inr ⟨i, .committed restored, ?_, rfl⟩
    exact List.getElem?_set_self (List.getElem?_eq_some_iff.mp hp).1

lemma restoreInv_step (s : RestoreSystem P) (a : RestoreAction P) (s' : RestoreSystem P)
    (h : RestoreInv s) (hguard : marksAfterCommit s a) (hstep : restoreStep s a = some s') :
    RestoreInv s' := by
  cases a with
  | connect =>
    cases hstep
    apply h.sessions
    · intro i env plan hi
      obtain ⟨_, heq⟩ | hold := getElem?_concat_cases hi
      · cases heq
      · exact h.selected i env plan hold
    · intro i p hi _
      exact List.getElem?_append_left (List.getElem?_eq_some_iff.mp hi).1 |>.trans hi
  | check i =>
    unfold restoreStep at hstep
    dsimp only at hstep
    split at hstep
    · next hp =>
      split at hstep
      · cases hstep
        exact h
      · split at hstep
        · cases hstep
          exact h.setPhase hp rfl nofun
        · cases hstep
          exact h
    · cases hstep
  | select i env =>
    unfold restoreStep at hstep
    dsimp only at hstep
    split at hstep
    · next hp =>
      split at hstep
      · next plan hplan =>
        cases hstep
        apply h.setPhase hp rfl
        intro env' plan' heq
        cases heq
        exact ⟨s.db, hplan⟩
      · cases hstep
        exact h.setPhase hp rfl nofun
    · cases hstep
  | commit i =>
    unfold restoreStep at hstep
    dsimp only at hstep
    split at hstep
    · next env plan hp =>
      split at hstep
      · next restored hcommit =>
        cases hstep
        exact h.commit hp hcommit
      · cases hstep
        exact h.setPhase hp rfl nofun
    · cases hstep
  | mark i actor now =>
    unfold restoreStep at hstep
    dsimp only at hstep
    split at hstep
    · next restored hp =>
      cases hstep
      constructor
      · exact h.fixed
      · intro j env plan hj
        obtain ⟨_, heq⟩ | ⟨_, hold⟩ := getElem?_set_cases hj
        · cases heq
        · exact h.selected j env plan hold
      · exact h.stored
      · exact h.one
      · intro _
        exact .inl rfl
    · cases hstep
  | crash i =>
    unfold restoreStep at hstep
    dsimp only at hstep
    split at hstep
    · next p hp =>
      cases hstep
      apply h.setPhase hp
      · change (s.sessions[i]?).all (fun p => !p.isCommitted) = true at hguard
        rw [hp, Option.all_some, Bool.not_eq_true'] at hguard
        exact hguard
      · nofun
    · cases hstep

/-- If the log fixes its row and no session dies between its two commits, then at most one row is
restored and the log is marked when all calls have ended. -/
theorem restored_at_most_once (db : Db P) (log : DeletionLog P) (hlog : KeyFixed log)
    (as : List (RestoreAction P)) (s : RestoreSystem P)
    (hrun : GuardedRun restoreStep marksAfterCommit (.start db log) as s) :
    s.AtMostOneRow ∧ (s.Quiescent → s.created ≠ [] → s.log.restoredAt.isSome) := by
  have hinv : RestoreInv s := by
    apply hrun.invariant _ restoreInv_step
    exact ⟨hlog, nofun, fun h => absurd rfl h, List.Pairwise.nil, fun h => absurd rfl h⟩
  refine ⟨hinv.one, ?_⟩
  intro hquiet hne
  obtain h | ⟨i, p, hp, hcommitted⟩ := hinv.marked hne
  · exact h
  · have hidle := hquiet p (List.mem_of_getElem? hp)
    cases p with
    | committed restored => cases hidle
    | _ => cases hcommitted

/-- Two sessions restore the annuity at once; the insert of the second is refused. -/
theorem restored_at_most_once_annuity :
    ∃ s, GuardedRun restoreStep marksAfterCommit
      (.start oneMatter (buildLog [] (annuityRow (some 300)).toRecord))
      [.connect, .connect, .check 0, .check 1, .select 0 plainEnv, .select 1 plainEnv, .commit 0,
        .commit 1, .mark 0 none 0] s ∧
      s.created.length = 1 ∧ s.AtMostOneRow ∧ s.log.restoredAt.isSome := by
  obtain ⟨s, hrun, hs⟩ := exists_guardedRun_of_any restoreStep marksAfterCommit
    (.start oneMatter (buildLog [] (annuityRow (some 300)).toRecord))
    [.connect, .connect, .check 0, .check 1, .select 0 plainEnv, .select 1 plainEnv, .commit 0,
      .commit 1, .mark 0 none 0]
    (fun s => s.created.length = 1 ∧ s.sessions.all RestorePhase.isIdle) (by decide +kernel)
  obtain ⟨hlength, hidle⟩ := of_decide_eq_true hs
  have hfixed : KeyFixed (buildLog [] (annuityRow (some 300)).toRecord) :=
    keyFixed_buildLog [] _ nofun nofun
  obtain ⟨hone, hmarked⟩ := restored_at_most_once _ _ hfixed _ s hrun
  refine ⟨s, hrun, hlength, hone, hmarked (List.all_eq_true.mp hidle) ?_⟩
  intro hnil
  rw [hnil] at hlength
  cases hlength

instance (s : RestoreSystem P) : Decidable s.AtMostOneRow :=
  inferInstanceAs (Decidable (s.created.Pairwise (fun t t' => t.same t' = true)))

/-- A workflow without a business code. -/
def workflowRow : Row plainTypes where
  model := .workflow
  cells name :=
    if name = "id" then .int 7
    else if name = "case_id" then .str "M1".toList
    else if name = "name" then .str "Draft".toList
    else if name = "status" then .str "Pending".toList
    else .null
  holds c hc := by
    have hplain : ∀ c ∈ Model.workflow.columns,
        (c.name = "id" → c.type = .integer) ∧ (c.name = "case_id" → c.type = .text) ∧
        (c.name = "name" → c.type = .string 100) ∧ (c.name = "status" → c.type = .string 20) := by
      decide
    obtain ⟨h1, h2, h3, h4⟩ := hplain c hc
    split_ifs with hid hcase hname hstatus
    · rw [h1 hid]
      trivial
    · rw [h2 hcase]
      trivial
    · rw [h3 hname]
      decide
    · rw [h4 hstatus]
      decide
    · cases c.type <;> trivial
  notNull c hc hnull := by
    have hnames : ∀ c ∈ Model.workflow.columns, c.nullable = false → c.name = "id" ∨ c.name = "name" := by
      decide
    obtain h | h := hnames c hc hnull <;> rw [h] <;> simp

/-- A session that dies between its commits leaves the log unmarked, and two sessions at once
restore a workflow twice. -/
theorem restored_unmarked_and_twice :
    (∃ s, Run restoreStep (.start oneMatter (buildLog [] workflowRow.toRecord))
      [.connect, .check 0, .select 0 plainEnv, .commit 0, .crash 0] s ∧
      s.Quiescent ∧ s.created ≠ [] ∧ s.log.restoredAt = none) ∧
    ∃ s, Run restoreStep (.start oneMatter (buildLog [] workflowRow.toRecord))
      [.connect, .connect, .check 0, .check 1, .select 0 plainEnv, .select 1 plainEnv, .commit 0,
        .commit 1, .mark 0 none 0, .mark 1 none 0] s ∧ ¬s.AtMostOneRow := by
  constructor
  · obtain ⟨s, hrun, hs⟩ := exists_guardedRun_of_any restoreStep (fun _ _ => True)
      (.start oneMatter (buildLog [] workflowRow.toRecord))
      [.connect, .check 0, .select 0 plainEnv, .commit 0, .crash 0]
      (fun s => s.sessions.all RestorePhase.isIdle ∧ s.created.length = 1 ∧ s.log.restoredAt = none)
      (by decide +kernel)
    obtain ⟨hidle, hlength, hlog⟩ := of_decide_eq_true hs
    refine ⟨s, hrun, List.all_eq_true.mp hidle, ?_, hlog⟩
    intro hnil
    rw [hnil] at hlength
    cases hlength
  · obtain ⟨s, hrun, hs⟩ := exists_guardedRun_of_any restoreStep (fun _ _ => True)
      (.start oneMatter (buildLog [] workflowRow.toRecord))
      [.connect, .connect, .check 0, .check 1, .select 0 plainEnv, .select 1 plainEnv, .commit 0,
        .commit 1, .mark 0 none 0, .mark 1 none 0]
      (fun s => ¬s.AtMostOneRow) (by decide +kernel)
    exact ⟨s, hrun, of_decide_eq_true hs⟩

end IpDocket.Deletion
