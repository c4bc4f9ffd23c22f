import IpDocket.Clients.MergeReferences

/-!
# What a merge moves

Each branch of `_merge_invoice_side` moves the rows of some billing clients to one billing client: with
unified clients those of all sources, as far as the steps get, otherwise those of the billing clients that
are found for the sources.
-/

namespace IpDocket.Clients
open IpDocket.Lib

section Moves

variable {C : Type} {env : MergeEnv C} {ids : List Nat} {tgt c i : Nat}

/-- The client of a row after an `UPDATE` of the rows of `ids`. -/
def movedTo (ids : List Nat) (tgt c : Nat) : Nat := if c ∈ ids then tgt else c

lemma movedTo_eq_iff (hne : ∀ c ∈ ids, tgt ≠ i) : movedTo ids tgt c = i ↔ c = i ∧ i ∉ ids := by
  unfold movedTo
  split
  · next hc =>
    constructor
    · intro h
      exact absurd h (hne c hc)
    · rintro ⟨rfl, hnot⟩
      exact absurd hc hnot
  · next hc =>
    constructor
    · rintro rfl
      exact ⟨rfl, hc⟩
    · exact fun h => h.1

lemma clientId_moveReference (r : Reference) :
    (moveReference ids tgt r).clientId = r.clientId.map (movedTo ids tgt) := by
  unfold moveReference onRows
  cases hr : r.clientId with
  | none => simp [hr]
  | some c =>
    by_cases hc : c ∈ ids
    · simp [hc, hr, movedTo]
    · simp [hc, hr, movedTo]

lemma clientId_moveEntry (e : LedgerEntry) :
    (moveEntry ids tgt e).clientId = movedTo ids tgt e.clientId := by
  unfold moveEntry onRows movedTo
  by_cases he : e.clientId ∈ ids
  · simp [he]
  · simp [he]

lemma moveEntry_eq (e : LedgerEntry) :
    moveEntry ids tgt e = { e with clientId := movedTo ids tgt e.clientId } := by
  unfold moveEntry onRows movedTo
  by_cases he : e.clientId ∈ ids
  · simp [he]
  · simp [he]

lemma mem_foldl_keepFirst_id {l : List Nat} : i ∈ l.foldl (keepFirst id) [] ↔ i ∈ l := by
  constructor
  · intro h
    rcases mem_of_mem_foldl_keepFirst h with hnone | hmem
    · cases hnone
    · exact hmem
  · intro h
    obtain ⟨j, hj, hid⟩ : ∃ j ∈ l.foldl (keepFirst id) [], id j = id i :=
      exists_key_foldl_keepFirst [] h
    rwa [← show j = i from hid]

lemma mem_normalizeIds {exclude : Nat → Bool} :
    i ∈ normalizeIds ids exclude ↔ i ∈ ids ∧ exclude i = false := by
  unfold normalizeIds
  rw [mem_foldl_keepFirst_id, List.mem_filter, Bool.not_eq_true']

end Moves

section Reach

variable {C : Type} (env : MergeEnv C)

/-- The billing clients whose invoices, ledger entries and attachments a merge moves. -/
structure Reach where
  invoices : List Nat := []
  ledger : List Nat := []
  attachments : List Nat := []

/-- The clients whose attachments are moved, before an exception the first `done`. -/
def attachmentClients (srcIds : List Nat) (done : Option Nat) (db : MergeDb) : List Nat :=
  if env.dirMade then
    (done.map (attachmentOrder env srcIds db).take).getD (attachmentOrder env srcIds db)
  else []

def movedIds (target : CrmClient) (sources : List CrmClient) (db : MergeDb) : List Nat :=
  if env.unified then sources.map CrmClient.id
  else (billingIds env db.billingClients target sources).2

def reach (target : CrmClient) (sources : List CrmClient) (db : MergeDb) : Reach :=
  let ids := movedIds env target sources db
  match env.stop with
  | some .invoices => {}
  | some .ledger => { invoices := ids }
  | some (.attachments done) => ⟨ids, ids, attachmentClients env ids (some done) db⟩
  | none => ⟨ids, ids, attachmentClients env ids none db⟩

end Reach

section Moved

variable {C : Type} {env : MergeEnv C} {db db' : MergeDb} {target : CrmClient}
  {sources : List CrmClient} {srcIds ids : List Nat} {tgt i : Nat}

/-- The billing tables of `db'` are those of `db` with the rows of `reach` moved to `tgt`. -/
structure RowsMoved (reach : Reach) (tgt : Nat) (db db' : MergeDb) : Prop where
  invoices : db'.invoices = db.invoices.map (moveReference reach.invoices tgt)
  ledger : db'.ledger = db.ledger.map (moveEntry reach.ledger tgt)
  attachments : ∀ i, (∃ a ∈ db'.attachments.rows, a.clientId = i) ↔
    ∃ a ∈ db.attachments.rows, movedTo reach.attachments tgt a.clientId = i

lemma map_moveReference_nil (rows : List Reference) : rows.map (moveReference [] tgt) = rows := by
  have hid : moveReference [] tgt = id := by
    funext r
    unfold moveReference onRows
    cases r.clientId <;> simp
  rw [hid, List.map_id]

lemma map_moveEntry_nil (rows : List LedgerEntry) : rows.map (moveEntry [] tgt) = rows := by
  have hid : moveEntry [] tgt = id := by
    funext e
    unfold moveEntry onRows
    simp
  rw [hid, List.map_id]

lemma movedTo_nil (c : Nat) : movedTo [] tgt c = c := if_neg List.not_mem_nil

lemma clientId_foldl_renameRow (renamed : List (Nat × Text)) (a : Attachment) :
    (renamed.foldl renameRow a).clientId = a.clientId := by
  have h := foldl_renameRow_repoint renamed a a.clientId
  rw [h]

/-- The clients of the attachments after the files of some clients have been moved. -/
lemma attachments_moved (call : MergeCall C) {files : Files C} {rows : Table Attachment.id}
    {clients : List (Nat × List Attachment)} (htarget : call.target ∉ clients.map Prod.fst)
    (renamed : List (Nat × Text)) :
    (∃ a ∈ (renamed.foldl rename (clients.foldl (moveClient call) ({ files := files }, rows)).2).rows,
      a.clientId = i) ↔
        ∃ a ∈ rows.rows, movedTo (clients.map Prod.fst) call.target a.clientId = i := by
  have hfind : ∀ k, (renamed.foldl rename
      (clients.foldl (moveClient call) ({ files := files }, rows)).2).find k = (rows.find k).map
        (fun a => renamed.foldl renameRow (repointed call (clients.map Prod.fst) a)) := by
    intro k
    rw [find_renames, foldl_moveClient, find_repoints htarget, Option.map_map]
    rfl
  have hclient : ∀ a : Attachment,
      (renamed.foldl renameRow (repointed call (clients.map Prod.fst) a)).clientId =
        movedTo (clients.map Prod.fst) call.target a.clientId := by
    intro a
    unfold repointed movedTo
    split
    · rw [foldl_renameRow_repoint]
    · exact clientId_foldl_renameRow renamed a
  constructor
  · rintro ⟨a', ha', rfl⟩
    have hfound := Table.find_of_mem ha'
    rw [hfind] at hfound
    obtain ⟨a, ha, rfl⟩ := Option.map_eq_some_iff.mp hfound
    exact ⟨a, Table.mem_of_find ha, (hclient a).symm⟩
  · rintro ⟨a, ha, rfl⟩
    refine ⟨_, Table.mem_of_find (k := a.id) ?_, hclient a⟩
    rw [hfind, Table.find_of_mem ha]
    rfl

end Moved

section Merge

variable {C : Type} {env : MergeEnv C} {db db' : MergeDb} {target : CrmClient}
  {sources : List CrmClient} {srcIds ids : List Nat} {tgt i : Nat}

lemma mem_attachmentOrder :
    i ∈ attachmentOrder env ids db ↔ i ∈ ids ∧ ∃ a ∈ db.attachments.rows, a.clientId = i := by
  unfold attachmentOrder
  rw [mem_keys_byClient]
  constructor
  · rintro ⟨a, ha, rfl⟩
    obtain ⟨hmem, hsource⟩ := List.mem_filter.mp ((env.select_perm _ _).mem_iff.mp ha)
    exact ⟨of_decide_eq_true hsource, a, hmem, rfl⟩
  · rintro ⟨hsource, a, ha, rfl⟩
    exact ⟨a, (env.select_perm _ _).mem_iff.mpr (List.mem_filter.mpr ⟨ha, decide_eq_true hsource⟩), rfl⟩

lemma mem_attachmentClients {done : Option Nat} : i ∈ attachmentClients env ids done db ↔
    env.dirMade = true ∧ i ∈ (done.map (attachmentOrder env ids db).take).getD
      (attachmentOrder env ids db) := by
  unfold attachmentClients
  split
  · next hmade => exact (and_iff_right hmade).symm
  · next hmade => exact iff_of_false List.not_mem_nil (fun h => hmade h.1)

lemma mem_of_mem_attachmentClients {done : Option Nat} (h : i ∈ attachmentClients env ids done db) :
    i ∈ ids := by
  obtain ⟨-, h⟩ := mem_attachmentClients.mp h
  cases done with
  | none => exact (mem_attachmentOrder.mp h).1
  | some done => exact (mem_attachmentOrder.mp (List.mem_of_mem_take h)).1

/-- The attachments after the files of the first clients, or of all, have been moved. -/
lemma moveAttachments_moved (env : MergeEnv C) (db : MergeDb) (htgt : tgt ∉ ids) (i : Nat) :
    ((∃ a ∈ (moveAttachments env ids tgt db).attachments.rows, a.clientId = i) ↔
      ∃ a ∈ db.attachments.rows, movedTo (attachmentClients env ids none db) tgt a.clientId = i) ∧
    ∀ done, ((∃ a ∈ (moveSomeAttachments env ids tgt done db).attachments.rows, a.clientId = i) ↔
      ∃ a ∈ db.attachments.rows,
        movedTo (attachmentClients env ids (some done) db) tgt a.clientId = i) := by
  have hnot : tgt ∉ attachmentOrder env ids db := fun hmem => htgt (mem_attachmentOrder.mp hmem).1
  cases hmade : env.dirMade with
  | false =>
    constructor
    · unfold moveAttachments moveAttachmentFiles attachmentClients attachmentCall
      simp only [hmade, Bool.false_eq_true, if_false, movedTo_nil]
    · intro done
      unfold moveSomeAttachments attachmentClients attachmentCall
      simp only [hmade, Bool.false_eq_true, if_false, movedTo_nil]
  | true =>
    constructor
    · have hcall : (attachmentCall env ids tgt db).dirMade = true := hmade
      unfold moveAttachments moveAttachmentFiles attachmentClients
      dsimp only
      rw [if_pos hcall, if_pos hmade]
      exact attachments_moved (attachmentCall env ids tgt db) hnot _
    · intro done
      have hcall : (attachmentCall env ids tgt db).dirMade = true := hmade
      unfold moveSomeAttachments attachmentClients
      dsimp only
      rw [if_pos hcall, if_pos hmade, Option.map_some, Option.getD_some]
      unfold attachmentOrder
      rw [← List.map_take]
      refine attachments_moved (attachmentCall env ids tgt db) ?_ []
      rw [List.map_take]
      exact fun hmem => hnot (List.mem_of_mem_take hmem)

/-- What a merge does to the billing tables. -/
lemma mergeUnified_moved (db : MergeDb) (hunified : env.unified = true)
    (htgt : target.id ∉ sources.map CrmClient.id) :
    RowsMoved (reach env target sources db) target.id db
      (mergeUnified env (sources.map CrmClient.id) target.id db) := by
  have hattachments := moveAttachments_moved env
    (moveInvoiceFks (sources.map CrmClient.id) target.id db) htgt
  have hnothing : RowsMoved {} target.id db db :=
    ⟨(map_moveReference_nil _).symm, (map_moveEntry_nil _).symm, fun i => by simp only [movedTo_nil]⟩
  unfold mergeUnified reach movedIds MergeEnv.stop
  rw [if_pos hunified, if_pos hunified]
  dsimp only
  by_cases hexist : env.tablesExist = true
  · rw [if_pos hexist, if_pos hexist]
    cases env.swallowed with
    | none => exact ⟨rfl, rfl, fun i => (hattachments i).1⟩
    | some step =>
      cases step with
      | invoices => exact hnothing
      | ledger => exact ⟨rfl, hnothing.ledger, hnothing.attachments⟩
      | attachments done =>
        refine ⟨?_, ?_, fun i => (hattachments i).2 done⟩
        · unfold moveSomeAttachments
          dsimp only
          split <;> rfl
        · unfold moveSomeAttachments
          dsimp only
          split <;> rfl
  · rw [if_neg hexist, if_neg hexist]
    exact hnothing

/-- The billing clients that are merged are those that are found for the sources. -/
lemma billingIds_spec (env : MergeEnv C) (billing : List BillingClient) (target : CrmClient)
    (sources : List CrmClient) :
    (∀ i, i ∈ (billingIds env billing target sources).2 ↔
      some i ≠ (billingIds env billing target sources).1 ∧
        ∃ s ∈ sources, resolveInvoiceClientId env.existsFails env.linkFails billing s = some i) ∧
    ((billingIds env billing target sources).1 = none →
      (billingIds env billing target sources).2 = []) := by
  have hmem : ∀ i, i ∈ normalizeIds (sources.filterMap
        (resolveInvoiceClientId env.existsFails env.linkFails billing))
        (fun i => some i = resolveInvoiceClientId env.existsFails env.linkFails billing target) ↔
      some i ≠ resolveInvoiceClientId env.existsFails env.linkFails billing target ∧
        ∃ s ∈ sources, resolveInvoiceClientId env.existsFails env.linkFails billing s = some i := by
    intro i
    rw [mem_normalizeIds, List.mem_filterMap, decide_eq_false_iff_not, and_comm]
  unfold billingIds
  dsimp only
  cases htarget : resolveInvoiceClientId env.existsFails env.linkFails billing target with
  | some tgt =>
    rw [htarget] at hmem
    refine ⟨hmem, ?_⟩
    intro h
    cases h
  | none =>
    rw [htarget] at hmem
    constructor
    · intro i
      rw [List.mem_filter, hmem i, decide_eq_true_eq, and_comm]
      simp
    · intro h
      rw [List.head?_eq_none_iff.mp h]
      rfl

lemma mergeDual_moved (db : MergeDb) (target : CrmClient) (sources : List CrmClient)
    (hunified : env.unified = false) :
    RowsMoved (reach env target sources db) ((account env target sources db).getD 0) db
      (mergeDual env target sources db) := by
  obtain ⟨hids, hnone⟩ := billingIds_spec env db.billingClients target sources
  have hstop : env.stop = none := by
    unfold MergeEnv.stop
    rw [hunified]
    exact if_neg Bool.false_ne_true
  unfold mergeDual reach account movedIds
  simp only [hunified, hstop, Bool.false_eq_true, if_false]
  generalize billingIds env db.billingClients target sources = pair at hids hnone ⊢
  obtain ⟨tgt?, ids⟩ := pair
  dsimp only at hids hnone ⊢
  have hempty : RowsMoved ⟨[], [], attachmentClients env [] none db⟩ (tgt?.getD 0) db
      (setExternal target.id tgt? db) := by
    refine ⟨(map_moveReference_nil _).symm, (map_moveEntry_nil _).symm, fun i => ?_⟩
    have hno : attachmentClients env [] none db = [] :=
      List.eq_nil_iff_forall_not_mem.mpr (fun j hj =>
        List.not_mem_nil (mem_of_mem_attachmentClients hj))
    rw [hno]
    simp only [movedTo_nil]
    rfl
  cases tgt? with
  | none =>
    rw [hnone rfl]
    exact hempty
  | some tgt =>
    dsimp only
    split
    · next hnil =>
      rw [hnil]
      exact hempty
    · refine ⟨rfl, rfl, fun i => ?_⟩
      have htgt : tgt ∉ ids := fun hmem => ((hids tgt).mp hmem).1 rfl
      exact (moveAttachments_moved env (moveInvoiceFks ids tgt (setExternal target.id (some tgt) db))
        htgt i).1

end Merge

end IpDocket.Clients
