import IpDocket.Clients.MergeReferencesMoved
import Mathlib.Algebra.BigOperators.Group.List.Basic

/-!
# Merges that move everything

After a merge nothing refers to a billing client of a source if and only if the merge has found it and has
got to its rows, and the target has then the retainers of all sources.
-/

namespace IpDocket.Clients
open IpDocket.Lib

section Exact

variable {C : Type} {env : MergeEnv C} {db db' : MergeDb} {target : CrmClient}
  {sources : List CrmClient} {targetClientId : Nat} {sourceClientIds srcIds : List Nat} {tgt i : Nat}

lemma mem_accountIds_of_resolve {existsFails linkFails : Nat → Bool} {billing : List BillingClient}
    {c : CrmClient} (h : resolveInvoiceClientId existsFails linkFails billing c = some i) :
    i ∈ accountIds false billing c := by
  have hlinked : ∀ j, (if linkFails c.id then none else linkedBillingClient billing c) = some j →
      j ∈ (billing.filter (isLinked c)).map BillingClient.id := by
    intro j hj
    split at hj
    · cases hj
    · exact List.max?_mem hj
  unfold resolveInvoiceClientId at h
  unfold accountIds
  dsimp only at h
  rw [if_neg Bool.false_ne_true, List.mem_append, Option.mem_toList]
  cases hext : c.externalInvoiceClientId with
  | none =>
    rw [hext] at h
    exact .inr (hlinked i h)
  | some inv =>
    rw [hext] at h
    dsimp only at h
    split at h
    · exact .inl h
    · rcases Option.or_eq_some_iff.mp h with hj | ⟨-, hinv⟩
      · exact .inr (hlinked i hj)
      · exact .inl hinv

/-- Only rows of sources are moved, and only if there is a billing client to move them to. -/
lemma movedIds_spec (h : i ∈ movedIds env target sources db) :
    i ∈ sourceAccounts env.unified db.billingClients sources ∧
      account env target sources db ≠ none := by
  unfold movedIds at h
  unfold sourceAccounts account
  cases hunified : env.unified with
  | true =>
    rw [hunified, if_pos rfl] at h
    obtain ⟨s, hs, rfl⟩ := List.mem_map.mp h
    refine ⟨List.mem_flatMap.mpr ⟨s, hs, ?_⟩, by simp⟩
    unfold accountIds
    rw [if_pos rfl]
    exact List.mem_singleton_self s.id
  | false =>
    rw [hunified, if_neg Bool.false_ne_true] at h
    obtain ⟨hspec, hnone⟩ := billingIds_spec env db.billingClients target sources
    obtain ⟨-, s, hs, hresolve⟩ := (hspec i).mp h
    refine ⟨List.mem_flatMap.mpr ⟨s, hs, mem_accountIds_of_resolve hresolve⟩, ?_⟩
    rw [if_neg Bool.false_ne_true]
    intro hempty
    rw [hnone hempty] at h
    cases h

lemma mem_movedIds_iff (howned : i ∈ sourceAccounts env.unified db.billingClients sources)
    (hne : some i ≠ account env target sources db) :
    i ∈ movedIds env target sources db ↔ Found env sources db i := by
  unfold movedIds Found
  unfold sourceAccounts at howned
  unfold account at hne
  cases hunified : env.unified with
  | true =>
    rw [hunified] at howned
    rw [if_pos rfl]
    obtain ⟨s, hs, hi⟩ := List.mem_flatMap.mp howned
    unfold accountIds at hi
    rw [if_pos rfl, List.mem_singleton] at hi
    exact iff_of_true (List.mem_map.mpr ⟨s, hs, hi.symm⟩) (.inl rfl)
  | false =>
    rw [hunified, if_neg Bool.false_ne_true] at hne
    rw [if_neg Bool.false_ne_true, (billingIds_spec env db.billingClients target sources).1 i,
      and_iff_right hne]
    exact (or_iff_right Bool.false_ne_true).symm

lemma reach_subset (h : i ∈ (reach env target sources db).invoices ∨
      i ∈ (reach env target sources db).ledger ∨ i ∈ (reach env target sources db).attachments) :
    i ∈ movedIds env target sources db := by
  unfold reach at h
  dsimp only at h
  split at h
  · simp at h
  · simpa using h
  · rcases h with h | h | h
    · exact h
    · exact h
    · exact mem_of_mem_attachmentClients h
  · rcases h with h | h | h
    · exact h
    · exact h
    · exact mem_of_mem_attachmentClients h

lemma mem_reach_invoices : i ∈ (reach env target sources db).invoices ↔
    i ∈ movedIds env target sources db ∧ env.stop ≠ some .invoices := by
  unfold reach
  dsimp only
  split
  · next hstop => simp [hstop]
  · next hstop => simp [hstop]
  · next hstop => simp [hstop]
  · next hstop => simp [hstop]

lemma mem_reach_ledger : i ∈ (reach env target sources db).ledger ↔
    i ∈ movedIds env target sources db ∧ env.stop ≠ some .invoices ∧ env.stop ≠ some .ledger := by
  unfold reach
  dsimp only
  split
  · next hstop => simp [hstop]
  · next hstop => simp [hstop]
  · next hstop => simp [hstop]
  · next hstop => simp [hstop]

lemma mem_reach_attachments (hrow : ∃ a ∈ db.attachments.rows, a.clientId = i) :
    i ∈ (reach env target sources db).attachments ↔
      i ∈ movedIds env target sources db ∧ env.dirMade = true ∧ (env.stop = none ∨ ∃ done,
        env.stop = some (.attachments done) ∧
          i ∈ (attachmentOrder env (sources.map CrmClient.id) db).take done) := by
  unfold reach
  dsimp only
  split
  · next hstop => simp [hstop]
  · next hstop => simp [hstop]
  · next done hstop =>
    have hunified : env.unified = true := by
      by_contra hnot
      unfold MergeEnv.stop at hstop
      rw [if_neg hnot] at hstop
      cases hstop
    have hids : movedIds env target sources db = sources.map CrmClient.id := if_pos hunified
    rw [mem_attachmentClients, hids, hstop]
    constructor
    · rintro ⟨hmade, hi⟩
      exact ⟨(mem_attachmentOrder.mp (List.mem_of_mem_take hi)).1, hmade, .inr ⟨done, rfl, hi⟩⟩
    · rintro ⟨-, hmade, hnone | ⟨done', hdone, hi⟩⟩
      · cases hnone
      · cases hdone
        exact ⟨hmade, hi⟩
  · next hstop =>
    rw [mem_attachmentClients]
    constructor
    · rintro ⟨hmade, hi⟩
      exact ⟨(mem_attachmentOrder.mp hi).1, hmade, .inl hstop⟩
    · rintro ⟨hmem, hmade, -⟩
      exact ⟨hmade, mem_attachmentOrder.mpr ⟨hmem, hrow⟩⟩

lemma crm_mergeUnified : (mergeUnified env ids tgt db).crm = db.crm := by
  unfold mergeUnified
  split
  · split
    · rfl
    · rfl
    · unfold moveSomeAttachments
      dsimp only
      split <;> rfl
    · rfl
  · rfl

lemma crm_mergeDual : (mergeDual env target sources db).crm = db.crm := by
  unfold mergeDual
  dsimp only
  split
  · rfl
  · split <;> rfl

lemma clients_mergeDual (env : MergeEnv C) (db : MergeDb) (target : CrmClient)
    (sources : List CrmClient) : (mergeDual env target sources db).clients =
    (setExternal target.id (billingIds env db.billingClients target sources).1 db).clients := by
  unfold mergeDual
  generalize billingIds env db.billingClients target sources = pair
  obtain ⟨tgt?, ids⟩ := pair
  dsimp only
  split
  · rfl
  · split <;> rfl

lemma not_mem_mergedIds : targetClientId ∉ mergedIds targetClientId sourceClientIds := by
  intro hmem
  exact of_decide_eq_false (mem_normalizeIds.mp hmem).2 rfl

lemma accountAfter_deleteSources (htarget : db.clients.find targetClientId = some target)
    (hnot : targetClientId ∉ srcIds) (inv : Option Nat) {merged : MergeDb}
    (hclients : merged.clients = (setExternal targetClientId inv db).clients) :
    accountAfter false targetClientId (deleteSources srcIds merged) = inv := by
  have hid := Table.key_of_find htarget
  have hfind : (deleteSources srcIds merged).clients.find targetClientId =
      some { target with externalInvoiceClientId := inv } := by
    change (merged.clients.update (deleteSource srcIds) (id_deleteSource srcIds)).find _ = _
    rw [Table.find_update, hclients]
    have hkey : ∀ c : CrmClient, CrmClient.id { c with externalInvoiceClientId := inv } = c.id :=
      fun _ => rfl
    have hset : (setExternal targetClientId inv db).clients.find targetClientId =
        (db.clients.find targetClientId).map (fun c => { c with externalInvoiceClientId := inv }) :=
      (Table.find_update_key hkey).trans (if_pos rfl)
    rw [hset, htarget, Option.map_some, Option.map_some]
    unfold deleteSource onRows
    exact congrArg some (if_neg (by simpa [hid] using hnot))
  unfold accountAfter
  rw [if_neg Bool.false_ne_true, hfind]
  rfl

/-- A call that returns has moved the references. -/
lemma mergeClients_some (htarget : db.clients.find targetClientId = some target)
    (h : mergeClients env targetClientId sourceClientIds db = some db') :
    (∀ table, db'.crm table = (db.crm table).map
      (moveReference (mergedIds targetClientId sourceClientIds) targetClientId)) ∧
    RowsMoved (reach env (mergeParties target (sourcesOf db (mergedIds targetClientId sourceClientIds)))
        (sourcesOf db (mergedIds targetClientId sourceClientIds)) db)
      ((account env (mergeParties target (sourcesOf db (mergedIds targetClientId sourceClientIds)))
        (sourcesOf db (mergedIds targetClientId sourceClientIds)) db).getD 0) db db' ∧
    accountAfter env.unified targetClientId db' = account env
      (mergeParties target (sourcesOf db (mergedIds targetClientId sourceClientIds)))
      (sourcesOf db (mergedIds targetClientId sourceClientIds)) db := by
  unfold mergeClients at h
  dsimp only at h
  generalize hsrc : mergedIds targetClientId sourceClientIds = srcIds at h ⊢
  have hnot : targetClientId ∉ srcIds := by
    rw [← hsrc]
    exact not_mem_mergedIds
  have hid := Table.key_of_find htarget
  rw [htarget] at h
  split at h
  · cases h
  dsimp only at h
  split at h
  · cases h
  obtain rfl := Option.some_inj.mp h
  have hsources : (mergeParties target (sourcesOf db srcIds)).id ∉
      (sourcesOf db srcIds).map CrmClient.id := by
    intro hmem
    obtain ⟨s, hs, heq⟩ := List.mem_map.mp hmem
    have hin := of_decide_eq_true (List.mem_filter.mp hs).2
    rw [heq] at hin
    exact hnot (hid ▸ hin)
  cases hunified : env.unified with
  | true =>
    have hmoved := mergeUnified_moved (moveClientFks srcIds targetClientId db) hunified hsources
    have hsame : (mergeParties target (sourcesOf db srcIds)).id = targetClientId := hid
    rw [hsame] at hmoved
    refine ⟨fun table => ?_, ?_, ?_⟩
    · rw [if_pos rfl]
      exact congrFun (crm_mergeUnified ..) table
    · rw [if_pos rfl]
      have hacct : account env (mergeParties target (sourcesOf db srcIds)) (sourcesOf db srcIds) db =
          some targetClientId := by
        unfold account
        rw [if_pos hunified, hsame]
      rw [hacct]
      exact ⟨hmoved.invoices, hmoved.ledger, hmoved.attachments⟩
    · unfold accountAfter account
      rw [if_pos rfl, if_pos hunified, hsame]
  | false =>
    have hmoved := mergeDual_moved (moveClientFks srcIds targetClientId db)
      (mergeParties target (sourcesOf db srcIds)) (sourcesOf db srcIds) hunified
    refine ⟨fun table => ?_, ?_, ?_⟩
    · rw [if_neg Bool.false_ne_true]
      exact congrFun (crm_mergeDual ..) table
    · rw [if_neg Bool.false_ne_true]
      exact ⟨hmoved.invoices, hmoved.ledger, hmoved.attachments⟩
    · have hclients := clients_mergeDual env (moveClientFks srcIds targetClientId db)
        (mergeParties target (sourcesOf db srcIds)) (sourcesOf db srcIds)
      have hsame : (mergeParties target (sourcesOf db srcIds)).id = targetClientId := hid
      rw [if_neg Bool.false_ne_true]
      rw [hsame] at hclients
      rw [accountAfter_deleteSources htarget hnot _ hclients]
      unfold account
      rw [if_neg (by rw [hunified]; exact Bool.false_ne_true)]
      rfl

/-- A balance depends on which accounts the entries are in. -/
lemma balance_congr {ledger : List LedgerEntry} {accounts accounts' : List Nat}
    {profile : Option Nat} {currency : Text}
    (h : ∀ e ∈ ledger, e.clientId ∈ accounts ↔ e.clientId ∈ accounts') :
    balance ledger accounts profile currency = balance ledger accounts' profile currency := by
  unfold balance
  rw [List.filter_congr (fun e he => by rw [decide_eq_decide.mpr (h e he)])]

lemma sum_filter_or {ρ : Type} (p q : ρ → Bool) (f : ρ → Int) (rows : List ρ) :
    ((rows.filter (fun r => p r || q r)).map f).sum =
      ((rows.filter (fun r => p r && !q r)).map f).sum + ((rows.filter q).map f).sum := by
  induction rows with
  | nil => rfl
  | cons r rows ih =>
    simp only [List.filter_cons]
    cases p r <;> cases q r <;> simp [ih] <;> omega

lemma balance_append {ledger : List LedgerEntry} (accounts accounts' : List Nat)
    (profile : Option Nat) (currency : Text) : balance ledger (accounts ++ accounts') profile currency =
      balance ledger (accounts.filter (· ∉ accounts')) profile currency +
        balance ledger accounts' profile currency := by
  let scope : LedgerEntry → Bool := fun e =>
    decide (e.businessProfileId = profile) && decide (e.currency = currency)
  have hsplit := sum_filter_or (fun e => decide (e.clientId ∈ accounts) && scope e)
    (fun e => decide (e.clientId ∈ accounts') && scope e) LedgerEntry.amountMinor ledger
  have hboth : ledger.filter (fun e => (decide (e.clientId ∈ accounts) && scope e) ||
      (decide (e.clientId ∈ accounts') && scope e)) =
      ledger.filter (fun e => decide (e.clientId ∈ accounts ++ accounts') && scope e) := by
    refine List.filter_congr (fun e _ => ?_)
    cases scope e <;> simp
  have hleft : ledger.filter (fun e => (decide (e.clientId ∈ accounts) && scope e) &&
      !(decide (e.clientId ∈ accounts') && scope e)) =
      ledger.filter (fun e => decide (e.clientId ∈ accounts.filter (· ∉ accounts')) && scope e) := by
    refine List.filter_congr (fun e _ => ?_)
    cases scope e <;> simp
  rw [hboth, hleft] at hsplit
  exact hsplit

/-- The rows that refer to a client after the move, other than the one they are moved to. -/
lemma refersTo_iff {reach : Reach} (hmoved : RowsMoved reach tgt db db')
    (hne : ∀ c, c ∈ reach.invoices ∨ c ∈ reach.ledger ∨ c ∈ reach.attachments → tgt ≠ i) :
    RefersTo db' i ↔ (∃ r ∈ db.invoices, r.clientId = some i) ∧ i ∉ reach.invoices ∨
      (∃ e ∈ db.ledger, e.clientId = i) ∧ i ∉ reach.ledger ∨
      (∃ a ∈ db.attachments.rows, a.clientId = i) ∧ i ∉ reach.attachments := by
  have hinvoices : (∃ r ∈ db'.invoices, r.clientId = some i) ↔
      (∃ r ∈ db.invoices, r.clientId = some i) ∧ i ∉ reach.invoices := by
    rw [hmoved.invoices]
    constructor
    · rintro ⟨r', hr', hi⟩
      obtain ⟨r, hr, rfl⟩ := List.mem_map.mp hr'
      rw [clientId_moveReference] at hi
      obtain ⟨c, hc, hto⟩ := Option.map_eq_some_iff.mp hi
      obtain ⟨rfl, hnot⟩ := (movedTo_eq_iff (fun c hc => hne c (.inl hc))).mp hto
      exact ⟨⟨r, hr, hc⟩, hnot⟩
    · rintro ⟨⟨r, hr, hi⟩, hnot⟩
      refine ⟨_, List.mem_map_of_mem hr, ?_⟩
      rw [clientId_moveReference, hi, Option.map_some]
      exact congrArg some ((movedTo_eq_iff (fun c hc => hne c (.inl hc))).mpr ⟨rfl, hnot⟩)
  have hledger : (∃ e ∈ db'.ledger, e.clientId = i) ↔
      (∃ e ∈ db.ledger, e.clientId = i) ∧ i ∉ reach.ledger := by
    rw [hmoved.ledger]
    constructor
    · rintro ⟨e', he', hi⟩
      obtain ⟨e, he, rfl⟩ := List.mem_map.mp he'
      rw [clientId_moveEntry] at hi
      obtain ⟨hc, hnot⟩ := (movedTo_eq_iff (fun c hc => hne c (.inr (.inl hc)))).mp hi
      exact ⟨⟨e, he, hc⟩, hnot⟩
    · rintro ⟨⟨e, he, hi⟩, hnot⟩
      refine ⟨_, List.mem_map_of_mem he, ?_⟩
      rw [clientId_moveEntry]
      exact (movedTo_eq_iff (fun c hc => hne c (.inr (.inl hc)))).mpr ⟨hi, hnot⟩
  have hattachments : (∃ a ∈ db'.attachments.rows, a.clientId = i) ↔
      (∃ a ∈ db.attachments.rows, a.clientId = i) ∧ i ∉ reach.attachments := by
    rw [hmoved.attachments]
    constructor
    · rintro ⟨a, ha, hi⟩
      obtain ⟨hc, hnot⟩ := (movedTo_eq_iff (fun c hc => hne c (.inr (.inr hc)))).mp hi
      exact ⟨⟨a, ha, hc⟩, hnot⟩
    · rintro ⟨⟨a, ha, hi⟩, hnot⟩
      exact ⟨a, ha, (movedTo_eq_iff (fun c hc => hne c (.inr (.inr hc)))).mpr ⟨hi, hnot⟩⟩
  unfold RefersTo
  rw [hinvoices, hledger, hattachments]

/-- The retainer of the billing client after the move. -/
lemma balance_moved {reach : Reach} {account : Option Nat}
    (hmoved : RowsMoved reach (account.getD 0) db db') (hnone : account = none → reach.ledger = [])
    (profile : Option Nat) (currency : Text) :
    balance db'.ledger account.toList profile currency =
      balance db.ledger (account.toList ++ reach.ledger) profile currency := by
  have hto : ∀ c, movedTo reach.ledger (account.getD 0) c ∈ account.toList ↔
      c ∈ account.toList ++ reach.ledger := by
    intro c
    rw [List.mem_append]
    cases account with
    | none => simp [hnone rfl]
    | some tgt =>
      unfold movedTo
      by_cases hc : c ∈ reach.ledger
      · simp [hc]
      · simp [hc]
  unfold balance
  rw [hmoved.ledger, List.filter_map, List.map_map]
  have hfilter : ((fun e : LedgerEntry => decide (e.clientId ∈ account.toList) &&
        (decide (e.businessProfileId = profile) && decide (e.currency = currency))) ∘
          moveEntry reach.ledger (account.getD 0)) =
      fun e => decide (e.clientId ∈ account.toList ++ reach.ledger) &&
        (decide (e.businessProfileId = profile) && decide (e.currency = currency)) := by
    funext e
    rw [Function.comp_apply, moveEntry_eq, decide_eq_decide.mpr (hto e.clientId)]
  have hamount : LedgerEntry.amountMinor ∘ moveEntry reach.ledger (account.getD 0) =
      LedgerEntry.amountMinor := by
    funext e
    rw [Function.comp_apply, moveEntry_eq]
  rw [hfilter, hamount]

/-- Nothing refers to a billing client of a source if and only if its rows are reached. -/
lemma not_refersTo_iff
    (hmoved : RowsMoved (reach env target sources db) ((account env target sources db).getD 0) db db')
    (howned : i ∈ sourceAccounts env.unified db.billingClients sources)
    (hne : some i ≠ account env target sources db) : ¬RefersTo db' i ↔
      ((∃ r ∈ db.invoices, r.clientId = some i) →
        Found env sources db i ∧ env.stop ≠ some .invoices) ∧
      ((∃ e ∈ db.ledger, e.clientId = i) →
        Found env sources db i ∧ env.stop ≠ some .invoices ∧ env.stop ≠ some .ledger) ∧
      ((∃ a ∈ db.attachments.rows, a.clientId = i) →
        Found env sources db i ∧ env.dirMade = true ∧ (env.stop = none ∨ ∃ done,
          env.stop = some (.attachments done) ∧
            i ∈ (attachmentOrder env (sources.map CrmClient.id) db).take done)) := by
  have htarget : ∀ c, c ∈ (reach env target sources db).invoices ∨
      c ∈ (reach env target sources db).ledger ∨ c ∈ (reach env target sources db).attachments →
        (account env target sources db).getD 0 ≠ i := by
    intro c hc
    obtain ⟨tgt, htgt⟩ := Option.ne_none_iff_exists'.mp (movedIds_spec (reach_subset hc)).2
    rw [htgt] at hne ⊢
    rintro rfl
    exact hne rfl
  have hfound := mem_movedIds_iff howned hne
  have hattachments : ¬((∃ a ∈ db.attachments.rows, a.clientId = i) ∧
      i ∉ (reach env target sources db).attachments) ↔
        ((∃ a ∈ db.attachments.rows, a.clientId = i) →
          Found env sources db i ∧ env.dirMade = true ∧ (env.stop = none ∨ ∃ done,
            env.stop = some (.attachments done) ∧
              i ∈ (attachmentOrder env (sources.map CrmClient.id) db).take done)) := by
    rw [not_and, not_not]
    exact forall_congr' (fun hrow => by rw [mem_reach_attachments hrow, hfound])
  rw [refersTo_iff hmoved htarget, not_or, not_or, hattachments, not_and, not_not, not_and, not_not,
    mem_reach_invoices, mem_reach_ledger, hfound]

/-- The target has what the sources had, and what is apart from them. -/
lemma balance_account
    (hmoved : RowsMoved (reach env target sources db) ((account env target sources db).getD 0) db db')
    (hall : ∀ e ∈ db.ledger, e.clientId ∈ sourceAccounts env.unified db.billingClients sources →
      some e.clientId ≠ account env target sources db → ¬RefersTo db' e.clientId)
    (profile : Option Nat) (currency : Text) :
    balance db'.ledger (account env target sources db).toList profile currency =
      balance db.ledger (apart (account env target sources db)
          (sourceAccounts env.unified db.billingClients sources)) profile currency +
        balance db.ledger (sourceAccounts env.unified db.billingClients sources) profile currency := by
  have hspec : ∀ c ∈ (reach env target sources db).ledger, _ := fun c hc =>
    movedIds_spec (reach_subset (.inr (.inl hc)))
  have hnone : account env target sources db = none → (reach env target sources db).ledger = [] :=
    fun hnone => List.eq_nil_iff_forall_not_mem.mpr (fun c hc => (hspec c hc).2 hnone)
  rw [balance_moved hmoved hnone]
  refine (balance_congr (fun e he => ?_)).trans (balance_append _ _ profile currency)
  rw [List.mem_append, List.mem_append, Option.mem_toList]
  by_cases hin : account env target sources db = some e.clientId
  · exact iff_of_true (.inl hin) (.inl hin)
  · refine or_congr_right ⟨fun hmem => (hspec _ hmem).1, fun howned => ?_⟩
    have hne := Ne.symm hin
    have hreached := ((not_refersTo_iff hmoved howned hne).mp (hall e he howned hne)).2.1 ⟨e, he, rfl⟩
    exact mem_reach_ledger.mpr ⟨(mem_movedIds_iff howned hne).mpr hreached.1, hreached.2⟩

/-- A merge that returns has moved everything exactly under the condition. -/
theorem movedAll_iff_allReached (htarget : db.clients.find targetClientId = some target)
    (h : mergeClients env targetClientId sourceClientIds db = some db') :
    MovedAll env.unified targetClientId (mergedIds targetClientId sourceClientIds) db db' ↔
      AllReached env target (sourcesOf db (mergedIds targetClientId sourceClientIds)) db := by
  obtain ⟨hcrm, hmoved, hafter⟩ := mergeClients_some htarget h
  have hid := Table.key_of_find htarget
  constructor
  · intro hall
    have hrows : ∀ i, _ → _ → ¬RefersTo db' i := fun i howned hne => hall.billing i howned (hafter ▸ hne)
    constructor
    · exact fun i howned hne => ((not_refersTo_iff hmoved howned hne).mp (hrows i howned hne)).1
    · exact fun i howned hne => ((not_refersTo_iff hmoved howned hne).mp (hrows i howned hne)).2.1
    · exact fun i howned hne => ((not_refersTo_iff hmoved howned hne).mp (hrows i howned hne)).2.2
    · intro profile currency
      have hsame := hall.retainers profile currency
      rw [hafter, balance_account hmoved (fun e _ => hrows e.clientId), balance_append] at hsame
      rw [hid]
      exact add_right_cancel hsame
  · intro hall
    have hrows : ∀ i ∈ sourceAccounts env.unified db.billingClients
        (sourcesOf db (mergedIds targetClientId sourceClientIds)), some i ≠ account env
          (mergeParties target (sourcesOf db (mergedIds targetClientId sourceClientIds)))
          (sourcesOf db (mergedIds targetClientId sourceClientIds)) db → ¬RefersTo db' i := by
      intro i howned hne
      exact (not_refersTo_iff hmoved howned hne).mpr
        ⟨hall.invoices i howned hne, hall.ledger i howned hne, hall.attachments i howned hne⟩
    constructor
    · intro table r hr i hi heq
      rw [hcrm table] at hr
      obtain ⟨r, -, rfl⟩ := List.mem_map.mp hr
      rw [clientId_moveReference] at heq
      obtain ⟨c, -, hto⟩ := Option.map_eq_some_iff.mp heq
      refine ((movedTo_eq_iff ?_).mp hto).2 hi
      rintro c hc rfl
      exact not_mem_mergedIds hi
    · exact fun i howned hne => hrows i howned (hafter ▸ hne)
    · intro profile currency
      have hsame := hall.retainers profile currency
      rw [hid] at hsame
      rw [hafter, balance_account hmoved (fun e _ => hrows e.clientId), balance_append, hsame]
      rfl

end Exact

section Runs

/-- The clients 3 and 5 are merged into 1. Client 3 has the billing client 30, client 5 has 50. -/
def mergeDb : MergeDb where
  clients := ⟨[{ id := 1 }, { id := 3 }, { id := 5, externalInvoiceClientId := some 50 }], 6,
    by decide, by decide⟩
  crm := fun _ => [⟨1, some 3⟩, ⟨2, some 5⟩, ⟨3, none⟩]
  billingClients := [{ id := 30, ipmClientId := some 3 }, { id := 50 }]
  invoices := [⟨100, some 30⟩, ⟨101, some 50⟩]
  ledger := [⟨1, 30, some 1, "KRW".toList, 500⟩, ⟨2, 50, some 1, "KRW".toList, 700⟩,
    ⟨3, 50, none, "USD".toList, 20⟩]
  attachments := ⟨[contract 10 30, contract 11 50], 12, by decide, by decide⟩

def mergeEnv (unified dirMade : Bool) (swallowed : Option SwallowedAt) : MergeEnv Nat where
  unified := unified
  swallowed := swallowed
  dirMade := dirMade
  files := filesOf [((contract 10 30).src, 7), ((contract 11 50).src, 8)]
  outcome _ := .moved
  stamp _ := "120000".toList
  select rows ids := rows.filter (fun a => a.clientId ∈ ids)
  select_perm _ _ := .refl _

theorem movedAll_iff_allReached_adopted : ∃ db',
    mergeClients (mergeEnv false true none) 1 [3, 5, 3] mergeDb = some db' ∧
      MovedAll false 1 [3, 5] mergeDb db' := by
  have hfound : ∀ i ∈ sourceAccounts false mergeDb.billingClients (sourcesOf mergeDb [3, 5]),
      Found (mergeEnv false true none) (sourcesOf mergeDb [3, 5]) mergeDb i := by
    decide
  refine ⟨_, rfl, (@movedAll_iff_allReached _ (mergeEnv false true none) mergeDb _ _ 1
    [3, 5, 3] rfl rfl).mpr ⟨?_, ?_, ?_, fun _ _ => rfl⟩⟩
  · exact fun i hi _ _ => ⟨hfound i hi, by decide⟩
  · exact fun i hi _ _ => ⟨hfound i hi, by decide, by decide⟩
  · exact fun i hi _ _ => ⟨hfound i hi, rfl, .inl rfl⟩

/-- The same rows, in the unified tables: those of the clients 3 and 5. -/
def unifiedDb : MergeDb :=
  { mergeDb with
    billingClients := []
    invoices := [⟨100, some 3⟩]
    attachments := ⟨[contract 10 3], 11, by decide, by decide⟩ }

/-- The attachments stay if the directory of the target cannot be made, and after an exception that is
swallowed the invoices stay too. -/
theorem references_left :
    (∃ db', mergeClients (mergeEnv true false none) 1 [3] unifiedDb = some db' ∧
      ¬MovedAll true 1 [3] unifiedDb db') ∧
    ∃ db', mergeClients (mergeEnv true true (some .invoices)) 1 [3] unifiedDb = some db' ∧
      ¬MovedAll true 1 [3] unifiedDb db' := by
  refine ⟨⟨_, rfl, fun h => ?_⟩, ⟨_, rfl, fun h => ?_⟩⟩
  · exact h.billing 3 (by decide) (by decide) (.inr (.inr ⟨contract 10 3, by decide, rfl⟩))
  · exact h.billing 3 (by decide) (by decide) (.inl ⟨⟨100, some 3⟩, by decide, rfl⟩)

end Runs

end IpDocket.Clients
