import IpDocket.Clients.MergeAttachmentsReachable

/-!
# References in a merge of clients

`merge_clients` moves the references of the tables of the CRM, then those of the billing tables. With
unified clients these refer to the clients of the CRM, otherwise to billing clients of their own, and
a target without one takes over that of a source. The unified branch swallows its exceptions, and the
attachments stay where they are if the directory of the target cannot be made.
-/

namespace IpDocket.Clients
open IpDocket.Lib

/-- The tables of `_get_client_fk_rules`. -/
inductive CrmTable
  | cases
  | crmContacts
  | crmOpportunities
  | crmActivities
  | crmLeads
  deriving DecidableEq

/-- A row with a foreign key to a client. -/
structure Reference where
  id : Nat
  clientId : Option Nat
  deriving DecidableEq

/-- A row of `client_deposit_ledger`. -/
structure LedgerEntry where
  id : Nat
  clientId : Nat
  businessProfileId : Option Nat
  currency : Text
  amountMinor : Int
  deriving DecidableEq

/-- A client of the CRM. -/
structure CrmClient where
  id : Nat
  partyId : Option Text := none
  ipmPartyId : Option Text := none
  externalInvoiceClientId : Option Nat := none
  isDeleted : Bool := false
  deriving DecidableEq

/-- A client of the billing tables, where these are not unified with those of the CRM. -/
structure BillingClient where
  id : Nat
  ipmClientId : Option Nat := none
  ipmPartyId : Option Text := none
  deriving DecidableEq

structure MergeDb where
  clients : Table CrmClient.id
  crm : CrmTable → List Reference
  billingClients : List BillingClient
  invoices : List Reference
  ledger : List LedgerEntry
  attachments : Table Attachment.id

/-- Where the unified branch of `_merge_invoice_side` raises an exception after which the merge can go
on: before the rows of this table, or after the attachments of so many clients. -/
inductive SwallowedAt
  | invoices
  | ledger
  | attachments (done : Nat)
  deriving DecidableEq

/-- What a call of `merge_clients` meets besides the rows. `raised` is an exception that ends it, also
one that is swallowed but has aborted the transaction; `existsFails` and `linkFails` are the lookups of
`_resolve_invoice_client_id`, whose exceptions are swallowed. -/
structure MergeEnv (C : Type) where
  unified : Bool
  tablesExist : Bool := true
  swallowed : Option SwallowedAt := none
  existsFails : Nat → Bool := fun _ => false
  linkFails : Nat → Bool := fun _ => false
  raised : Bool := false
  dirMade : Bool := true
  files : Files C
  outcome : Nat → FileOutcome C
  stamp : Nat → Text
  select : List Attachment → List Nat → List Attachment
  select_perm : ∀ rows ids, (select rows ids).Perm (rows.filter (fun a => a.clientId ∈ ids))

/-- `_normalize_ids`. -/
def normalizeIds (ids : List Nat) (exclude : Nat → Bool) : List Nat :=
  (ids.filter (!exclude ·)).foldl (keepFirst id) []

section Links

/-- The party by which a client is found, `party_id or ipm_party_id`. -/
def CrmClient.party (c : CrmClient) : Option Text :=
  if c.partyId.getD [] = [] then c.ipmPartyId else c.partyId

/-- The `WHERE` of `_resolve_invoice_client_id`. -/
def isLinked (c : CrmClient) (b : BillingClient) : Bool :=
  b.ipmClientId = some c.id || (c.party.isSome && b.ipmPartyId = c.party)

def linkedBillingClient (billing : List BillingClient) (c : CrmClient) : Option Nat :=
  ((billing.filter (isLinked c)).map BillingClient.id).max?

/-- `_resolve_invoice_client_id`, where the lookups of the clients in `existsFails` and `linkFails`
fail. An id that no billing client has is kept unless another one is linked. -/
def resolveInvoiceClientId (existsFails linkFails : Nat → Bool) (billing : List BillingClient)
    (c : CrmClient) : Option Nat :=
  let linked := if linkFails c.id then none else linkedBillingClient billing c
  match c.externalInvoiceClientId with
  | none => linked
  | some inv =>
    if !existsFails c.id && billing.any (fun b => b.id = inv) then some inv else linked.or (some inv)

/-- `_merge_client_profile` for a party id: a blank one is filled if the sources agree on one. -/
def mergeParty (target : Option Text) (sources : List (Option Text)) : Option Text :=
  if pyStrip (target.getD []) = [] then
    let candidates := (sources.reduceOption.filter (fun t => pyStrip t ≠ [])).foldl
      (keepFirst pyStrip) []
    match candidates with
    | [chosen] => some chosen
    | _ => target
  else target

def mergeParties (target : CrmClient) (sources : List CrmClient) : CrmClient :=
  { target with
    partyId := mergeParty target.partyId (sources.map CrmClient.partyId)
    ipmPartyId := mergeParty target.ipmPartyId (sources.map CrmClient.ipmPartyId) }

end Links

section Moves

def moveReference (srcIds : List Nat) (tgt : Nat) (r : Reference) : Reference :=
  onRows (fun r => r.clientId.any (· ∈ srcIds)) (fun r => { r with clientId := some tgt }) r

def moveEntry (srcIds : List Nat) (tgt : Nat) (e : LedgerEntry) : LedgerEntry :=
  onRows (fun e => e.clientId ∈ srcIds) (fun e => { e with clientId := tgt }) e

/-- `_move_client_fks`. -/
def moveClientFks (srcIds : List Nat) (tgt : Nat) (db : MergeDb) : MergeDb :=
  { db with crm := fun table => (db.crm table).map (moveReference srcIds tgt) }

def moveInvoices (srcIds : List Nat) (tgt : Nat) (db : MergeDb) : MergeDb :=
  { db with invoices := db.invoices.map (moveReference srcIds tgt) }

def moveLedger (srcIds : List Nat) (tgt : Nat) (db : MergeDb) : MergeDb :=
  { db with ledger := db.ledger.map (moveEntry srcIds tgt) }

/-- `_move_invoice_fks`. -/
def moveInvoiceFks (srcIds : List Nat) (tgt : Nat) (db : MergeDb) : MergeDb :=
  moveLedger srcIds tgt (moveInvoices srcIds tgt db)

variable {C : Type} (env : MergeEnv C)

/-- The call of `_move_invoice_client_attachment_files`. -/
def attachmentCall (srcIds : List Nat) (tgt : Nat) (db : MergeDb) : MergeCall C where
  target := tgt
  sources := srcIds
  selected := env.select db.attachments.rows srcIds
  dirMade := env.dirMade
  outcome := env.outcome
  stamp := env.stamp
  ending := .committed

def moveAttachments (srcIds : List Nat) (tgt : Nat) (db : MergeDb) : MergeDb :=
  { db with attachments := (moveAttachmentFiles (attachmentCall env srcIds tgt db) env.files
    db.attachments).2 }

/-- The rows of the first clients are moved, and then the exception comes. -/
def moveSomeAttachments (srcIds : List Nat) (tgt done : Nat) (db : MergeDb) : MergeDb :=
  let call := attachmentCall env srcIds tgt db
  if call.dirMade then
    { db with attachments := (((byClient call.selected).take done).foldl (moveClient call)
      ({ files := env.files }, db.attachments)).2 }
  else db

/-- The unified branch of `_merge_invoice_side`. -/
def mergeUnified (srcIds : List Nat) (tgt : Nat) (db : MergeDb) : MergeDb :=
  if env.tablesExist then
    match env.swallowed with
    | some .invoices => db
    | some .ledger => moveInvoices srcIds tgt db
    | some (.attachments done) =>
      moveSomeAttachments env srcIds tgt done (moveInvoiceFks srcIds tgt db)
    | none => moveAttachments env srcIds tgt (moveInvoiceFks srcIds tgt db)
  else db

/-- The billing client of the target, which may be that of a source, and those merged into it. -/
def billingIds (billing : List BillingClient) (target : CrmClient) (sources : List CrmClient) :
    Option Nat × List Nat :=
  let resolve := resolveInvoiceClientId env.existsFails env.linkFails billing
  let targetId := resolve target
  let sourceIds := normalizeIds (sources.filterMap resolve) (fun i => some i = targetId)
  match targetId with
  | some tgt => (some tgt, sourceIds)
  | none => (sourceIds.head?, sourceIds.filter (fun i => some i ≠ sourceIds.head?))

def setExternal (clientId : Nat) (inv : Option Nat) (db : MergeDb) : MergeDb :=
  { db with clients := db.clients.update (onRows (fun c => c.id = clientId)
    (fun c => { c with externalInvoiceClientId := inv })) (key_onRows (fun _ => rfl)) }

/-- The other branch of `_merge_invoice_side`, with `_merge_invoice_clients_dual`. -/
def mergeDual (target : CrmClient) (sources : List CrmClient) (db : MergeDb) : MergeDb :=
  let (targetId, sourceIds) := billingIds env db.billingClients target sources
  let db := setExternal target.id targetId db
  match targetId with
  | none => db
  | some tgt =>
    if sourceIds = [] then db
    else moveAttachments env sourceIds tgt (moveInvoiceFks sourceIds tgt db)

/-- The sources are deleted softly and lose their link. -/
def deleteSource (srcIds : List Nat) (c : CrmClient) : CrmClient :=
  onRows (fun c => c.id ∈ srcIds) (fun c =>
    { c with isDeleted := true, externalInvoiceClientId := none }) c

lemma id_deleteSource (srcIds : List Nat) (c : CrmClient) : (deleteSource srcIds c).id = c.id :=
  key_onRows (f := fun c => { c with isDeleted := true, externalInvoiceClientId := none })
    (fun _ => rfl) c

def deleteSources (srcIds : List Nat) (db : MergeDb) : MergeDb :=
  { db with clients := db.clients.update (deleteSource srcIds) (id_deleteSource srcIds) }

def sourcesOf (db : MergeDb) (srcIds : List Nat) : List CrmClient :=
  db.clients.rows.filter (fun c => c.id ∈ srcIds)

def mergedIds (targetClientId : Nat) (sourceClientIds : List Nat) : List Nat :=
  normalizeIds sourceClientIds (fun i => i = targetClientId)

/-- `merge_clients` with the billing subsystem enabled; `none` is an exception, after which the
transaction is rolled back. -/
def mergeClients (targetClientId : Nat) (sourceClientIds : List Nat) (db : MergeDb) : Option MergeDb :=
  let srcIds := mergedIds targetClientId sourceClientIds
  let sources := sourcesOf db srcIds
  if srcIds = [] ∨ env.raised = true ∨ sources.length ≠ srcIds.length then none
  else
    match db.clients.find targetClientId with
    | none => none
    | some target =>
      if target.isDeleted || sources.any CrmClient.isDeleted then none
      else
        let db := moveClientFks srcIds targetClientId db
        let db := if env.unified then mergeUnified env (sources.map CrmClient.id) targetClientId db
          else mergeDual env (mergeParties target sources) sources db
        some (deleteSources srcIds db)

end Moves

section Property

/-- The clients that the billing rows of a client may refer to. -/
def accountIds (unified : Bool) (billing : List BillingClient) (c : CrmClient) : List Nat :=
  if unified then [c.id]
  else c.externalInvoiceClientId.toList ++ (billing.filter (isLinked c)).map BillingClient.id

def sourceAccounts (unified : Bool) (billing : List BillingClient) (sources : List CrmClient) :
    List Nat :=
  sources.flatMap (accountIds unified billing)

/-- The retainer of a business profile in a currency. -/
def balance (ledger : List LedgerEntry) (accounts : List Nat) (businessProfileId : Option Nat)
    (currency : Text) : Int :=
  ((ledger.filter (fun e => e.clientId ∈ accounts && (decide (e.businessProfileId = businessProfileId) &&
    decide (e.currency = currency)))).map LedgerEntry.amountMinor).sum

/-- The billing client of the target before the merge. -/
def accountBefore (unified : Bool) (targetClientId : Nat) (db : MergeDb) : Option Nat :=
  if unified then some targetClientId
  else (db.clients.find targetClientId).bind
    (resolveInvoiceClientId (fun _ => false) (fun _ => false) db.billingClients)

/-- The billing client that the target is linked to after the merge. -/
def accountAfter (unified : Bool) (targetClientId : Nat) (db : MergeDb) : Option Nat :=
  if unified then some targetClientId
  else (db.clients.find targetClientId).bind CrmClient.externalInvoiceClientId

def RefersTo (db : MergeDb) (i : Nat) : Prop :=
  (∃ r ∈ db.invoices, r.clientId = some i) ∨ (∃ e ∈ db.ledger, e.clientId = i) ∨
    ∃ a ∈ db.attachments.rows, a.clientId = i

/-- Nothing refers to a source any more, and the target has all retainers. -/
structure MovedAll (unified : Bool) (targetClientId : Nat) (srcIds : List Nat) (db db' : MergeDb) :
    Prop where
  crm : ∀ table, ∀ r ∈ db'.crm table, ∀ i ∈ srcIds, r.clientId ≠ some i
  billing : ∀ i ∈ sourceAccounts unified db.billingClients (sourcesOf db srcIds),
    some i ≠ accountAfter unified targetClientId db' → ¬RefersTo db' i
  retainers : ∀ businessProfileId currency,
    balance db'.ledger (accountAfter unified targetClientId db').toList businessProfileId currency =
      balance db.ledger ((accountBefore unified targetClientId db).toList ++
        sourceAccounts unified db.billingClients (sourcesOf db srcIds)) businessProfileId currency

variable {C : Type} (env : MergeEnv C)

/-- Where the moves in the billing tables stop. -/
def MergeEnv.stop : Option SwallowedAt :=
  if env.unified then if env.tablesExist then env.swallowed else some .invoices else none

/-- The billing client that the others are merged into. -/
def account (target : CrmClient) (sources : List CrmClient) (db : MergeDb) : Option Nat :=
  if env.unified then some target.id
  else (billingIds env db.billingClients target sources).1

/-- The accounts that are not those of a source. -/
def apart (accounts : Option Nat) (sourceAccounts : List Nat) : List Nat :=
  accounts.toList.filter (· ∉ sourceAccounts)

/-- The merge finds the billing client. -/
def Found (sources : List CrmClient) (db : MergeDb) (i : Nat) : Prop :=
  env.unified = true ∨
    ∃ s ∈ sources, resolveInvoiceClientId env.existsFails env.linkFails db.billingClients s = some i

instance (sources : List CrmClient) (db : MergeDb) (i : Nat) : Decidable (Found env sources db i) :=
  inferInstanceAs (Decidable (_ ∨ _))

/-- The clients of the attachments of the sources, in the order in which these are moved. -/
def attachmentOrder (srcIds : List Nat) (db : MergeDb) : List Nat :=
  (byClient (env.select db.attachments.rows srcIds)).map Prod.fst

/-- The condition on the rows before the merge, and on the steps that may fail. -/
structure AllReached (target : CrmClient) (sources : List CrmClient) (db : MergeDb) : Prop where
  invoices : ∀ i ∈ sourceAccounts env.unified db.billingClients sources,
    some i ≠ account env (mergeParties target sources) sources db →
      (∃ r ∈ db.invoices, r.clientId = some i) →
        Found env sources db i ∧ env.stop ≠ some .invoices
  ledger : ∀ i ∈ sourceAccounts env.unified db.billingClients sources,
    some i ≠ account env (mergeParties target sources) sources db →
      (∃ e ∈ db.ledger, e.clientId = i) →
        Found env sources db i ∧ env.stop ≠ some .invoices ∧ env.stop ≠ some .ledger
  attachments : ∀ i ∈ sourceAccounts env.unified db.billingClients sources,
    some i ≠ account env (mergeParties target sources) sources db →
      (∃ a ∈ db.attachments.rows, a.clientId = i) →
        Found env sources db i ∧ env.dirMade = true ∧ (env.stop = none ∨ ∃ done,
          env.stop = some (.attachments done) ∧
            i ∈ (attachmentOrder env (sources.map CrmClient.id) db).take done)
  retainers : ∀ businessProfileId currency,
    balance db.ledger (apart (account env (mergeParties target sources) sources db)
        (sourceAccounts env.unified db.billingClients sources)) businessProfileId currency =
      balance db.ledger (apart (accountBefore env.unified target.id db)
        (sourceAccounts env.unified db.billingClients sources)) businessProfileId currency

end Property

end IpDocket.Clients
