import IpDocket.Lib.Incidence
import IpDocket.Lib.Keyed
import IpDocket.Lib.Run
import IpDocket.Lib.Text

/-!
# Families of matters

`link_matters_into_family` puts two matters into one family: it finds or creates the family, merges the
other families of the two into it and adds the links that are missing. `link_matter_to_family_id` adds a
matter to a family that exists, and merges nothing. `family_disconnect` takes a matter out of the families
that lead from it to another one. A call that raises is rolled back by its callers: `none`.

Who may edit a matter is a parameter, as is the order of `created_at` and `mf_id`, which decides which of
two equal links is kept. The role and the time of a link are left out.
-/

namespace IpDocket.Matters
open IpDocket.Lib

/-- Ids are texts without blanks around them. -/
def Clean (t : Text) : Prop := pyStrip t = t ∧ t ≠ []

structure Family where
  familyId : Text
  familyKey : Text
  deriving DecidableEq

structure MatterFamily where
  mfId : Text
  matterId : Text
  familyId : Text
  deriving DecidableEq

structure Matter where
  matterId : Text
  ourRef : Option Text
  clean : Clean matterId

structure FamilyDb where
  families : Keyed Family.familyId
  links : Keyed MatterFamily.mfId

/-- What differs from call to call: the ids and keys that are drawn, and the first element of a set. -/
structure LinkEnv where
  newFamilyId : Text
  newFamilyId_clean : Clean newFamilyId
  newLinkId : Text → Text
  manualKey : Text
  lastManualKey : Text
  next : List Text → Option Text
  next_mem : ∀ l x, next l = some x → x ∈ l

def FamilyDb.byKey (db : FamilyDb) (key : Text) : Option Family :=
  db.families.rows.find? (fun f => f.familyKey = key)

section Keys

variable (T : UnicodeTables)

/-- The text that a sequence of character classes matches at the beginning. -/
def matchShape : List (Char → Bool) → Text → Option Text
  | [], _ => some []
  | _ :: _, [] => none
  | p :: ps, c :: t => if p c then (matchShape ps t).map (c :: ·) else none

/-- `\d` and `[A-Z]`, where case is ignored. -/
def isRefDigit (c : Char) : Bool := (T.decimal c).isSome

def isRefLetter (c : Char) : Bool := "ABCDEFGHIJKLMNOPQRSTUVWXYZ".toList.any (T.sameLetter c)

def baseRefShape : List (Char → Bool) :=
  List.replicate 2 (isRefDigit T) ++ List.replicate 2 (isRefLetter T) ++ List.replicate 4 (isRefDigit T)

def extractBaseRef (value : Text) : Text :=
  ((matchShape (baseRefShape T) (pyStrip value)).map (pyUpper T.toUpperTable)).getD []

def ensureUniqueFamilyKey (env : LinkEnv) (db : FamilyDb) (baseKey : Text) : Text :=
  let upper := stripUpper T.toUpperTable baseKey
  let key := if upper = [] then env.manualKey else upper
  if (db.byKey key).isNone then key
  else
    (((List.range 999).map (fun i => key ++ '-' :: pyDigits (i + 1))).find?
      (fun candidate => (db.byKey candidate).isNone)).getD env.lastManualKey

end Keys

section Resolve

variable (T : UnicodeTables) (env : LinkEnv) (db : FamilyDb)

/-- The family that the key names, or a new one with that key. -/
def familyOfKey (explicit : Text) : Family × Bool :=
  match db.byKey explicit with
  | some family => (family, false)
  | none => (⟨env.newFamilyId, ensureUniqueFamilyKey T env db explicit⟩, true)

/-- The family named after the reference of the matters, or a new one. -/
def familyOfRefs (primaryRef targetRef : Text) : Family × Bool :=
  let base := if extractBaseRef T primaryRef ≠ [] then extractBaseRef T primaryRef
    else extractBaseRef T targetRef
  let ref := if primaryRef ≠ [] then primaryRef else targetRef
  let baseKey := if base ≠ [] then base else stripUpper T.toUpperTable ref
  match if baseKey ≠ [] then db.byKey baseKey else none with
  | some family => (family, false)
  | none => (⟨env.newFamilyId, ensureUniqueFamilyKey T env db baseKey⟩, true)

/-- The family that a matter has already: one that both have, or else the first of either. -/
def sharedOrOwn (primaryIds targetIds : List Text) (preferPrimary : Bool) : Option Family :=
  let common := primaryIds.filter (fun f => f ≠ [] ∧ f ∈ targetIds)
  let either := if preferPrimary then primaryIds ++ targetIds else targetIds ++ primaryIds
  ((env.next common).bind db.families.find).or ((either.filter (· ≠ [])).findSome? db.families.find)

/-- The family of the link, and whether it is a new one. -/
def resolveFamilyForLink (primaryIds targetIds : List Text) (explicitFamilyKey : Option Text)
    (preferPrimary : Bool) (primaryRef targetRef : Text) : Family × Bool :=
  let explicit := pyStrip (explicitFamilyKey.getD [])
  if explicit ≠ [] then familyOfKey T env db explicit
  else
    match sharedOrOwn env db primaryIds targetIds preferPrimary with
    | some family => (family, false)
    | none => familyOfRefs T env db primaryRef targetRef

end Resolve

section Merge

/-- The links, the matters of the canonical family and the number of changes. -/
structure MergeState where
  links : Keyed MatterFamily.mfId
  mids : List Text
  changed : Nat

def MergeState.drop (s : MergeState) (row : MatterFamily) : MergeState where
  links := s.links.delete (fun r => r.mfId = row.mfId)
  mids := s.mids
  changed := s.changed + 1

def intoFamily (canonical : Text) (row : MatterFamily) : MatterFamily := { row with familyId := canonical }

lemma mfId_intoFamily (canonical : Text) (row : MatterFamily) : (intoFamily canonical row).mfId = row.mfId := rfl

def mergeRow (canonical : Text) (s : MergeState) (row : MatterFamily) : MergeState :=
  let mid := pyStrip row.matterId
  if mid = [] ∨ mid ∈ s.mids then s.drop row
  else
    { links := s.links.update (onRows (fun r => r.mfId = row.mfId) (intoFamily canonical))
        (key_onRows (mfId_intoFamily canonical))
      mids := s.mids ++ [mid]
      changed := s.changed + 1 }

/-- The defensive pass over the canonical family. -/
def dedupeRow (s : MergeState) (row : MatterFamily) : MergeState :=
  let mid := pyStrip row.matterId
  if mid = [] ∨ mid ∈ s.mids then s.drop row
  else { s with mids := s.mids ++ [mid] }

variable (before : MatterFamily → MatterFamily → Bool)

/-- The links of the families, in the order of the query. -/
def linksOf (links : Keyed MatterFamily.mfId) (familyIds : List Text) : List MatterFamily :=
  (links.rows.filter (fun r => r.familyId ∈ familyIds)).mergeSort before

/-- Before the merge: the matters of the canonical family. -/
def mergeStart (links : Keyed MatterFamily.mfId) (canonical : Text) : MergeState where
  links := links
  mids := ((links.rows.filter (fun r => r.familyId = canonical)).map (fun r => pyStrip r.matterId)).filter (· ≠ [])
  changed := 0

def mergeRows (links : Keyed MatterFamily.mfId) (canonical : Text) (mergeIds : List Text) : MergeState :=
  (linksOf before links mergeIds).foldl (mergeRow canonical) (mergeStart links canonical)

def dedupeRows (canonical : Text) (s : MergeState) : MergeState :=
  (linksOf before s.links [canonical]).foldl dedupeRow { s with mids := [] }

def mergeLinks (links : Keyed MatterFamily.mfId) (canonical : Text) (mergeIds : List Text) : MergeState :=
  dedupeRows before canonical (mergeRows before links canonical mergeIds)

def mergeFamiliesInto (db : FamilyDb) (canonicalFamilyId : Text) (familyIdsToMerge : List Text) :
    FamilyDb × Nat :=
  let canonical := pyStrip canonicalFamilyId
  let mergeIds := (familyIdsToMerge.map pyStrip).filter (fun f => f ≠ [] ∧ f ≠ canonical)
  if canonical = [] ∨ mergeIds = [] then (db, 0)
  else
    let merged := mergeLinks before db.links canonical mergeIds
    (⟨db.families.delete (fun f => f.familyId ∈ mergeIds), merged.links⟩, merged.changed)

end Merge

section Link

variable (T : UnicodeTables) (before : MatterFamily → MatterFamily → Bool) (env : LinkEnv)

/-- Both columns are unique. -/
def insertFamily (db : FamilyDb) (family : Family) : Option FamilyDb :=
  if (db.byKey family.familyKey).isSome then none
  else (db.families.insertNew family).map (fun families => { db with families := families })

/-- The matter becomes a member, unless it is one. -/
def ensureLink (db : FamilyDb) (matterId familyId : Text) : Option FamilyDb :=
  if db.links.rows.any (fun r => r.matterId = matterId ∧ r.familyId = familyId) then some db
  else (db.links.insertNew ⟨env.newLinkId matterId, matterId, familyId⟩).map
    (fun links => { db with links := links })

def familyIdsOf (db : FamilyDb) (matterId : Text) : List Text :=
  ((db.links.rows.filter (fun r => r.matterId = matterId)).map (fun r => pyStrip r.familyId)).filter (· ≠ [])

/-- The database with the family of the link. -/
def withFamily (db : FamilyDb) (family : Family × Bool) : Option FamilyDb :=
  if family.2 then insertFamily db family.1 else some db

structure LinkRequest where
  primaryMatter : Matter
  targetMatter : Matter
  explicitFamilyKey : Option Text
  preferPrimary : Bool

def resolved (db : FamilyDb) (q : LinkRequest) : Family × Bool :=
  resolveFamilyForLink T env db (familyIdsOf db q.primaryMatter.matterId)
    (familyIdsOf db q.targetMatter.matterId) q.explicitFamilyKey q.preferPrimary
    (q.primaryMatter.ourRef.getD []) (q.targetMatter.ourRef.getD [])

/-- `mayEdit` is what the actor may edit; without an actor it holds of all matters. -/
def linkMattersIntoFamily (mayEdit : Text → Bool) (db : FamilyDb) (q : LinkRequest) :
    Option (FamilyDb × Family × Bool) := do
  guard (q.primaryMatter.matterId ≠ q.targetMatter.matterId)
  guard (mayEdit q.targetMatter.matterId)
  let ids := familyIdsOf db q.primaryMatter.matterId ++ familyIdsOf db q.targetMatter.matterId
  let family := resolved T env db q
  let found ← withFamily db family
  let merged := (mergeFamiliesInto before found (pyStrip family.1.familyId) ids).1
  let withPrimary ← ensureLink env merged q.primaryMatter.matterId family.1.familyId
  let linked ← ensureLink env withPrimary q.targetMatter.matterId family.1.familyId
  pure (linked, family)

def linkMatterToFamilyId (mayEdit : Text → Bool) (db : FamilyDb) (matter : Matter) (familyId : Text) :
    Option (FamilyDb × Family) := do
  guard (pyStrip familyId ≠ [])
  let family ← db.families.find (pyStrip familyId)
  let members := ((db.links.rows.filter (fun r => r.familyId = family.familyId)).map
    (fun r => pyStrip r.matterId)).filter (· ≠ [])
  guard (members.all mayEdit)
  let linked ← ensureLink env db matter.matterId family.familyId
  pure (linked, family)

/-- `DELETE FROM matter_family` for a matter that is deleted. -/
def removeMatter (db : FamilyDb) (matterId : Text) : FamilyDb :=
  { db with links := db.links.delete (fun r => r.matterId = matterId) }

end Link

/-- Texts that are added to a set. -/
def addAll (known found : List Text) : List Text := (found.filter (· ≠ [])).foldl (keepFirst id) known

/-- The families and the matters that are known. -/
structure Known where
  fams : List Text
  mids : List Text
  deriving DecidableEq

def expand (rows : List MatterFamily) (known : Known) : Known :=
  let fams := addAll known.fams ((rows.filter (fun r => r.matterId ∈ known.mids)).map (fun r => pyStrip r.familyId))
  ⟨fams, addAll known.mids ((rows.filter (fun r => r.familyId ∈ fams)).map (fun r => pyStrip r.matterId))⟩

/-- At most so many rounds, until one finds nothing new. -/
def collectRounds (rows : List MatterFamily) : Nat → Known → Known
  | 0, known => known
  | n + 1, known => if expand rows known = known then known else collectRounds rows n (expand rows known)

def collectConnectedFamilyComponent (db : FamilyDb) (seedMatterIds seedFamilyIds : List Text) : Known :=
  collectRounds db.links.rows 64
    ⟨addAll [] (seedFamilyIds.map pyStrip), addAll [] (seedMatterIds.map pyStrip)⟩

/-- Families with less than two links go. The ids are stripped ones, as the counts are. -/
def cleanupDegenerateFamilies (db : FamilyDb) (familyIds : List Text) : FamilyDb :=
  let cleanupIds := familyIds.filter (fun f => f ≠ [] ∧ db.links.rows.countP (fun r => r.familyId = f) < 2)
  { families := db.families.delete (fun f => f.familyId ∈ cleanupIds)
    links := db.links.delete (fun r => r.familyId ∈ cleanupIds) }

/-- The matter leaves the families. -/
def leaveFamilies (db : FamilyDb) (matterId : Text) (familyIds : List Text) : FamilyDb :=
  let leaves := fun r : MatterFamily => decide (r.matterId = matterId ∧ r.familyId ∈ familyIds)
  if db.links.rows.any leaves then
    cleanupDegenerateFamilies { db with links := db.links.delete leaves } familyIds
  else db

def familyDisconnect (mayEdit : Text → Bool) (db : FamilyDb) (caseId targetId : Text) : Option FamilyDb := do
  guard (caseId ≠ targetId)
  guard (mayEdit caseId ∧ mayEdit targetId)
  let source := (collectConnectedFamilyComponent db [caseId] []).fams
  let target := (collectConnectedFamilyComponent db [targetId] []).fams
  pure (leaveFamilies db targetId (source.filter (· ∈ target)))

inductive FamilyCall
  | link (env : LinkEnv) (mayEdit : Text → Bool) (q : LinkRequest)
  | enter (env : LinkEnv) (mayEdit : Text → Bool) (matter : Matter) (familyId : Text)
  | disconnect (mayEdit : Text → Bool) (source target : Matter)
  | remove (matterId : Text)

section Step

variable (T : UnicodeTables) (before : MatterFamily → MatterFamily → Bool)

def familyStep (db : FamilyDb) : FamilyCall → Option FamilyDb
  | .link env mayEdit q => (linkMattersIntoFamily T before env mayEdit db q).map Prod.fst
  | .enter env mayEdit matter familyId => (linkMatterToFamilyId env mayEdit db matter familyId).map Prod.fst
  | .disconnect mayEdit source target => familyDisconnect mayEdit db source.matterId target.matterId
  | .remove matterId => some (removeMatter db matterId)

end Step

/-- `link_matter_to_family_id` is called for a matter that has just been created. -/
def FamilyCall.Admitted (db : FamilyDb) : FamilyCall → Prop
  | .enter _ _ matter _ => ∀ r ∈ db.links.rows, r.matterId ≠ matter.matterId
  | _ => True

end IpDocket.Matters
