import IpDocket.Lib.JsonEquality

/-!
# Merging the profiles of clients

`_merge_client_profile` takes the columns and the JSON column `extra` of the clients that are merged
into those of the target. A column that is blank is filled, an object is filled key by key, a list is
extended by what it has not got, and a value that is in conflict with the one of the target is written
down in `extra["merge_overflow"]`. Only scalars can be written there.
-/

namespace IpDocket.Clients
open IpDocket.Lib

/-- The value of a column: most are texts, `ipm_client_id` is an integer. -/
inductive Column
  | null
  | text (t : Text)
  | int (n : ℤ)
  deriving DecidableEq

inductive ColumnName
  | partyId | ipmPartyId | ipmClientId
  | type | registrationNumber | contactPerson | manager | email | phone | address
  | bizRegNumber | bizCompanyName | bizRepresentativeName | bizOpeningDate
  | bizCorpRegistrationNumber | bizBusinessLocation | bizHeadOfficeLocation | bizBusinessType
  | bizTaxInvoiceEmail
  deriving DecidableEq

/-- `_CLIENT_MERGE_UNIQUE_FIELDS`. -/
def uniqueFields : List ColumnName := [.partyId, .ipmPartyId, .ipmClientId]

/-- `_CLIENT_MERGE_FILL_FIELDS`. -/
def fillFields : List ColumnName :=
  [.type, .registrationNumber, .contactPerson, .manager, .email, .phone, .address, .bizRegNumber,
    .bizCompanyName, .bizRepresentativeName, .bizOpeningDate, .bizCorpRegistrationNumber,
    .bizBusinessLocation, .bizHeadOfficeLocation, .bizBusinessType, .bizTaxInvoiceEmail]

def ColumnName.key : ColumnName → Text
  | .partyId => "party_id".toList
  | .ipmPartyId => "ipm_party_id".toList
  | .ipmClientId => "ipm_client_id".toList
  | .type => "type".toList
  | .registrationNumber => "registration_number".toList
  | .contactPerson => "contact_person".toList
  | .manager => "manager".toList
  | .email => "email".toList
  | .phone => "phone".toList
  | .address => "address".toList
  | .bizRegNumber => "biz_reg_number".toList
  | .bizCompanyName => "biz_company_name".toList
  | .bizRepresentativeName => "biz_representative_name".toList
  | .bizOpeningDate => "biz_opening_date".toList
  | .bizCorpRegistrationNumber => "biz_corp_registration_number".toList
  | .bizBusinessLocation => "biz_business_location".toList
  | .bizHeadOfficeLocation => "biz_head_office_location".toList
  | .bizBusinessType => "biz_business_type".toList
  | .bizTaxInvoiceEmail => "biz_tax_invoice_email".toList

def Column.toJson {F : Type} : Column → Json F
  | .null => .null
  | .text t => .str t
  | .int n => .int n

section Values

variable {F : Type}

mutual

/-- `_is_blank`. -/
def isBlank : Json F → Bool
  | .null => true
  | .str t => pyStrip t = []
  | .arr items => allBlank items
  | .obj fields => fields.isEmpty
  | _ => false

def allBlank : List (Json F) → Bool
  | [] => true
  | v :: items => isBlank v && allBlank items

end

/-- `_normalize_scalar`. -/
def normalizeScalar : Json F → Json F
  | .str t => .str (pyStrip t)
  | v => v

mutual

/-- The value with the keys of all its objects in order. -/
def sortKeys : Json F → Json F
  | .arr items => .arr (sortKeysItems items)
  | .obj fields => .obj ((sortKeysFields fields).mergeSort (fun a b => a.1 ≤ b.1))
  | v => v

def sortKeysItems : List (Json F) → List (Json F)
  | [] => []
  | v :: items => sortKeys v :: sortKeysItems items

def sortKeysFields : List (Text × Json F) → List (Text × Json F)
  | [] => []
  | (k, v) :: fields => (k, sortKeys v) :: sortKeysFields fields

end

/-- The fields of an object; any other value has none. -/
def fieldsOf : Json F → List (Text × Json F)
  | .obj fields => fields
  | _ => []

/-- The elements of a list; any other value has none. -/
def itemsOf : Json F → List (Json F)
  | .arr items => items
  | _ => []

def isList : Json F → Bool
  | .arr _ => true
  | _ => false

end Values

section Merge

variable {T : UnicodeTables} {H : PyHost T} (E : FloatEquality H)

/-- `_values_equal`. -/
def valuesEqual (left right : Json H.floats.carrier) : Bool :=
  pyEq E (normalizeScalar left) (normalizeScalar right)

/-- `_stringify_overflow_value`. -/
def stringifyOverflowValue (value : Json H.floats.carrier) : Option Text :=
  match value with
  | .null => none
  | .str t => if pyStrip t = [] then none else some (pyStrip t)
  | .arr _ => none
  | .obj _ => none
  | value => some (pyStr H value)

/-- The loop over a bucket: an element that is not a `dict` has no `get`. -/
def bucketHas (serialized : Text) : List (Json H.floats.carrier) → Option Bool
  | [] => some false
  | .obj item :: items =>
    match field item "value".toList with
    | .str t => if t = serialized then some true else bucketHas serialized items
    | _ => bucketHas serialized items
  | _ :: _ => none

/-- `_add_overflow`; the overflow is a `dict` of lists. -/
def addOverflow (overflow : List (Text × Json H.floats.carrier)) (key : Text)
    (value : Json H.floats.carrier) (sourceId : Nat) : Option (List (Text × Json H.floats.carrier)) :=
  match stringifyOverflowValue value with
  | none => some overflow
  | some serialized =>
    let bucket := itemsOf (field overflow key)
    (bucketHas serialized bucket).map (fun found =>
      if found then overflow
      else setField key (.arr (bucket ++ [.obj [("value".toList, .str serialized),
        ("source_id".toList, .int sourceId)]])) overflow)

/-- `_list_item_key`. -/
def listItemKey : Json H.floats.carrier → Text
  | .str t => pyStrip t
  | item => dumps H (sortKeys item)

/-- The items that are not blank, without those whose key has been seen. -/
def uniqueItems (seen : List Text) : List (Json H.floats.carrier) → List (Json H.floats.carrier)
  | [] => []
  | item :: items =>
    if isBlank item ∨ listItemKey item ∈ seen then uniqueItems seen items
    else item :: uniqueItems (listItemKey item :: seen) items

/-- `_merge_list_unique`: the list, and whether anything was added to that of the target. -/
def mergeListUnique (targetList sourceList : List (Json H.floats.carrier)) :
    List (Json H.floats.carrier) × Bool :=
  let out := uniqueItems [] targetList
  let added := uniqueItems (out.map listItemKey) sourceList
  (out ++ added, !added.isEmpty)

/-- What a merge of a value returns: the value of the target, whether it was changed, and the
overflow. -/
structure Merged (α : Type) (H : PyHost T) where
  value : α
  changed : Bool
  overflow : List (Text × Json H.floats.carrier)

/-- A key below a prefix. -/
def below (pre key : Text) : Text := pre ++ '.' :: key

/-- A value that is not equal to that of the target is written down. -/
def recordUnequal (sourceId : Nat) (path : Text) (source target : Json H.floats.carrier)
    (overflow : List (Text × Json H.floats.carrier)) : Option (Merged (Json H.floats.carrier) H) :=
  if valuesEqual E target source then some ⟨target, false, overflow⟩
  else (addOverflow overflow path source sourceId).map (fun o => ⟨target, false, o⟩)

mutual

/-- Two values of which none is blank. -/
def mergeValue (sourceId : Nat) (path : Text) :
    (source target : Json H.floats.carrier) → (overflow : List (Text × Json H.floats.carrier)) →
      Option (Merged (Json H.floats.carrier) H)
  | .obj fields, target, overflow =>
    match target with
    | .obj targetFields =>
      (mergeDictFill sourceId path fields targetFields overflow).map
        (fun m => ⟨.obj m.value, m.changed, m.overflow⟩)
    | target => recordUnequal E sourceId path (.obj fields) target overflow
  | .arr items, target, overflow =>
    match target with
    | .arr targetItems =>
      let (merged, added) := mergeListUnique targetItems items
      some ⟨if added then .arr merged else .arr targetItems, added, overflow⟩
    | target => recordUnequal E sourceId path (.arr items) target overflow
  | source, target, overflow => recordUnequal E sourceId path source target overflow

/-- `_merge_dict_fill`. -/
def mergeDictFill (sourceId : Nat) (pre : Text) :
    (source target overflow : List (Text × Json H.floats.carrier)) →
      Option (Merged (List (Text × Json H.floats.carrier)) H)
  | [], target, overflow => some ⟨target, false, overflow⟩
  | (key, sourceValue) :: source, target, overflow =>
    if isBlank sourceValue then mergeDictFill sourceId pre source target overflow
    else if isBlank (field target key) then
      (mergeDictFill sourceId pre source (setField key sourceValue target) overflow).map
        (fun m => { m with changed := true })
    else
      (mergeValue sourceId (below pre key) sourceValue (field target key) overflow).bind (fun first =>
        (mergeDictFill sourceId pre source (setField key first.value target) first.overflow).map
          (fun m => { m with changed := first.changed || m.changed }))

end

end Merge

/-- `dict` keys are distinct, in all objects of a value. -/
inductive WellKeyed {F : Type} : Json F → Prop
  | null : WellKeyed .null
  | bool (b : Bool) : WellKeyed (.bool b)
  | int (n : ℤ) : WellKeyed (.int n)
  | float (x : F) : WellKeyed (.float x)
  | str (t : Text) : WellKeyed (.str t)
  | arr {items : List (Json F)} (h : ∀ v ∈ items, WellKeyed v) : WellKeyed (.arr items)
  | obj {fields : List (Text × Json F)} (hkeys : (fields.map Prod.fst).Nodup)
      (h : ∀ kv ∈ fields, WellKeyed kv.2) : WellKeyed (.obj fields)

/-- What `_merge_client_profile` reads and writes of a client. -/
structure Profile (F : Type) where
  column : ColumnName → Column
  extra : Json F

/-- A client that is merged into another. -/
structure SourceClient (F : Type) extends Profile F where
  id : Nat
  wellKeyed : WellKeyed extra

section Profiles

variable {T : UnicodeTables} {H : PyHost T} (E : FloatEquality H)

/-- The value of a column. -/
def Profile.get (p : Profile H.floats.carrier) (name : ColumnName) : Json H.floats.carrier :=
  (p.column name).toJson

/-- The sources whose column is not blank. -/
def filledIn (name : ColumnName) (sources : List (SourceClient H.floats.carrier)) :
    List (SourceClient H.floats.carrier) :=
  sources.filter (fun s => !isBlank (s.get name))

/-- Those of the columns that are not equal to one before. -/
def distinctColumns (columns : List Column) : List Column :=
  columns.foldl (fun candidates v =>
    if candidates.all (fun c => !valuesEqual E v.toJson c.toJson) then candidates ++ [v] else candidates) []

/-- `_score` of a column. -/
def score : Column → Nat
  | .text t => (pyStrip t).length
  | _ => 1

/-- `_pick_best_value`: the first of the longest values. -/
def pickBestValue : List Column → Column
  | [] => .null
  | v :: values => values.foldl (fun best w => if score best < score w then w else best) v

/-- A unique field: a blank one takes the only value that the sources have, if it is the only one. The
second part are the sources whose values are written down. -/
def mergeUniqueField (target : Profile H.floats.carrier)
    (sources : List (SourceClient H.floats.carrier)) (name : ColumnName) :
    Column × List (SourceClient H.floats.carrier) :=
  let filled := filledIn name sources
  if isBlank (target.get name) then
    match distinctColumns E (filled.map (fun s => s.column name)) with
    | [] => (target.column name, [])
    | [chosen] => (chosen, [])
    | _ => (target.column name, filled)
  else (target.column name,
    filled.filter (fun s => !valuesEqual E (s.get name) (target.get name)))

/-- A fill field: a blank one takes the best value of the sources. -/
def mergeFillField (target : Profile H.floats.carrier)
    (sources : List (SourceClient H.floats.carrier)) (name : ColumnName) :
    Column × List (SourceClient H.floats.carrier) :=
  let filled := filledIn name sources
  let kept := if isBlank (target.get name) ∧ filled ≠ [] then
    pickBestValue (filled.map (fun s => s.column name)) else target.column name
  (kept, filled.filter (fun s => !valuesEqual E (s.get name) kept.toJson))

def mergeField (target : Profile H.floats.carrier) (sources : List (SourceClient H.floats.carrier))
    (name : ColumnName) : Column × List (SourceClient H.floats.carrier) :=
  if name ∈ uniqueFields then mergeUniqueField E target sources name
  else mergeFillField E target sources name

/-- The values of the columns that are written down, in the order of the loops. -/
def columnConflicts (target : Profile H.floats.carrier)
    (sources : List (SourceClient H.floats.carrier)) : List (ColumnName × SourceClient H.floats.carrier) :=
  (uniqueFields ++ fillFields).flatMap (fun name =>
    (mergeField E target sources name).2.map (fun s => (name, s)))

def recordColumns : List (ColumnName × SourceClient H.floats.carrier) →
    (overflow : List (Text × Json H.floats.carrier)) → Option (List (Text × Json H.floats.carrier))
  | [], overflow => some overflow
  | (name, s) :: conflicts, overflow =>
    (addOverflow overflow name.key (s.get name) s.id).bind (recordColumns conflicts)

/-- `_EXTRA_MERGE_SKIP_KEYS`. -/
def extraMergeSkipKeys : List Text :=
  ["merge_overflow".toList, "_merge_overflow".toList, "biz_reg_file".toList]

/-- The fields of `extra` that are merged. -/
def mergedKeys (s : SourceClient H.floats.carrier) : List (Text × Json H.floats.carrier) :=
  (fieldsOf s.extra).filter (fun kv => kv.1 ∉ extraMergeSkipKeys)

/-- The `extra` of one source after the other. -/
def mergeExtras : List (SourceClient H.floats.carrier) →
    (target overflow : List (Text × Json H.floats.carrier)) →
      Option (Merged (List (Text × Json H.floats.carrier)) H)
  | [], target, overflow => some ⟨target, false, overflow⟩
  | s :: sources, target, overflow =>
    (mergeDictFill E s.id "extra".toList (mergedKeys s) target overflow).bind (fun first =>
      (mergeExtras sources first.value first.overflow).map
        (fun m => { m with changed := first.changed || m.changed }))

/-- What an earlier merge wrote down, as far as it is a `dict` of lists. -/
def overflowExisting (extra : Json H.floats.carrier) : List (Text × Json H.floats.carrier) :=
  (fieldsOf (field (fieldsOf extra) "merge_overflow".toList)).filter (fun kv => isList kv.2)

/-- `_merge_client_profile`: the target as it is left; `none` when it raises. -/
def mergeClientProfile (target : Profile H.floats.carrier)
    (sources : List (SourceClient H.floats.carrier)) : Option (Profile H.floats.carrier) :=
  (recordColumns (columnConflicts E target sources) (overflowExisting target.extra)).bind (fun overflow =>
    (mergeExtras E sources (fieldsOf target.extra) overflow).map (fun m =>
      { column := fun name => (mergeField E target sources name).1
        extra :=
          if m.changed ∨ m.overflow ≠ [] then
            .obj (if m.overflow ≠ [] then setField "merge_overflow".toList (.obj m.overflow) m.value
              else m.value)
          else target.extra }))

end Profiles

end IpDocket.Clients
