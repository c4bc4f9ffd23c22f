import IpDocket.Lib.Json
import IpDocket.Search.DatabaseSearch

/-!
# Groups of history rows

The groups that a user merges in the history of a matter are kept as JSON. They are brought into a normal
form each time they are read, and made disjoint: a group has those of its rows that no earlier group has
claimed, and is dropped if too few are left.
-/

namespace IpDocket.History
open IpDocket.Lib IpDocket.Search

def maxHistoryMergeGroups : Nat := 400

def maxHistoryMergeMembers : Nat := 4000

/-- A group in normal form; who created and updated it is any value. -/
structure MergeGroup (F : Type) where
  groupId : Text
  title : Text
  memberKeys : List Text
  collapsed : Bool
  createdAt : Option Text
  createdBy : Json F
  updatedAt : Option Text
  updatedBy : Json F

section Normalize

variable {T : UnicodeTables} (H : PyHost T)

/-- `str(raw or "")`. -/
def strOrEmpty (raw : Json H.floats.carrier) : Text := pyStr H (pyOr H raw (.str []))

def normalizeHistoryRowKey (raw : Json H.floats.carrier) : Text :=
  let txt := pyStrip (strOrEmpty H raw)
  let kind := (pyStrip (txt.takeWhile (· ≠ ':'))).map asciiLower
  let rowId := pyStrip ((txt.dropWhile (· ≠ ':')).drop 1)
  if ':' ∉ txt then []
  else if (kind ≠ "notice".toList ∧ kind ≠ "letter".toList) ∨ rowId = [] then []
  else kind ++ ':' :: rowId

/-- The loop over the rows of a group, which ends when there are so many. -/
def memberKeysFrom : Nat → List Text → List (Json H.floats.carrier) → List Text
  | 0, _, _ => []
  | _, _, [] => []
  | room + 1, seen, raw :: rest =>
    if normalizeHistoryRowKey H raw = [] ∨ normalizeHistoryRowKey H raw ∈ seen then
      memberKeysFrom (room + 1) seen rest
    else normalizeHistoryRowKey H raw ::
      memberKeysFrom room (normalizeHistoryRowKey H raw :: seen) rest

def normalizeHistoryMemberKeys : Json H.floats.carrier → List Text
  | .arr items => memberKeysFrom H maxHistoryMergeMembers [] items
  | _ => []

/-- `" ".join(txt.split()).strip()`, cut to 300 characters; without a fallback title. -/
def normalizeHistoryGroupTitle (raw : Json H.floats.carrier) : Text :=
  let title := pyStrip ([' '].intercalate (pySplit (strOrEmpty H raw)))
  if 300 < title.length then ((title.take 300).reverse.dropWhile pyIsSpace).reverse else title

/-- `str(raw or "").strip() or None`. -/
def stripOrNone (raw : Json H.floats.carrier) : Option Text :=
  if pyStrip (strOrEmpty H raw) = [] then none else some (pyStrip (strOrEmpty H raw))

/-- The group of the fields, whether or not it is kept. `newId` is `uuid.uuid4().hex`. -/
def normalizeGroup (newId : Text) (fields : List (Text × Json H.floats.carrier)) :
    MergeGroup H.floats.carrier where
  groupId :=
    let given := pyStrip (strOrEmpty H (pyOr H (field fields "group_id".toList) (field fields "id".toList)))
    if given = [] then newId else given
  title := normalizeHistoryGroupTitle H (pyOr H (field fields "title".toList) (field fields "name".toList))
  memberKeys :=
    normalizeHistoryMemberKeys H (pyOr H (field fields "member_keys".toList) (field fields "rows".toList))
  collapsed := match field fields "collapsed".toList with
    | .null => true
    | v => pyTruthy H v
  createdAt := stripOrNone H (field fields "created_at".toList)
  createdBy := field fields "created_by".toList
  updatedAt := stripOrNone H (field fields "updated_at".toList)
  updatedBy := field fields "updated_by".toList

/-- The loop over the groups, which ends when there are so many. `newId` gives the ids that are generated,
by how many groups follow. -/
def normalizeFrom (newId : Nat → Text) : Nat → List Text → List (Json H.floats.carrier) →
    List (MergeGroup H.floats.carrier)
  | 0, _, _ => []
  | _, _, [] => []
  | room + 1, seen, .obj fields :: rest =>
    let group := normalizeGroup H (newId rest.length) fields
    if group.groupId ∈ seen ∨ group.memberKeys.length < 2 then normalizeFrom newId (room + 1) seen rest
    else group :: normalizeFrom newId room (group.groupId :: seen) rest
  | room + 1, seen, _ :: rest => normalizeFrom newId (room + 1) seen rest

def normalizeHistoryMergeGroups (newId : Nat → Text) : Json H.floats.carrier →
    List (MergeGroup H.floats.carrier)
  | .arr items => normalizeFrom H newId maxHistoryMergeGroups [] items
  | _ => []

end Normalize

section Overlap

variable {F : Type}

/-- The keys that are not claimed yet, and what is claimed afterwards. -/
def claim : List Text → List Text → List Text × List Text
  | claimed, [] => ([], claimed)
  | claimed, key :: keys =>
    if key ∈ claimed then claim claimed keys
    else (key :: (claim (claimed ++ [key]) keys).1, (claim (claimed ++ [key]) keys).2)

/-- The loop of `ensure_non_overlapping_history_merge_groups`: a group that is dropped has claimed its
keys all the same. -/
def ensureFrom (minMembers : Int) : List Text → List (MergeGroup F) → List (MergeGroup F)
  | _, [] => []
  | claimed, g :: groups =>
    let (keys, claimed) := claim claimed g.memberKeys
    if keys.length < minMembers then ensureFrom minMembers claimed groups
    else { g with memberKeys := keys } :: ensureFrom minMembers claimed groups

end Overlap

section Ensure

variable {T : UnicodeTables} (H : PyHost T)

/-- A group as the `dict` that it is. -/
def MergeGroup.toJson (g : MergeGroup H.floats.carrier) : Json H.floats.carrier :=
  .obj [("group_id".toList, .str g.groupId), ("title".toList, .str g.title),
    ("member_keys".toList, .arr (g.memberKeys.map .str)), ("collapsed".toList, .bool g.collapsed),
    ("created_at".toList, g.createdAt.elim .null .str), ("created_by".toList, g.createdBy),
    ("updated_at".toList, g.updatedAt.elim .null .str), ("updated_by".toList, g.updatedBy)]

/-- `ensure_non_overlapping_history_merge_groups`. -/
def ensureNonOverlapping (newId : Nat → Text) (groups : List (MergeGroup H.floats.carrier))
    (minMembers : Int) : List (MergeGroup H.floats.carrier) :=
  ensureFrom (max 1 (if minMembers = 0 then 1 else minMembers)) []
    (normalizeHistoryMergeGroups H newId (.arr (groups.map (MergeGroup.toJson H))))

end Ensure
end IpDocket.History
