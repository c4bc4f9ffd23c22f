import IpDocket.Lib.Text
import Mathlib.Data.Char
import Mathlib.Data.List.Lex

/-!
# Merging the tasks of one docket item

The work list shows the tasks that were made for one docket item as one. The first task of a group is
copied, the later ones are added to it, and what was collected is made into the row that is shown.
-/

namespace IpDocket.Tasks.Merge
open IpDocket.Lib

/-- A value of a task: `other` is no text, and not equal to one. -/
inductive Value (O : Type)
  | none
  | text (t : Text)
  | other (o : O)

/-- `bool` and `str` of the other values, and `str.lower`. -/
structure Objects (O : Type) where
  truthy : O → Bool
  str : O → Text
  lower : Text → Text

/-- A row of the staff, which is a `dict` with these fields. -/
structure StaffRow (O : Type) where
  id : Value O
  name : Value O

structure TaskRow (O : Type) where
  id : Value O
  linkedDocketId : Value O
  autoDocketGenerated : Bool
  status : Option Text
  categoryDisplay : Value O
  categoryType : Value O
  owners : List (StaffRow O)
  ownerName : Value O
  ownerId : Value O
  taskName : Value O
  dueDate : Value O
  finalDueDate : Value O
  internalDueDate : Value O
  doneDate : Value O
  workflowLinkId : Value O
  completionRecommendation : Bool
  completionRecommendationKind : Value O
  completionRecommendationText : Value O
  attorneys : List (StaffRow O)
  handlers : List (StaffRow O)
  managers : List (StaffRow O)
  workflowAssigneeFilterIds : List (Value O)

/-- What is collected for a group. -/
structure Bucket (O : Type) where
  id : Value O
  taskName : Value O
  workflowLinkId : Value O
  statuses : List Text
  categoryLabels : List Text
  categoryTypes : List Text
  ownerRows : List (StaffRow O)
  taskNames : List Text
  dueValues : List Text
  finalDueValues : List Text
  internalDueValues : List Text
  doneValues : List Text
  workflowLinkIds : List Text
  completionRecommendation : Bool
  completionRecommendationKind : Value O
  completionRecommendationText : Value O
  completionRecoTexts : List Text
  attorneysRows : List (StaffRow O)
  handlersRows : List (StaffRow O)
  managersRows : List (StaffRow O)
  workflowAssigneeFilterIds : List (Value O)

/-- The row that is shown for a group. -/
structure MergedTask (O : Type) where
  id : Value O
  status : Text
  dueDate : Option Text
  originalDue : Option Text
  finalDueDate : Option Text
  internalDueDate : Option Text
  extendedDue : Option Text
  doneDate : Option Text
  taskName : Value O
  workflowLinkId : Value O
  categoryType : Text
  categoryDisplay : Text
  owners : List (StaffRow O)
  ownerName : Text
  ownerId : Option Text
  attorneys : List (StaffRow O)
  handlers : List (StaffRow O)
  managers : List (StaffRow O)
  attorneyNames : Text
  handlerNames : Text
  managerNames : Text
  workflowAssigneeFilterIds : List Text
  completionRecommendation : Bool
  completionRecommendationKind : Value O
  completionRecommendationText : Value O

/-- The values without those whose key was seen: `if key in seen: continue`. -/
def dedupe {α β : Type} [DecidableEq β] (key : α → β) : List β → List α → List α
  | _, [] => []
  | seen, x :: xs =>
    if key x ∈ seen then dedupe key seen xs else x :: dedupe key (key x :: seen) xs

/-- `if value not in values: values.append(value)`, one value after the other. -/
def addNew (values : List Text) : List Text → List Text
  | [] => values
  | value :: rest => if value ∈ values then addNew values rest else addNew (values ++ [value]) rest

/-- `text.split(",")`. -/
def splitCommas (t : Text) : List Text := t.splitOn ','

/-- The least text, by code points. -/
def minText : List Text → Option Text
  | [] => none
  | t :: ts => some (ts.foldl min t)

def maxText : List Text → Option Text
  | [] => none
  | t :: ts => some (ts.foldl max t)

section Values

variable {O : Type} (V : Objects O)

def isTrue : Value O → Bool
  | .none => false
  | .text t => t ≠ []
  | .other o => V.truthy o

/-- `str(value or "")`. -/
def strOr : Value O → Text
  | .none => []
  | .text t => t
  | .other o => if V.truthy o then V.str o else []

/-- `str(value or "").strip()`. -/
def strip (v : Value O) : Text := pyStrip (strOr V v)

/-- A value as it stands in an f-string. -/
def format : Value O → Text
  | .none => "None".toList
  | .text t => t
  | .other o => V.str o

def mergeCsvNames (values : List Text) : Text :=
  ", ".toList.intercalate (dedupe id []
    ((values.flatMap (fun raw => (splitCommas raw).map pyStrip)).filter (· ≠ [])))

/-- The key of a row is its id, or else its name. -/
def staffKey (row : StaffRow O) : Text := if strip V row.id = [] then strip V row.name else strip V row.id

def dedupeStaffRows (values : List (StaffRow O)) : List (StaffRow O) :=
  ((dedupe (staffKey V) [] (values.filter (fun row => staffKey V row ≠ [])))).map (fun row =>
    { id := if strip V row.id = [] then .none else .text (strip V row.id)
      name := .text (strip V row.name) })

def categoryTypesFromValue (raw : Value O) : List Text :=
  let s := V.lower (strip V raw)
  if s = [] then []
  else if s ∈ ["mixed".toList, "hybrid".toList] then ["mgmt".toList, "work".toList]
  else if s ∈ ["mgmt".toList, "work".toList] then [s]
  else if s ∈ ["mgmt_work".toList, "work_mgmt".toList] then ["mgmt".toList, "work".toList]
  else []

def categoryLabelsFromValue (raw : Value O) : List Text :=
  dedupe id [] (((splitCommas (strOr V raw)).map pyStrip).filter (· ≠ []))

def mergeTaskStatuses (statuses : List Text) : Text :=
  let normalized := ((statuses.map pyStrip).filter (· ≠ [])).map V.lower
  if "overdue".toList ∈ normalized then "overdue".toList
  else if "urgent".toList ∈ normalized then "urgent".toList
  else if "pending".toList ∈ normalized then "pending".toList
  else if "completed".toList ∈ normalized then "completed".toList
  else if "abandoned".toList ∈ normalized then "abandoned".toList
  else "pending".toList

/-- The group of a task: its docket item, or itself. -/
def groupKey (task : TaskRow O) : Text :=
  if strip V task.linkedDocketId ≠ [] ∧ task.autoDocketGenerated then
    "docket:".toList ++ strip V task.linkedDocketId
  else "wf:".toList ++ format V task.id

/-- `(task.get("status") or "pending").strip().lower()`. -/
def statusOf (task : TaskRow O) : Text :=
  V.lower (pyStrip (if task.status.getD [] = [] then "pending".toList else task.status.getD []))

/-- A value that is there, as a list. -/
def present (t : Text) : List Text := if t = [] then [] else [t]

/-- The owner without a row of staff. -/
def ownerRow (task : TaskRow O) : StaffRow O where
  id := if strip V task.ownerId = [] then .none else .text (strip V task.ownerId)
  name := .text (if strip V task.ownerName = [] then strip V task.ownerId else strip V task.ownerName)

/-- `bucket is None`: the first task of a group. -/
def firstBucket (task : TaskRow O) : Bucket O where
  id := if strip V task.linkedDocketId ≠ [] ∧ task.autoDocketGenerated then
      .text (strip V task.linkedDocketId) else task.id
  taskName := task.taskName
  workflowLinkId := task.workflowLinkId
  statuses := [statusOf V task]
  categoryLabels := addNew [] (categoryLabelsFromValue V task.categoryDisplay)
  categoryTypes := addNew [] (categoryTypesFromValue V task.categoryType)
  ownerRows :=
    if task.owners = [] then
      if strip V task.ownerName ≠ [] ∨ strip V task.ownerId ≠ [] then [ownerRow V task] else []
    else task.owners
  taskNames := present (strip V task.taskName)
  dueValues := present (strip V task.dueDate)
  finalDueValues := present (strip V task.finalDueDate)
  internalDueValues := present (strip V task.internalDueDate)
  doneValues := present (strip V task.doneDate)
  workflowLinkIds := present (strip V task.workflowLinkId)
  completionRecommendation := task.completionRecommendation
  completionRecommendationKind := task.completionRecommendationKind
  completionRecommendationText := task.completionRecommendationText
  completionRecoTexts :=
    if task.completionRecommendation then present (strip V task.completionRecommendationText) else []
  attorneysRows := task.attorneys
  handlersRows := task.handlers
  managersRows := task.managers
  workflowAssigneeFilterIds := task.workflowAssigneeFilterIds

/-- `owner_key in known`, where the keys of the rows are `o.get("id") or o.get("name") or ""`. -/
def isKnown (ownerKey : Text) (rows : List (StaffRow O)) : Bool :=
  rows.any (fun row =>
    if isTrue V row.id then
      match row.id with
      | .text t => t = ownerKey
      | _ => false
    else if isTrue V row.name then
      match row.name with
      | .text t => t = ownerKey
      | _ => false
    else ownerKey = [])

/-- A later task of the group. -/
def addTask (bucket : Bucket O) (task : TaskRow O) : Bucket O :=
  let ownerKey := if strip V task.ownerId = [] then strip V task.ownerName else strip V task.ownerId
  let recommended := task.completionRecommendation
  { bucket with
    statuses := bucket.statuses ++ [statusOf V task]
    categoryLabels := addNew bucket.categoryLabels (categoryLabelsFromValue V task.categoryDisplay)
    categoryTypes := addNew bucket.categoryTypes (categoryTypesFromValue V task.categoryType)
    ownerRows :=
      if task.owners ≠ [] then bucket.ownerRows ++ task.owners
      else if (strip V task.ownerName ≠ [] ∨ strip V task.ownerId ≠ []) ∧
          isKnown V ownerKey bucket.ownerRows = false then bucket.ownerRows ++ [ownerRow V task]
      else bucket.ownerRows
    taskNames := addNew bucket.taskNames (present (strip V task.taskName))
    dueValues := bucket.dueValues ++ present (strip V task.dueDate)
    finalDueValues := bucket.finalDueValues ++ present (strip V task.finalDueDate)
    internalDueValues := bucket.internalDueValues ++ present (strip V task.internalDueDate)
    doneValues := bucket.doneValues ++ present (strip V task.doneDate)
    workflowLinkIds := addNew bucket.workflowLinkIds (present (strip V task.workflowLinkId))
    completionRecommendation := bucket.completionRecommendation || recommended
    completionRecommendationKind :=
      if recommended ∧ strip V bucket.completionRecommendationKind = [] then
        task.completionRecommendationKind else bucket.completionRecommendationKind
    completionRecoTexts :=
      if recommended then
        addNew bucket.completionRecoTexts (present (strip V task.completionRecommendationText))
      else bucket.completionRecoTexts
    attorneysRows := bucket.attorneysRows ++ task.attorneys
    handlersRows := bucket.handlersRows ++ task.handlers
    managersRows := bucket.managersRows ++ task.managers
    workflowAssigneeFilterIds := bucket.workflowAssigneeFilterIds ++ task.workflowAssigneeFilterIds }

/-- The groups so far, in the order of their first tasks. -/
def mergeTaskRow (task : TaskRow O) : List (Text × Bucket O) → List (Text × Bucket O)
  | [] => [(groupKey V task, firstBucket V task)]
  | (key, bucket) :: rest =>
    if key = groupKey V task then (key, addTask V bucket task) :: rest
    else (key, bucket) :: mergeTaskRow task rest

/-- The values of `label_to_type`, whose only key is the empty text. -/
def labelToType (label : Text) : Option Text := if label = [] then some "work".toList else none

/-- The types, with those that the labels stand for. -/
def typesOfLabels : List Text → List Text → List Text
  | types, [] => types
  | types, label :: labels =>
    if label = "HYBRID".toList then typesOfLabels (addNew types ["mgmt".toList, "work".toList]) labels
    else typesOfLabels (addNew types ((labelToType label).toList)) labels

/-- The type and the label of a group. -/
def categoryOf (bucket : Bucket O) : Text × Text :=
  let given := bucket.categoryTypes.filter (fun t => t ∈ ["mgmt".toList, "work".toList])
  let labels := bucket.categoryLabels.filter (· ≠ [])
  let types := typesOfLabels given labels
  if types ≠ [] then
    if "mgmt".toList ∈ types ∧ "work".toList ∈ types then ("hybrid".toList, "HYBRID".toList)
    else if "mgmt".toList ∈ types then ("mgmt".toList, [])
    else ("work".toList, [])
  else if labels ≠ [] then
    let deduped := dedupe id [] labels
    if 1 < deduped.length ∨ deduped = ["HYBRID".toList] then ("hybrid".toList, "HYBRID".toList)
    else ("work".toList, deduped.headD [])
  else ("work".toList, [])

/-- The values that are not empty, stripped. -/
def nonEmptyIsoValues (values : List Text) : List Text := (values.map pyStrip).filter (· ≠ [])

def namesOf (rows : List (StaffRow O)) : Text := mergeCsvNames (rows.map (fun row => strOr V row.name))

def finalizeMergedTaskBucket (bucket : Bucket O) : MergedTask O :=
  let linkId := match bucket.workflowLinkId with
    | .none => (bucket.workflowLinkIds.head?).elim .none .text
    | v => v
  let owners := dedupeStaffRows V bucket.ownerRows
  let ownerNames := namesOf V owners
  let ownerId := match owners with
    | [owner] => if strip V owner.id = [] then none else some (strip V owner.id)
    | _ => none
  { id := bucket.id
    status := mergeTaskStatuses V bucket.statuses
    dueDate := minText (nonEmptyIsoValues bucket.dueValues)
    originalDue := minText (nonEmptyIsoValues bucket.dueValues)
    finalDueDate := minText (nonEmptyIsoValues bucket.finalDueValues)
    internalDueDate := minText (nonEmptyIsoValues bucket.internalDueValues)
    extendedDue := minText (nonEmptyIsoValues bucket.internalDueValues)
    doneDate := maxText (nonEmptyIsoValues bucket.doneValues)
    taskName := if bucket.taskNames = [] then bucket.taskName
      else .text (" / ".toList.intercalate bucket.taskNames)
    workflowLinkId :=
      if isTrue V linkId = false ∧ "wf_".toList.isPrefixOf (strip V bucket.id) then .text (strip V bucket.id)
      else linkId
    categoryType := (categoryOf bucket).1
    categoryDisplay := (categoryOf bucket).2
    owners := owners
    ownerName := match ownerId with
      | some ownerId => if ownerNames = [] then ownerId else ownerNames
      | none => ownerNames
    ownerId := ownerId
    attorneys := dedupeStaffRows V bucket.attorneysRows
    handlers := dedupeStaffRows V bucket.handlersRows
    managers := dedupeStaffRows V bucket.managersRows
    attorneyNames := namesOf V (dedupeStaffRows V bucket.attorneysRows)
    handlerNames := namesOf V (dedupeStaffRows V bucket.handlersRows)
    managerNames := namesOf V (dedupeStaffRows V bucket.managersRows)
    workflowAssigneeFilterIds :=
      dedupe id [] ((bucket.workflowAssigneeFilterIds.map (strip V)).filter (· ≠ []))
    completionRecommendation := bucket.completionRecommendation
    completionRecommendationKind := bucket.completionRecommendationKind
    completionRecommendationText :=
      (bucket.completionRecoTexts.head?).elim bucket.completionRecommendationText .text }

/-- The groups of the tasks with what was collected for each. -/
def groupTasks (tasks : List (TaskRow O)) : List (Text × Bucket O) :=
  tasks.foldl (fun grouped task => mergeTaskRow V task grouped) []

def mergeDocketAutogenTasks (tasks : List (TaskRow O)) : List (MergedTask O) :=
  (groupTasks V tasks).map (fun group => finalizeMergedTaskBucket V group.2)

end Values
end IpDocket.Tasks.Merge
