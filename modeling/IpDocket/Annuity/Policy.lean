import IpDocket.Lib.DateArithmetic

/-!
# Annuity rows, their dates and their status

The dates of an annuity row are texts. `parseDate` searches such a text for the pattern
`(?<!\d)(\d{4})[-./\s]+(\d{1,2})[-./\s]+(\d{1,2})(?!\d)`. The separators are no digits, so that
each group takes a whole run of digits.
-/

namespace IpDocket.Annuity
open IpDocket.Lib

/-- A row of `annuity_item`. The pair of matter and cycle is unique. -/
structure AnnuityItem where
  annuityId : Text
  matterId : Text
  ownerStaffPartyId : Option Text := none
  cycleNo : Int
  annuityStatus : Option Text := some "pending".toList
  dueDate : Option Text := none
  extendedDueDate : Option Text := none
  renewalOpenDate : Option Text := none
  renewalNoticeDue : Option Text := none
  paidDate : Option Text := none
  paidAmount : Option Int := none
  internalDueDate : Option Text := none
  memo : Option Text := none
  isDeleted : Bool := false
  deletedAt : Option Nat := none
  deletedBy : Option Nat := none
  deleteReason : Option Text := none
  deletedOpId : Option Nat := none
  deriving DecidableEq

section Dates

variable (T : UnicodeTables)

def isDateSeparator (c : Char) : Bool := c = '-' || c = '.' || c = '/' || pyIsSpace c

/-- A run of digits whose length is one of `lengths`, and the rest. -/
def digitRun (lengths : List Nat) (t : Text) : Option (Nat × Text) :=
  let ds := t.takeWhile (fun c => (T.decimal c).isSome)
  if ds.length ∈ lengths then some (decimalValue T ds, t.drop ds.length) else none

def separatorRun (t : Text) : Option Text :=
  if t.head?.any isDateSeparator then some (t.dropWhile isDateSeparator) else none

/-- The pattern at the start of the text. -/
def dateAt (t : Text) : Option (Nat × Nat × Nat) := do
  let (year, t) ← digitRun T [4] t
  let t ← separatorRun t
  let (month, t) ← digitRun T [1, 2] t
  let t ← separatorRun t
  let (day, _) ← digitRun T [1, 2] t
  return (year, month, day)

/-- The first match; `afterDigit` says that the character before the text is a digit. -/
def searchDate : (afterDigit : Bool) → Text → Option (Nat × Nat × Nat)
  | _, [] => none
  | afterDigit, c :: t =>
    match (if afterDigit then none else dateAt T (c :: t)) with
    | some found => some found
    | none => searchDate (T.decimal c).isSome t

/-- `parse_date` of a text column. -/
def parseDate (value : Option Text) : Option PyDate :=
  (searchDate T false (pyStrip (value.getD []))).bind (fun (y, m, d) => PyDate.make y m d)

/-- `strftime("%Y-%m-%d")`, which does not fill up the year. -/
def strftime (d : PyDate) : Text :=
  pyDigits d.year ++ '-' :: padLeft '0' 2 (pyDigits d.month) ++ '-' :: padLeft '0' 2 (pyDigits d.day)

def effectiveDueDateStr (ai : AnnuityItem) : Option Text :=
  let internal := parseDate T ai.internalDueDate
  let legal := (parseDate T ai.dueDate).or (parseDate T ai.extendedDueDate)
  match internal, legal with
  | some i, some l => some (strftime (if l.key < i.key then l else i))
  | some i, none => some (strftime i)
  | none, some l => some (strftime l)
  | none, none => none

end Dates

inductive Status
  | pending
  | overdue
  | paid
  | giveup
  deriving DecidableEq

def isGiveupWord (v : Text) : Bool :=
  v ∈ ["giveup", "give_up", "give-up", "abandoned", "waived", "forfeit"].map String.toList

def isPaidWord (v : Text) : Bool :=
  v ∈ ["paid", "payed", "done", "complete", "completed"].map String.toList

/-- `normalize_status`: the branches after `Receipt` all give `pending`, except for a text with
`Payment` and `Done`, which the branch for `Done` has taken before. -/
def normalizeStatus (raw : Option Text) : Status :=
  let text := pyStrip (raw.getD [])
  let v := text.map asciiLower
  if text = [] then .pending
  else if isGiveupWord v then .giveup
  else if "Abandoned".toList <:+: text ∨ "Withdrawn".toList <:+: text then .giveup
  else if isPaidWord v then .paid
  else if "Done".toList <:+: text then .pending
  else if "Receipt".toList <:+: text then .paid
  else .pending

variable (T : UnicodeTables)

/-- `compute_status`. -/
def computeStatus (today : PyDate) (ai : AnnuityItem) : Status :=
  match normalizeStatus ai.annuityStatus with
  | .paid => .paid
  | .giveup => .giveup
  | _ =>
    if (parseDate T ai.paidDate).isSome then .paid
    else if (parseDate T (effectiveDueDateStr T ai)).any (fun d => d.key < today.key) then .overdue
    else .pending

example : parseDate asciiTables (some "due 2026. 3/05, ".toList) = PyDate.make 2026 3 5 := by decide +kernel

end IpDocket.Annuity
