import IpDocket.Deadlines.DoneDates
import IpDocket.Lib.Json

/-!
# Docket rows

The columns of `docket_item` that `docket_service.py` reads or writes, and the readings of their
texts. `_parse_memo_json` takes the fields of a memo that is a JSON object, and no fields of any other.
-/

namespace IpDocket.Deadlines
open IpDocket.Lib IpDocket.Deletion

/-- A row of `docket_item`; the memo is the value of its text, if that is JSON. The ids are made by
`uuid4().hex`. -/
structure DocketItem (F : Type) where
  docketId : Text
  docketId_ne : docketId ≠ [] := by decide
  matterId : Text
  category : Text
  nameRef : Option Text := none
  nameFree : Option Text := none
  dueDate : Option Text := none
  extendedDueDate : Option Text := none
  doneDate : Option Text := none
  ownerStaffPartyId : Option Text := none
  memo : Option (Json F) := none
  isDeleted : Bool := false

lemma docketId_ne_of_row {T : UnicodeTables} {H : PyHost T} (r : DocketItem H.floats.carrier) :
    r.docketId ≠ [] := r.docketId_ne

/-- `not (text or "").strip()`. -/
def isBlank (t : Option Text) : Bool := pyStrip (t.getD []) = []

/-- `_date_token`. -/
def dateToken (t : Option Text) : Text := pyStrip ((pyStrip (t.getD [])).takeWhile (· ≠ 'T'))

def parseMemoJson {F : Type} (memo : Option (Json F)) : List (Text × Json F) :=
  match memo with
  | some (.obj fields) => fields
  | _ => []

/-- `(memo.get(key) or "").strip()`, which raises on a value that is no text. -/
def memoText {T : UnicodeTables} (H : PyHost T) (fields : List (Text × Json H.floats.carrier))
    (key : Text) : Option Text :=
  match pyOr H (field fields key) (.str []) with
  | .str t => some (pyStrip t)
  | _ => none

/-- A row that is neither deleted nor done. -/
def DocketItem.isOpen {F : Type} (r : DocketItem F) : Bool := !r.isDeleted && isBlank r.doneDate

/-- A done date that is normal is not blank. -/
lemma isBlank_normalizeDoneText (T : DoneTables) {today : PyDate} {t : Text} :
    isBlank (normalizeDoneText T.toUnicodeTables today t) = true ↔
      normalizeDoneText T.toUnicodeTables today t = none := by
  have hshape : normalizeDoneText T.toUnicodeTables today t = none ∨ ∃ u, u ≠ [] ∧ pyStrip u = u ∧
      normalizeDoneText T.toUnicodeTables today t = some u := by
    rw [normalizeDoneText_eq]
    cases hmarker : marker T.toUnicodeTables t with
    | none =>
      cases firstDate T.toUnicodeTables t with
      | none => exact .inl rfl
      | some d =>
        obtain ⟨c, rest, hcons, -⟩ := isoformat_cons d
        exact .inr ⟨d.isoformat, by simp [hcons], pyStrip_isoformat d, rfl⟩
    | some found =>
      obtain ⟨pre, kind⟩ := found
      have hpre : pre = autoCancelledPrefix ∨ pre = autoExpiredPrefix :=
        (marker_cases T hmarker).imp (congrArg Prod.fst) (congrArg Prod.fst)
      exact .inr ⟨_, by simp, (marked_facts T.toDateTables hpre _).1, rfl⟩
  unfold isBlank
  obtain hnone | ⟨u, hne, hstrip, hsome⟩ := hshape
  · rw [hnone]
    exact iff_of_true rfl rfl
  · rw [hsome, Option.getD_some, hstrip]
    simp [hne]

end IpDocket.Deadlines
