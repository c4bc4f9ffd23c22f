import IpDocket.Billing.BankAllocations
import IpDocket.Deadlines.DocketRows
import IpDocket.Lib.Keyed
import Mathlib.Data.List.Lex
import Mathlib.Data.List.Sort

/-!
# Upserting a docket row

`_upsert_single_docket` takes the open row of the name whose date token is that of the new due
text, or else the last open row, or else the last done row, gives it the new due date, and cancels
the other open rows of the name. The change of the row is flushed before the others are cancelled,
when the unique index over the open rows still holds all of them.

Owner and category come from the staff tables. The ids of new rows are fresh.
-/

namespace IpDocket.Deadlines
open IpDocket.Lib IpDocket.Deletion

abbrev DocketTable (F : Type) := Keyed (@DocketItem.docketId F)

/-- `COALESCE(NULLIF(TRIM(extended_due_date), ''), NULLIF(TRIM(due_date), ''))`. -/
def effectiveDueText {F : Type} (r : DocketItem F) : Option Text :=
  ((r.extendedDueDate.map sqlTrim).filter (· ≠ [])).or ((r.dueDate.map sqlTrim).filter (· ≠ []))

/-- The entry of a row in `ux_docket_item_open_natural`. -/
def indexKey {F : Type} (r : DocketItem F) : Option (Text × Text × Text) :=
  if r.doneDate = none ∧ r.isDeleted = false then
    r.nameRef.bind (fun ref => (effectiveDueText r).map (fun due => (r.matterId, ref, due)))
  else none

def UniqueOpen {F : Type} (t : DocketTable F) : Prop :=
  ∀ r ∈ t.rows, ∀ q ∈ t.rows, r.docketId ≠ q.docketId → indexKey r = indexKey q → indexKey r = none

instance {F : Type} (t : DocketTable F) : Decidable (UniqueOpen t) :=
  inferInstanceAs (Decidable (∀ r ∈ t.rows, ∀ q ∈ t.rows, _))

section Memo

variable {T : UnicodeTables} (H : PyHost T)

def truthyTokens : List Text := ["1", "T", "TRUE", "Y", "YES", "ON"].map String.toList

/-- `_is_truthy`. -/
def isTruthyToken : Json H.floats.carrier → Bool
  | .bool b => b
  | .null => false
  | v => pyUpper T.toUpperTable (pyStrip (pyStr H v)) ∈ truthyTokens

def memoHasManualAbandonLock (memo : List (Text × Json H.floats.carrier)) : Bool :=
  isTruthyToken H (field memo "manual_abandoned".toList) ||
    ((pyStrip (pyStr H (pyOr H (field memo "lock_reason".toList) (.str [])))).map asciiLower =
        "manual_abandon".toList &&
      isTruthyToken H (field memo "locked".toList))

/-- `memo_data.get("locked")`. -/
def isLocked (r : DocketItem H.floats.carrier) : Bool :=
  pyTruthy H (field (parseMemoJson r.memo) "locked".toList)

/-- A row that was abandoned by hand. -/
def lockedAbandoned (r : DocketItem H.floats.carrier) : Bool :=
  !isBlank r.doneDate && memoHasManualAbandonLock H (parseMemoJson r.memo)

end Memo

inductive DueType where
  | legal
  | internal
  deriving DecidableEq

/-- `_normalize_deadline_type` with the default `LEGAL`. -/
def normalizeDeadlineType (T : UnicodeTables) (value : Text) : DueType :=
  if pyUpper T.toUpperTable (pyStrip value) ∈
      ["INTERNAL", "INNER", "INHOUSE", "IN", "I", "Internal", "Internal deadline"].map String.toList then
    .internal
  else .legal

/-- The arguments, the new id, what the staff tables say, and the collation of the ids. The callers
pass the id of a matter and one of their fixed names. -/
structure UpsertInput where
  mid : Text
  ref : Text
  title : Text
  due : Text
  dueType : Text := "LEGAL".toList
  owner : Option Text := none
  staffCategory : Text
  newId : Text
  today : PyDate
  collate : Text → Text → Bool
  newId_ne : newId ≠ [] := by decide
  mid_ne : mid ≠ [] := by decide
  ref_ne : ref ≠ [] := by decide

section Upsert

variable {T : UnicodeTables} (H : PyHost T) (inp : UpsertInput)

def saveCategory (T : UnicodeTables) (inp : UpsertInput) : Text :=
  if "MGMT:".toList.isPrefixOf (pyUpper T.toUpperTable inp.ref) then "MGMT".toList else inp.staffCategory

/-- A row of the name that is not deleted. -/
def isCandidate (r : DocketItem H.floats.carrier) : Bool :=
  r.matterId = inp.mid && r.nameRef = some inp.ref && !r.isDeleted

def candidateRows (t : DocketTable H.floats.carrier) : List (DocketItem H.floats.carrier) :=
  (t.rows.filter (isCandidate H inp)).insertionSort (fun r q => inp.collate q.docketId r.docketId)

/-- `_effective_due_token`. -/
def effectiveDueToken (r : DocketItem H.floats.carrier) : Text :=
  dateToken (if r.extendedDueDate.getD [] = [] then r.dueDate else r.extendedDueDate)

def chosenRow (t : DocketTable H.floats.carrier) : Option (DocketItem H.floats.carrier) :=
  match (candidateRows H inp t).filter (fun r => isBlank r.doneDate) with
  | [] => (candidateRows H inp t).head?
  | r :: rs =>
    ((r :: rs).find? (fun q => effectiveDueToken H q = dateToken (some inp.due))).or (some r)

/-- The new values of the chosen row. -/
def upsertRow (r : DocketItem H.floats.carrier) : DocketItem H.floats.carrier :=
  let due := normalizeDateText T inp.due
  { r with
    docketId_ne := docketId_ne_of_row r
    doneDate := if isBlank r.doneDate then r.doneDate else none
    dueDate := match normalizeDeadlineType T inp.dueType with
      | .internal => none
      | .legal => due
    extendedDueDate := match normalizeDeadlineType T inp.dueType with
      | .internal => due
      | .legal => none
    ownerStaffPartyId := inp.owner
    category := saveCategory T inp
    nameFree := if inp.title ≠ [] then some inp.title else r.nameFree }

def newDocket : DocketItem H.floats.carrier :=
  let due := normalizeDateText T inp.due
  { docketId := inp.newId
    docketId_ne := inp.newId_ne
    matterId := inp.mid
    category := saveCategory T inp
    nameRef := some inp.ref
    nameFree := some inp.title
    dueDate := match normalizeDeadlineType T inp.dueType with
      | .internal => none
      | .legal => due
    extendedDueDate := match normalizeDeadlineType T inp.dueType with
      | .internal => due
      | .legal => none
    ownerStaffPartyId := inp.owner }

/-- A row that `_cancel_duplicate_dockets` cancels. -/
def isDuplicate (keep : Text) (r : DocketItem H.floats.carrier) : Bool :=
  isCandidate H inp r && r.docketId ≠ keep && isBlank r.doneDate && !isLocked H r

def cancelRow (r : DocketItem H.floats.carrier) : DocketItem H.floats.carrier :=
  { r with doneDate := normalizeDoneText T inp.today (autoCancelledPrefix ++ ':' :: inp.today.isoformat) }

def cancelDuplicateDockets (keep : Text) (t : DocketTable H.floats.carrier) :
    DocketTable H.floats.carrier :=
  if inp.mid = [] ∨ inp.ref = [] ∨ keep = [] then t
  else t.update (onRows (isDuplicate H inp keep) (cancelRow H inp)) (key_onRows (fun _ => rfl))

/-- The query for the duplicates flushes the row that was changed; `none` if the index refuses it. -/
def flushAndCancel (keep : Text) (t : DocketTable H.floats.carrier) :
    Option (DocketTable H.floats.carrier) :=
  if UniqueOpen t then some (cancelDuplicateDockets H inp keep t) else none

def upsertSingleDocket (t : DocketTable H.floats.carrier) : Option (DocketTable H.floats.carrier) :=
  match chosenRow H inp t with
  | some r =>
    if lockedAbandoned H r then some t
    else flushAndCancel H inp r.docketId
      (t.update (onRows (fun q => q.docketId = r.docketId) (upsertRow H inp)) (key_onRows (fun _ => rfl)))
  | none => flushAndCancel H inp inp.newId (t.upsert (newDocket H inp) id (fun _ => rfl))

/-- The date of the deadline of a row. -/
def effectiveDue (r : DocketItem H.floats.carrier) : Option PyDate :=
  (effectiveDueText r).bind (firstDate T)

def OpenUnlocked (r : DocketItem H.floats.carrier) : Prop :=
  isCandidate H inp r = true ∧ isBlank r.doneDate = true ∧ isLocked H r = false

/-- The index holds; unless the chosen row was abandoned by hand there is one open unlocked row of
the name, which has the new deadline; and a due text without a date takes no deadline away. -/
structure Upserted (t t' : DocketTable H.floats.carrier) : Prop where
  unique : UniqueOpen t'
  one : (∀ r ∈ chosenRow H inp t, lockedAbandoned H r = false) →
    ∃ r ∈ t'.rows, OpenUnlocked H inp r ∧ (∀ q ∈ t'.rows, OpenUnlocked H inp q → q = r) ∧
      ∀ d, firstDate T inp.due = some d → effectiveDue H r = some d
  keeps : firstDate T inp.due = none → ∀ r ∈ t.rows, ∀ d, effectiveDue H r = some d →
    ∃ r' ∈ t'.rows, r'.docketId = r.docketId ∧ effectiveDue H r' = some d

/-- The chosen row was abandoned by hand, or it is not locked, has no deadline that a due text
without a date would erase, and no other open row of the name has the new date already. -/
def ChosenFits (t : DocketTable H.floats.carrier) (r : DocketItem H.floats.carrier) : Prop :=
  lockedAbandoned H r = true ∨
    (isLocked H r = false ∧ (firstDate T inp.due = none → effectiveDue H r = none) ∧
      (r.doneDate = none → ∀ d, firstDate T inp.due = some d → ∀ q ∈ t.rows, q.docketId ≠ r.docketId →
        indexKey q ≠ some (inp.mid, inp.ref, d.isoformat)))

end Upsert

section Facts

variable {T : DoneTables} {H : PyHost T.toUnicodeTables} {inp : UpsertInput}
  {t : DocketTable H.floats.carrier} {r q : DocketItem H.floats.carrier}

lemma sqlTrim_isoformat (d : PyDate) : sqlTrim d.isoformat = d.isoformat := by
  have hplain : ∀ c ∈ d.isoformat, (decide (c = ' ')) = false := by
    intro c hc
    have hne : c ≠ ' ' := (isoformat_char_facts (isoformat_chars d c hc)).2.2.2.2.2.2.1
    simpa using hne
  have hdrop : ∀ l : Text, (∀ c ∈ l, (decide (c = ' ')) = false) → l.dropWhile (· = ' ') = l := by
    intro l hl
    cases l with
    | nil => rfl
    | cons c l => rw [List.dropWhile_cons_of_neg (by simp [hl c List.mem_cons_self])]
  unfold sqlTrim
  rw [hdrop _ hplain, hdrop _ (fun c hc => hplain c (List.mem_reverse.mp hc)), List.reverse_reverse]

/-- The one due column that is written has the text of the date. -/
lemma effectiveDueText_of_due (hdue : (r.dueDate = normalizeDateText T.toUnicodeTables inp.due ∧
      r.extendedDueDate = none) ∨
    (r.dueDate = none ∧ r.extendedDueDate = normalizeDateText T.toUnicodeTables inp.due)) :
    effectiveDueText r = (firstDate T.toUnicodeTables inp.due).map PyDate.isoformat := by
  have htrim : ((normalizeDateText T.toUnicodeTables inp.due).map sqlTrim).filter (· ≠ []) =
      (firstDate T.toUnicodeTables inp.due).map PyDate.isoformat := by
    rw [normalizeDateText_eq]
    cases firstDate T.toUnicodeTables inp.due with
    | none => rfl
    | some d =>
      obtain ⟨c, rest, hcons, -⟩ := isoformat_cons d
      rw [Option.map_some, Option.map_some, sqlTrim_isoformat, Option.filter_some, if_pos (by simp [hcons])]
  unfold effectiveDueText
  obtain ⟨hlegal, hnone⟩ | ⟨hnone, hinternal⟩ := hdue
  · rw [hlegal, hnone, htrim]
    rfl
  · rw [hinternal, hnone, htrim]
    exact Option.or_none

lemma effectiveDueText_upsertRow : effectiveDueText (upsertRow H inp r) =
    (firstDate T.toUnicodeTables inp.due).map PyDate.isoformat := by
  apply effectiveDueText_of_due
  unfold upsertRow
  cases normalizeDeadlineType T.toUnicodeTables inp.dueType with
  | legal => exact .inl ⟨rfl, rfl⟩
  | internal => exact .inr ⟨rfl, rfl⟩

lemma effectiveDueText_newDocket : effectiveDueText (newDocket H inp) =
    (firstDate T.toUnicodeTables inp.due).map PyDate.isoformat := by
  apply effectiveDueText_of_due
  unfold newDocket
  cases normalizeDeadlineType T.toUnicodeTables inp.dueType with
  | legal => exact .inl ⟨rfl, rfl⟩
  | internal => exact .inr ⟨rfl, rfl⟩

lemma effectiveDue_of_text (h : effectiveDueText r =
    (firstDate T.toUnicodeTables inp.due).map PyDate.isoformat) :
    effectiveDue H r = firstDate T.toUnicodeTables inp.due := by
  unfold effectiveDue
  rw [h]
  cases firstDate T.toUnicodeTables inp.due with
  | none => rfl
  | some d => exact firstDate_isoformat T d

lemma mem_candidateRows : r ∈ candidateRows H inp t ↔ r ∈ t.rows ∧ isCandidate H inp r = true := by
  unfold candidateRows
  rw [List.mem_insertionSort, List.mem_filter]

lemma isCandidate_iff : isCandidate H inp r = true ↔
    r.matterId = inp.mid ∧ r.nameRef = some inp.ref ∧ r.isDeleted = false := by
  simp [isCandidate, and_assoc]

lemma not_candidate_of_chosenRow (h : chosenRow H inp t = none) :
    ∀ r ∈ t.rows, isCandidate H inp r = false := by
  intro r hr
  unfold chosenRow at h
  split at h
  · rw [List.head?_eq_none_iff] at h
    by_contra hcandidate
    have hmem := mem_candidateRows.mpr ⟨hr, (Bool.not_eq_false _).mp hcandidate⟩
    rw [h] at hmem
    cases hmem
  · rw [Option.or_eq_none_iff] at h
    cases h.2

/-- The chosen row is done only if no row of the name is open. -/
lemma chosenRow_facts (h : chosenRow H inp t = some r) : r ∈ t.rows ∧ isCandidate H inp r = true ∧
    (isBlank r.doneDate = false → ∀ q ∈ t.rows, isCandidate H inp q = true → isBlank q.doneDate = false) := by
  unfold chosenRow at h
  split at h
  · next hopen =>
    obtain ⟨hmem, hcandidate⟩ := mem_candidateRows.mp (List.mem_of_mem_head? h)
    refine ⟨hmem, hcandidate, fun _ q hq hqc => ?_⟩
    rw [List.filter_eq_nil_iff] at hopen
    simpa using hopen q (mem_candidateRows.mpr ⟨hq, hqc⟩)
  · next first rest hopen =>
    have hmem : r ∈ first :: rest := by
      obtain hfound | ⟨-, hfirst⟩ := Option.or_eq_some_iff.mp h
      · exact List.mem_of_find?_eq_some hfound
      · rw [Option.some.inj hfirst]
        exact List.mem_cons_self
    rw [← hopen, List.mem_filter, mem_candidateRows] at hmem
    obtain ⟨⟨hrow, hcandidate⟩, hblank⟩ := hmem
    refine ⟨hrow, hcandidate, fun hdone => ?_⟩
    rw [hblank] at hdone
    cases hdone

lemma isCandidate_of_indexKey {due : Text} (h : indexKey r = some (inp.mid, inp.ref, due)) :
    isCandidate H inp r = true ∧ r.doneDate = none := by
  unfold indexKey at h
  split at h
  · next hopen =>
    obtain ⟨ref, href, hrest⟩ := Option.bind_eq_some_iff.mp h
    obtain ⟨due, -, hkey⟩ := Option.map_eq_some_iff.mp hrest
    obtain ⟨hmatter, hname⟩ := Prod.mk.inj hkey
    rw [(Prod.mk.inj hname).1] at href
    exact ⟨isCandidate_iff.mpr ⟨hmatter, href, hopen.2⟩, hopen.1⟩
  · cases h

/-- The entry of a row of the name with the new deadline. -/
lemma indexKey_of_candidate (hcandidate : isCandidate H inp r = true) (hdue : effectiveDueText r =
    (firstDate T.toUnicodeTables inp.due).map PyDate.isoformat) :
    indexKey r = if r.doneDate = none then
      (firstDate T.toUnicodeTables inp.due).map (fun d => (inp.mid, inp.ref, d.isoformat)) else none := by
  obtain ⟨hmatter, href, hdeleted⟩ := isCandidate_iff.mp hcandidate
  unfold indexKey
  rw [hdeleted, href, hdue, hmatter, Option.bind_some, Option.map_map]
  simp only [and_true]
  rfl

lemma doneDate_upsertRow : (upsertRow H inp r).doneDate = if isBlank r.doneDate then r.doneDate else none :=
  rfl

lemma isBlank_doneDate_upsertRow : isBlank (upsertRow H inp r).doneDate = true := by
  rw [doneDate_upsertRow]
  split
  · next h => exact h
  · rfl

/-- The table after the chosen row was changed. -/
def changedTable (inp : UpsertInput) (t : DocketTable H.floats.carrier) (r : DocketItem H.floats.carrier) :
    DocketTable H.floats.carrier :=
  t.update (onRows (fun q => q.docketId = r.docketId) (upsertRow H inp)) (key_onRows (fun _ => rfl))

lemma mem_changedTable (hr : r ∈ t.rows) : q ∈ (changedTable inp t r).rows ↔
    q = upsertRow H inp r ∨ (q ∈ t.rows ∧ q.docketId ≠ r.docketId) := by
  unfold changedTable Keyed.update
  rw [List.mem_map]
  constructor
  · rintro ⟨p, hp, rfl⟩
    unfold onRows
    by_cases hid : p.docketId = r.docketId
    · rw [if_pos (decide_eq_true hid), eq_of_key_eq_of_pairwise t.unique hp hr hid]
      exact .inl rfl
    · rw [if_neg (by simpa using hid)]
      exact .inr ⟨hp, hid⟩
  · rintro (rfl | ⟨hq, hid⟩)
    · exact ⟨r, hr, if_pos (decide_eq_true rfl)⟩
    · exact ⟨q, hq, if_neg (by simpa using hid)⟩

/-- When the flush is not refused. -/
lemma uniqueOpen_changedTable (hu : UniqueOpen t) (h : chosenRow H inp t = some r) :
    UniqueOpen (changedTable inp t r) ↔
      (r.doneDate = none → ∀ d, firstDate T.toUnicodeTables inp.due = some d → ∀ q ∈ t.rows,
        q.docketId ≠ r.docketId → indexKey q ≠ some (inp.mid, inp.ref, d.isoformat)) := by
  obtain ⟨hr, hcandidate, hdone⟩ := chosenRow_facts h
  have hkey : indexKey (upsertRow H inp r) = if (upsertRow H inp r).doneDate = none then
      (firstDate T.toUnicodeTables inp.due).map (fun d => (inp.mid, inp.ref, d.isoformat)) else none :=
    indexKey_of_candidate (hcandidate : isCandidate H inp (upsertRow H inp r) = true)
      effectiveDueText_upsertRow
  constructor
  · intro hunique hnone d hd q hq hid hqkey
    have hdate : (upsertRow H inp r).doneDate = none := by
      rw [doneDate_upsertRow, hnone, ite_self]
    rw [if_pos hdate, hd, Option.map_some] at hkey
    have hfree := hunique _ ((mem_changedTable hr).mpr (.inl rfl)) q ((mem_changedTable hr).mpr (.inr ⟨hq, hid⟩))
      (Ne.symm hid) (hkey.trans hqkey.symm)
    rw [hkey] at hfree
    cases hfree
  · intro hfree
    -- the new entry meets no other one
    have hnew : ∀ q ∈ t.rows, q.docketId ≠ r.docketId → indexKey (upsertRow H inp r) = indexKey q →
        indexKey q = none := by
      intro q hq hid hsame
      by_contra hne
      rw [hkey] at hsame
      split at hsame
      · next hdate =>
        cases hd : firstDate T.toUnicodeTables inp.due with
        | none =>
          rw [hd] at hsame
          exact hne hsame.symm
        | some d =>
          rw [hd, Option.map_some] at hsame
          obtain ⟨hqc, hqdone⟩ := isCandidate_of_indexKey hsame.symm
          rw [doneDate_upsertRow] at hdate
          cases hblank : isBlank r.doneDate with
          | true =>
            rw [if_pos hblank] at hdate
            exact hfree hdate d hd q hq hid hsame.symm
          | false =>
            have hqblank := hdone hblank q hq hqc
            rw [hqdone] at hqblank
            cases hqblank
      · exact hne hsame.symm
    intro p hp q hq hid hsame
    rw [mem_changedTable hr] at hp hq
    obtain rfl | ⟨hp, hpid⟩ := hp
    · obtain rfl | ⟨hq, hqid⟩ := hq
      · exact absurd rfl hid
      · rw [hsame, hnew q hq hqid hsame]
    · obtain rfl | ⟨hq, hqid⟩ := hq
      · exact hnew p hp hpid hsame.symm
      · exact hu p hp q hq hid hsame

variable {keep : Text}

lemma doneDate_cancelRow : (cancelRow H inp r).doneDate =
    some (autoCancelledPrefix ++ ':' :: inp.today.isoformat) :=
  (normalizeDoneText_auto T.toDateTables inp.today inp.today).1

lemma isBlank_cancelRow : isBlank (cancelRow H inp r).doneDate = false := by
  rw [doneDate_cancelRow]
  unfold isBlank
  rw [Option.getD_some, (marked_facts T.toDateTables (.inl rfl) inp.today).1]
  simp

lemma mem_cancelDuplicateDockets (hkeep : keep ≠ []) :
    q ∈ (cancelDuplicateDockets H inp keep t).rows ↔
      ∃ p ∈ t.rows, q = if isDuplicate H inp keep p then cancelRow H inp p else p := by
  unfold cancelDuplicateDockets
  rw [if_neg (by simp [inp.mid_ne, inp.ref_ne, hkeep])]
  unfold Keyed.update
  rw [List.mem_map]
  unfold onRows
  simp only [eq_comm]

lemma uniqueOpen_cancelDuplicateDockets (hkeep : keep ≠ []) (hu : UniqueOpen t) :
    UniqueOpen (cancelDuplicateDockets H inp keep t) := by
  have hnone : ∀ p : DocketItem H.floats.carrier, indexKey (cancelRow H inp p) = none := by
    intro p
    apply if_neg
    rw [doneDate_cancelRow]
    simp
  intro q hq q' hq' hid hsame
  obtain ⟨p, hp, rfl⟩ := (mem_cancelDuplicateDockets hkeep).mp hq
  obtain ⟨p', hp', rfl⟩ := (mem_cancelDuplicateDockets hkeep).mp hq'
  by_cases hdup : isDuplicate H inp keep p = true
  · rw [if_pos hdup, hnone]
  · rw [if_neg hdup] at hid hsame ⊢
    by_cases hdup' : isDuplicate H inp keep p' = true
    · rw [if_pos hdup', hnone] at hsame
      exact hsame
    · rw [if_neg hdup'] at hid hsame
      exact hu p hp p' hp' hid hsame

/-- After the duplicates are cancelled only the kept row can be open and unlocked. -/
lemma openUnlocked_cancelDuplicateDockets (hkeep : keep ≠ [])
    (hq : q ∈ (cancelDuplicateDockets H inp keep t).rows) (hopen : OpenUnlocked H inp q) :
    q ∈ t.rows ∧ q.docketId = keep := by
  obtain ⟨p, hp, rfl⟩ := (mem_cancelDuplicateDockets hkeep).mp hq
  obtain ⟨hcandidate, hblank, hlocked⟩ := hopen
  by_cases hdup : isDuplicate H inp keep p = true
  · rw [if_pos hdup, isBlank_cancelRow] at hblank
    cases hblank
  · rw [if_neg hdup] at hcandidate hblank hlocked ⊢
    refine ⟨hp, ?_⟩
    by_contra hid
    apply hdup
    unfold isDuplicate
    rw [hcandidate, hblank, hlocked]
    simpa using hid

lemma kept_mem_cancelDuplicateDockets (inp : UpsertInput) (hkeep : keep ≠ []) (hr : r ∈ t.rows) (hid : r.docketId = keep) :
    r ∈ (cancelDuplicateDockets H inp keep t).rows := by
  apply (mem_cancelDuplicateDockets hkeep).mpr
  refine ⟨r, hr, (if_neg ?_).symm⟩
  unfold isDuplicate
  simp [hid]

/-- The result of a flush that is not refused, for the row that is kept. -/
lemma one_openUnlocked_iff (inp : UpsertInput) (hkeep : keep ≠ []) (hr : r ∈ t.rows) (hid : r.docketId = keep)
    (hcandidate : isCandidate H inp r = true) (hblank : isBlank r.doneDate = true)
    (hdue : effectiveDue H r = firstDate T.toUnicodeTables inp.due) :
    (∃ q ∈ (cancelDuplicateDockets H inp keep t).rows, OpenUnlocked H inp q ∧
      (∀ p ∈ (cancelDuplicateDockets H inp keep t).rows, OpenUnlocked H inp p → p = q) ∧
        ∀ d, firstDate T.toUnicodeTables inp.due = some d → effectiveDue H q = some d) ↔
      isLocked H r = false := by
  have honly : ∀ p ∈ (cancelDuplicateDockets H inp keep t).rows, OpenUnlocked H inp p → p = r := by
    intro p hp hopen
    obtain ⟨hmem, hpid⟩ := openUnlocked_cancelDuplicateDockets hkeep hp hopen
    exact eq_of_key_eq_of_pairwise t.unique hmem hr (hpid.trans hid.symm)
  constructor
  · rintro ⟨q, hq, hopen, -, -⟩
    rw [← honly q hq hopen]
    exact hopen.2.2
  · intro hlocked
    exact ⟨r, kept_mem_cancelDuplicateDockets inp hkeep hr hid, ⟨hcandidate, hblank, hlocked⟩, honly,
      fun d hd => hdue.trans hd⟩

/-- Cancelling touches no deadline. -/
lemma effectiveDue_cancelDuplicateDockets (inp : UpsertInput) (hkeep : keep ≠ []) (hq : q ∈ t.rows) :
    ∃ q' ∈ (cancelDuplicateDockets H inp keep t).rows, q'.docketId = q.docketId ∧
      effectiveDue H q' = effectiveDue H q := by
  refine ⟨_, (mem_cancelDuplicateDockets hkeep).mpr ⟨q, hq, rfl⟩, ?_, ?_⟩
  · split <;> rfl
  · split <;> rfl

/-! ### The three cases -/

lemma isLocked_upsertRow : isLocked H (upsertRow H inp r) = isLocked H r := rfl

/-- A new row does all that is asked for. -/
lemma upserted_new (hu : UniqueOpen t) (hfresh : t.find inp.newId = none)
    (hchosen : chosenRow H inp t = none) :
    ∃ t', upsertSingleDocket H inp t = some t' ∧ Upserted H inp t t' := by
  have hnot := not_candidate_of_chosenRow hchosen
  have hrows : (t.upsert (newDocket H inp) id (fun _ => rfl)).rows = t.rows ++ [newDocket H inp] := by
    have hnone : t.find (newDocket H inp).docketId = none := hfresh
    unfold Keyed.upsert
    rw [dif_neg (by rw [hnone]; exact Bool.false_ne_true)]
  have hcandidate : isCandidate H inp (newDocket H inp) = true := isCandidate_iff.mpr ⟨rfl, rfl, rfl⟩
  have hkey : indexKey (newDocket H inp) = if (newDocket H inp).doneDate = none then
      (firstDate T.toUnicodeTables inp.due).map (fun d => (inp.mid, inp.ref, d.isoformat)) else none :=
    indexKey_of_candidate hcandidate effectiveDueText_newDocket
  have hopen : (newDocket H inp).doneDate = none := rfl
  have hnew : ∀ q ∈ t.rows, indexKey q = indexKey (newDocket H inp) → indexKey q = none := by
    intro q hq hsame
    rw [hkey, if_pos hopen] at hsame
    cases hd : firstDate T.toUnicodeTables inp.due with
    | none =>
      rw [hd] at hsame
      exact hsame
    | some d =>
      rw [hd, Option.map_some] at hsame
      have hqc : isCandidate H inp q = true := (isCandidate_of_indexKey hsame).1
      rw [hnot q hq] at hqc
      cases hqc
  have hunique : UniqueOpen (t.upsert (newDocket H inp) id (fun _ => rfl)) := by
    intro p hp q hq hid hsame
    rw [hrows, List.mem_append, List.mem_singleton] at hp hq
    obtain hp | rfl := hp
    · obtain hq | rfl := hq
      · exact hu p hp q hq hid hsame
      · exact hnew p hp hsame
    · obtain hq | rfl := hq
      · rw [hsame, hnew q hq hsame.symm]
      · exact absurd rfl hid
  have hmem : newDocket H inp ∈ (t.upsert (newDocket H inp) id (fun _ => rfl)).rows := by
    rw [hrows]
    exact List.mem_append_right _ List.mem_cons_self
  refine ⟨cancelDuplicateDockets H inp inp.newId (t.upsert (newDocket H inp) id (fun _ => rfl)), ?_, ?_⟩
  · unfold upsertSingleDocket
    rw [hchosen]
    exact if_pos hunique
  · constructor
    · exact uniqueOpen_cancelDuplicateDockets inp.newId_ne hunique
    · intro _
      exact (one_openUnlocked_iff inp inp.newId_ne hmem rfl hcandidate rfl
        (effectiveDue_of_text effectiveDueText_newDocket)).mpr rfl
    · intro _ q hq d hd
      have hq' : q ∈ (t.upsert (newDocket H inp) id (fun _ => rfl)).rows := by
        rw [hrows]
        exact List.mem_append_left _ hq
      obtain ⟨q', hmem', hid, hdue⟩ := effectiveDue_cancelDuplicateDockets inp inp.newId_ne hq'
      exact ⟨q', hmem', hid, hdue.trans hd⟩

lemma upserted_abandoned (hu : UniqueOpen t) (hchosen : chosenRow H inp t = some r)
    (hlock : lockedAbandoned H r = true) :
    ∃ t', upsertSingleDocket H inp t = some t' ∧ Upserted H inp t t' := by
  refine ⟨t, ?_, hu, ?_, fun _ q hq d hd => ⟨q, hq, rfl, hd⟩⟩
  · unfold upsertSingleDocket
    rw [hchosen]
    exact if_pos hlock
  · intro hno
    have hfalse := hno r hchosen
    rw [hlock] at hfalse
    cases hfalse

lemma upserted_changed_iff (hu : UniqueOpen t) (hchosen : chosenRow H inp t = some r)
    (hlock : lockedAbandoned H r = false) :
    (∃ t', upsertSingleDocket H inp t = some t' ∧ Upserted H inp t t') ↔
      isLocked H r = false ∧ (firstDate T.toUnicodeTables inp.due = none → effectiveDue H r = none) ∧
        (r.doneDate = none → ∀ d, firstDate T.toUnicodeTables inp.due = some d → ∀ q ∈ t.rows,
          q.docketId ≠ r.docketId → indexKey q ≠ some (inp.mid, inp.ref, d.isoformat)) := by
  obtain ⟨hr, hcandidate, -⟩ := chosenRow_facts hchosen
  have hmem : upsertRow H inp r ∈ (changedTable inp t r).rows := (mem_changedTable hr).mpr (.inl rfl)
  have hone := one_openUnlocked_iff inp r.docketId_ne hmem rfl hcandidate
    isBlank_doneDate_upsertRow (effectiveDue_of_text effectiveDueText_upsertRow)
  rw [isLocked_upsertRow] at hone
  have hchosenUnlocked : ∀ q ∈ chosenRow H inp t, lockedAbandoned H q = false := by
    intro q hq
    rw [hchosen] at hq
    cases hq
    exact hlock
  have hresult : upsertSingleDocket H inp t = if UniqueOpen (changedTable inp t r) then
      some (cancelDuplicateDockets H inp r.docketId (changedTable inp t r)) else none := by
    unfold upsertSingleDocket
    rw [hchosen]
    dsimp only
    rw [hlock]
    rfl
  rw [← uniqueOpen_changedTable hu hchosen, hresult]
  constructor
  · rintro ⟨t', ht', hupserted⟩
    by_cases hunique : UniqueOpen (changedTable inp t r)
    · rw [if_pos hunique] at ht'
      cases ht'
      refine ⟨hone.mp (hupserted.one hchosenUnlocked), fun hnone => ?_, hunique⟩
      by_contra hsome
      obtain ⟨d, hd⟩ := Option.ne_none_iff_exists'.mp hsome
      obtain ⟨r', hr', hid, hdue⟩ := hupserted.keeps hnone r hr d hd
      have hkept := kept_mem_cancelDuplicateDockets inp r.docketId_ne hmem rfl
      have heq : r' = upsertRow H inp r :=
        eq_of_key_eq_of_pairwise (cancelDuplicateDockets H inp r.docketId (changedTable inp t r)).unique
          hr' hkept hid
      rw [heq, effectiveDue_of_text effectiveDueText_upsertRow, hnone] at hdue
      cases hdue
    · rw [if_neg hunique] at ht'
      cases ht'
  · rintro ⟨hlocked, hkeeps, hunique⟩
    refine ⟨_, if_pos hunique, ?_, fun _ => hone.mpr hlocked, ?_⟩
    · exact uniqueOpen_cancelDuplicateDockets r.docketId_ne hunique
    · intro hnone q hq d hd
      have hid : q.docketId ≠ r.docketId := by
        intro hid
        rw [eq_of_key_eq_of_pairwise t.unique hq hr hid, hkeeps hnone] at hd
        cases hd
      obtain ⟨q', hq', hqid, hdue⟩ := effectiveDue_cancelDuplicateDockets inp r.docketId_ne
        ((mem_changedTable hr).mpr (.inr ⟨hq, hid⟩))
      exact ⟨q', hq', hqid, hdue.trans hd⟩

end Facts

/-- From every table that satisfies the index and for every due text: the upsert keeps the index and
leaves one open unlocked row of the name with the new deadline, without erasing a deadline, if and
only if the chosen row fits. -/
theorem upsert_single_docket_iff {T : DoneTables} (H : PyHost T.toUnicodeTables) (inp : UpsertInput)
    (t : DocketTable H.floats.carrier) (hu : UniqueOpen t) (hfresh : t.find inp.newId = none) :
    (∃ t', upsertSingleDocket H inp t = some t' ∧ Upserted H inp t t') ↔
      ∀ r ∈ chosenRow H inp t, ChosenFits H inp t r := by
  cases hchosen : chosenRow H inp t with
  | none =>
    apply iff_of_true (upserted_new hu hfresh hchosen)
    intro r hr
    cases hr
  | some r =>
    have hforall : (∀ q ∈ some r, ChosenFits H inp t q) ↔ ChosenFits H inp t r := by simp
    rw [hforall]
    unfold ChosenFits
    cases hlock : lockedAbandoned H r with
    | true => exact iff_of_true (upserted_abandoned hu hchosen hlock) (.inl rfl)
    | false =>
      rw [upserted_changed_iff hu hchosen hlock]
      simp only [Bool.false_eq_true, false_or]

def examRow (docketId due : String) (h : docketId.toList ≠ [] := by decide) :
    DocketItem Billing.plainHost.floats.carrier where
  docketId := docketId.toList
  docketId_ne := h
  matterId := "M1".toList
  category := "EXAM".toList
  nameRef := some "exam_request".toList
  dueDate := some due.toList

def examInput (due : String) : UpsertInput where
  mid := "M1".toList
  ref := "exam_request".toList
  title := "Examination request".toList
  due := due.toList
  staffCategory := "WORK".toList
  newId := "d9".toList
  today := (PyDate.make 2026 1 15).get (Eq.refl true)
  collate a b := a.map Char.toNat ≤ b.map Char.toNat

/-- Two open rows, and a done one that had the new date. -/
def examRows : List (DocketItem Billing.plainHost.floats.carrier) :=
  [examRow "d1" "2026-03-01", examRow "d2" "2026-05-01",
    { examRow "d3" "2026-04-01" with doneDate := some "2026-02-10".toList }]

/-- The deadline is given in another spelling. -/
theorem upsert_single_docket_alone :
    ∃ t', upsertSingleDocket Billing.plainHost (examInput "2026.4.1") ⟨examRows, by decide⟩ =
        some t' ∧
      Upserted (T := asciiDoneTables.toUnicodeTables) Billing.plainHost (examInput "2026.4.1")
        ⟨examRows, by decide⟩ t' := by
  apply (upsert_single_docket_iff (T := asciiDoneTables) Billing.plainHost _ _ (by decide)
    (by decide)).mpr
  intro r hr
  have hchosen : chosenRow (T := asciiDoneTables.toUnicodeTables) Billing.plainHost
      (examInput "2026.4.1") ⟨examRows, by decide⟩ = some (examRow "d2" "2026-05-01") := rfl
  obtain rfl := Option.some_inj.mp (hchosen.symm.trans hr)
  -- the done row is not in the index
  have hfree : ∀ q ∈ examRows, q.docketId ≠ "d2".toList →
      indexKey q ≠ (firstDate asciiDoneTables.toUnicodeTables "2026.4.1".toList).map
        (fun d => ("M1".toList, "exam_request".toList, d.isoformat)) := by decide
  refine .inr ⟨by decide, fun hnone => ?_, fun _ d hd q hq hid => ?_⟩
  · revert hnone
    decide
  · have hq' := hfree q hq hid
    have hd' : firstDate asciiDoneTables.toUnicodeTables "2026.4.1".toList = some d := hd
    rw [hd', Option.map_some] at hq'
    exact hq'

/-- Of two open rows the last one is given the date of the other, which is spelled differently. -/
theorem upsert_single_docket_refused :
    ¬∀ (T : DoneTables) (H : PyHost T.toUnicodeTables) (inp : UpsertInput)
      (t : DocketTable H.floats.carrier), UniqueOpen t → t.find inp.newId = none →
        ∃ t', upsertSingleDocket H inp t = some t' ∧ Upserted H inp t t' := by
  intro h
  obtain ⟨t', ht', -⟩ := h asciiDoneTables Billing.plainHost (examInput "2026.4.1")
    ⟨[examRow "d1" "2026-04-01", examRow "d2" "2026-03-01"], by decide⟩ (by decide) (by decide)
  have hnone : (upsertSingleDocket (T := asciiDoneTables.toUnicodeTables) Billing.plainHost
    (examInput "2026.4.1") ⟨[examRow "d1" "2026-04-01", examRow "d2" "2026-03-01"], by decide⟩).isSome =
      false := by decide
  rw [ht'] at hnone
  cases hnone

end IpDocket.Deadlines
