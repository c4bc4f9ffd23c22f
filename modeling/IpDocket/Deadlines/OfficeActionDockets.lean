import IpDocket.Billing.BankAllocations
import IpDocket.Deadlines.DocketRows

/-!
# Completing an office action

`complete_office_action_docket` closes the open rows of a matter in two passes: those whose
`name_ref` is one of the names made from the id of the office action or matches one of two `LIKE`
patterns with the id in them, and those that name it in the memo or are `USPTO_OA` rows of its
dispatch date. The rows of a matter do not depend on each other.
-/

namespace IpDocket.Deadlines
open IpDocket.Lib IpDocket.Deletion

structure OfficeAction where
  oaId : Text
  matterId : Text
  receivedDate : Option Text := none
  notifiedDate : Option Text := none

def oaVariants (oaId : Text) : List Text :=
  ["USPTO:".toList ++ oaId, "OA:".toList ++ oaId, "NOTICE:OA:".toList ++ oaId,
    "NOTICE:OA:".toList ++ oaId ++ ":HDL".toList, "MGMT:NOTICE:OA:".toList ++ oaId,
    "MGMT:NOTICE_SEND_3D:".toList ++ oaId, "MGMT:OFFICE_ACTION_DUE:".toList ++ oaId]

def oaPatterns (oaId : Text) : List Text := [['%', ':'] ++ oaId, ['%', ':'] ++ oaId ++ [':', '%']]

section Pass

variable (T : UnicodeTables) (H : PyHost T) (today : PyDate)

/-- The exact names and the `LIKE` patterns. -/
def matchesRef (refs patterns : List Text) (r : DocketItem H.floats.carrier) : Bool :=
  r.nameRef.any (fun ref => decide (ref ∈ refs) || patterns.any (fun p => sqlLike p ref))

def markDone (done : Text) (r : DocketItem H.floats.carrier) : DocketItem H.floats.carrier :=
  { r with docketId_ne := docketId_ne_of_row r, doneDate := normalizeDoneText T today done }

/-- The loop body of `_complete_docket_variants`. -/
def variantRow (mid done : Text) (refs patterns : List Text) (r : DocketItem H.floats.carrier) :
    DocketItem H.floats.carrier :=
  if r.matterId = mid ∧ matchesRef T H refs patterns r = true ∧ r.isOpen = true then
    markDone T H today done r
  else r

def completeDocketVariants (matterId doneDate : Text) (refs patterns : List Text)
    (rows : List (DocketItem H.floats.carrier)) : List (DocketItem H.floats.carrier) :=
  let mid := pyStrip matterId
  let done := pyStrip doneDate
  if mid = [] ∨ done = [] ∨ (refs = [] ∧ patterns = []) then rows
  else rows.map (variantRow T H today mid done refs patterns)

/-- The memo names the office action as the one that triggered the row; `none` if a text function
meets another value. -/
def linkedByMemo (oid : Text) (r : DocketItem H.floats.carrier) : Option Bool := do
  let memo := parseMemoJson r.memo
  let trigger ← memoText H memo "trigger".toList
  if trigger = "office_action_due".toList then
    let memoOid ← memoText H memo "oa_id".toList
    return memoOid = oid
  else return false

/-- `dispatch_prefix`. -/
def dispatchHead (oas : List OfficeAction) (oid mid : Text) : Text :=
  match oas.find? (fun oa => oa.oaId = oid && oa.matterId = mid) with
  | none => []
  | some oa =>
    let token := if dateToken oa.notifiedDate = [] then dateToken oa.receivedDate
      else dateToken oa.notifiedDate
    if token = [] then []
    else pyUpper T.toUpperTable ("USPTO_OA:OFFICE_ACTION:".toList ++ token ++ [':'])

/-- A `USPTO_OA` row of the dispatch date. -/
def linkedByDispatch (head : Text) (r : DocketItem H.floats.carrier) : Bool :=
  head ≠ [] && pyUpper T.toUpperTable (pyStrip r.category) = "USPTO_OA".toList &&
    head.isPrefixOf (pyUpper T.toUpperTable (pyStrip (r.nameRef.getD [])))

/-- The loop body of `_complete_uspto_oa_by_office_action`. -/
def usptoRow (mid oid done head : Text) (r : DocketItem H.floats.carrier) :
    Option (DocketItem H.floats.carrier) :=
  if r.matterId = mid ∧ r.isOpen = true then
    (linkedByMemo T H oid r).map (fun matched =>
      if matched || linkedByDispatch T H head r then markDone T H today done r else r)
  else some r

def completeUsptoOaByOfficeAction (oas : List OfficeAction) (matterId oaId doneDate : Text)
    (rows : List (DocketItem H.floats.carrier)) : Option (List (DocketItem H.floats.carrier)) :=
  let mid := pyStrip matterId
  let oid := pyStrip oaId
  let done := pyStrip doneDate
  if mid = [] ∨ oid = [] ∨ done = [] then some rows
  else rows.mapM (usptoRow T H today mid oid done (dispatchHead T oas oid mid))

def completeOfficeActionDocket (oas : List OfficeAction) (matterId oaId doneDate : Text)
    (rows : List (DocketItem H.floats.carrier)) : Option (List (DocketItem H.floats.carrier)) :=
  if oaId = [] then some rows
  else completeUsptoOaByOfficeAction T H today oas matterId oaId doneDate
    (completeDocketVariants T H today matterId doneDate (oaVariants oaId) (oaPatterns oaId) rows)

end Pass

/-- What follows `head` in a text that starts with it. -/
def textAfter (head t : Text) : Option Text := if head.isPrefixOf t then some (t.drop head.length) else none

/-- The id in a name that is made from an office action. -/
def oaIdOfRef (ref : Text) : Option Text :=
  match textAfter "NOTICE:OA:".toList ref with
  | some t => some (if ":HDL".toList <:+ t then t.take (t.length - 4) else t)
  | none =>
    ["USPTO:", "OA:", "MGMT:NOTICE:OA:", "MGMT:NOTICE_SEND_3D:", "MGMT:OFFICE_ACTION_DUE:"].findSome?
      (fun head => textAfter head.toList ref)

section Claim

variable (T : UnicodeTables) (H : PyHost T) (today : PyDate)

def oaIdOfMemo (r : DocketItem H.floats.carrier) : Option Text :=
  match field (parseMemoJson r.memo) "oa_id".toList with
  | .str t => some t
  | _ => none

/-- The office actions that a row names. -/
def namedOaIds (r : DocketItem H.floats.carrier) : List Text :=
  (((r.nameRef.bind oaIdOfRef).toList ++ (oaIdOfMemo T H r).toList).map pyStrip).filter (· ≠ [])

def BelongsTo (oaId : Text) (r : DocketItem H.floats.carrier) : Prop :=
  pyStrip oaId ∈ namedOaIds T H r

def BelongsToOther (oaId : Text) (r : DocketItem H.floats.carrier) : Prop :=
  ∃ id ∈ namedOaIds T H r, id ≠ pyStrip oaId

/-- The rows of other office actions stay as they are, and the open rows of the matter that belong
to this one are done. -/
def ClosesOwnOnly (matterId oaId : Text) (rows rows' : List (DocketItem H.floats.carrier)) : Prop :=
  List.Forall₂ (fun r r' => (BelongsToOther T H oaId r → r' = r) ∧
    (BelongsTo T H oaId r → r.matterId = pyStrip matterId → r.isOpen → ¬isBlank r'.doneDate)) rows rows'

/-- The tests of the two passes on an open row of the matter. -/
def isHit (oas : List OfficeAction) (matterId oaId doneDate : Text)
    (r : DocketItem H.floats.carrier) : Bool :=
  oaId ≠ [] && pyStrip matterId ≠ [] && pyStrip doneDate ≠ [] &&
    (matchesRef T H (oaVariants oaId) (oaPatterns oaId) r ||
      (pyStrip oaId ≠ [] && (linkedByMemo T H (pyStrip oaId) r = some true ||
        linkedByDispatch T H (dispatchHead T oas (pyStrip oaId) (pyStrip matterId)) r)))

/-- The second pass comes to the memo of the row. -/
def ReadsMemo (matterId oaId doneDate : Text) (r : DocketItem H.floats.carrier) : Prop :=
  oaId ≠ [] ∧ pyStrip matterId ≠ [] ∧ pyStrip oaId ≠ [] ∧ pyStrip doneDate ≠ [] ∧
    (matchesRef T H (oaVariants oaId) (oaPatterns oaId) r →
      normalizeDoneText T today (pyStrip doneDate) = none)

instance (matterId oaId doneDate : Text) (r : DocketItem H.floats.carrier) :
    Decidable (ReadsMemo T H today matterId oaId doneDate r) :=
  inferInstanceAs (Decidable (_ ∧ _))

/-- The condition on an open row of the matter: the memo can be read, no test hits the row of
another office action (unless there is nothing to write), and some test hits a row of this one, for
which there is a date to write. -/
structure RowFits (oas : List OfficeAction) (matterId oaId doneDate : Text)
    (r : DocketItem H.floats.carrier) : Prop where
  memo : ReadsMemo T H today matterId oaId doneDate r → linkedByMemo T H (pyStrip oaId) r ≠ none
  other : BelongsToOther T H oaId r → isHit T H oas matterId oaId doneDate r = true →
    r.doneDate = normalizeDoneText T today (pyStrip doneDate)
  own : BelongsTo T H oaId r → isHit T H oas matterId oaId doneDate r = true ∧
    normalizeDoneText T today (pyStrip doneDate) ≠ none

end Claim

/-! ### Both passes, row by row -/

section Rows

variable (T : DoneTables) {H : PyHost T.toUnicodeTables} (today : PyDate) (oas : List OfficeAction)
  (matterId oaId doneDate : Text)

/-- A row after both passes. -/
def completedRow (r : DocketItem H.floats.carrier) : DocketItem H.floats.carrier :=
  if r.matterId = pyStrip matterId ∧ r.isOpen = true ∧
      isHit T.toUnicodeTables H oas matterId oaId doneDate r = true then
    markDone T.toUnicodeTables H today (pyStrip doneDate) r
  else r

/-- The second pass raises at the row. -/
def Raises (r : DocketItem H.floats.carrier) : Prop :=
  r.matterId = pyStrip matterId ∧ r.isOpen = true ∧
    ReadsMemo T.toUnicodeTables H today matterId oaId doneDate r ∧
    linkedByMemo T.toUnicodeTables H (pyStrip oaId) r = none

instance (r : DocketItem H.floats.carrier) : Decidable (Raises T today matterId oaId doneDate r) :=
  inferInstanceAs (Decidable (_ ∧ _))

lemma isOpen_markDone (done : Text) {r : DocketItem H.floats.carrier} (hopen : r.isOpen = true) :
    (markDone T.toUnicodeTables H today done r).isOpen = true ↔
      normalizeDoneText T.toUnicodeTables today done = none := by
  unfold DocketItem.isOpen at hopen
  rw [Bool.and_eq_true] at hopen
  rw [← isBlank_normalizeDoneText T]
  unfold DocketItem.isOpen markDone
  rw [Bool.and_eq_true]
  exact and_iff_right hopen.1

variable {T today oas matterId oaId doneDate}

/-- What the second pass makes of a row after the first. -/
lemma usptoRow_variantRow (hoa : oaId ≠ []) (hmid : pyStrip matterId ≠ []) (hoid : pyStrip oaId ≠ [])
    (hdone : pyStrip doneDate ≠ []) (r : DocketItem H.floats.carrier) :
    usptoRow T.toUnicodeTables H today (pyStrip matterId) (pyStrip oaId) (pyStrip doneDate)
        (dispatchHead T.toUnicodeTables oas (pyStrip oaId) (pyStrip matterId))
        (variantRow T.toUnicodeTables H today (pyStrip matterId) (pyStrip doneDate) (oaVariants oaId)
          (oaPatterns oaId) r) =
      if Raises T today matterId oaId doneDate r then none
      else some (completedRow T today oas matterId oaId doneDate r) := by
  by_cases hrow : r.matterId = pyStrip matterId ∧ r.isOpen = true
  · obtain ⟨hm, hopen⟩ := hrow
    by_cases href : matchesRef T.toUnicodeTables H (oaVariants oaId) (oaPatterns oaId) r = true
    · have hfirst : variantRow T.toUnicodeTables H today (pyStrip matterId) (pyStrip doneDate)
          (oaVariants oaId) (oaPatterns oaId) r =
            markDone T.toUnicodeTables H today (pyStrip doneDate) r := if_pos ⟨hm, href, hopen⟩
      have hfinal : completedRow T today oas matterId oaId doneDate r =
          markDone T.toUnicodeTables H today (pyStrip doneDate) r := by
        apply if_pos
        exact ⟨hm, hopen, by simp [isHit, hoa, hmid, hdone, href]⟩
      have hstill := isOpen_markDone T today (pyStrip doneDate) hopen
      rw [hfirst, hfinal]
      unfold usptoRow
      by_cases hnone : normalizeDoneText T.toUnicodeTables today (pyStrip doneDate) = none
      · have hraises : Raises T today matterId oaId doneDate r ↔
            linkedByMemo T.toUnicodeTables H (pyStrip oaId) r = none := by
          simp [Raises, ReadsMemo, hm, hopen, hoa, hmid, hoid, hdone, hnone]
        have hmemo : linkedByMemo T.toUnicodeTables H (pyStrip oaId)
            (markDone T.toUnicodeTables H today (pyStrip doneDate) r) =
              linkedByMemo T.toUnicodeTables H (pyStrip oaId) r := rfl
        have htwice : markDone T.toUnicodeTables H today (pyStrip doneDate)
            (markDone T.toUnicodeTables H today (pyStrip doneDate) r) =
              markDone T.toUnicodeTables H today (pyStrip doneDate) r := rfl
        rw [if_pos ⟨hm, hstill.mpr hnone⟩, hmemo, htwice]
        simp only [hraises, ite_self]
        cases linkedByMemo T.toUnicodeTables H (pyStrip oaId) r with
        | none => rfl
        | some matched => rfl
      · have hraises : ¬Raises T today matterId oaId doneDate r := by
          intro h
          exact hnone (h.2.2.1.2.2.2.2 href)
        rw [if_neg (fun h => hnone (hstill.mp h.2)), if_neg hraises]
    · have hfirst : variantRow T.toUnicodeTables H today (pyStrip matterId) (pyStrip doneDate)
          (oaVariants oaId) (oaPatterns oaId) r = r := if_neg (fun h => href h.2.1)
      have hraises : Raises T today matterId oaId doneDate r ↔
          linkedByMemo T.toUnicodeTables H (pyStrip oaId) r = none := by
        simp [Raises, ReadsMemo, hm, hopen, hoa, hmid, hoid, hdone, href]
      rw [hfirst]
      unfold usptoRow completedRow
      rw [if_pos ⟨hm, hopen⟩]
      simp only [hraises]
      cases hmemo : linkedByMemo T.toUnicodeTables H (pyStrip oaId) r with
      | none => rfl
      | some matched =>
        have hhit : isHit T.toUnicodeTables H oas matterId oaId doneDate r =
            (matched || linkedByDispatch T.toUnicodeTables H
              (dispatchHead T.toUnicodeTables oas (pyStrip oaId) (pyStrip matterId)) r) := by
          simp [isHit, hoa, hmid, hdone, href, hoid, hmemo]
        rw [hhit, Option.map_some]
        simp [hm, hopen]
  · have hfirst : variantRow T.toUnicodeTables H today (pyStrip matterId) (pyStrip doneDate)
        (oaVariants oaId) (oaPatterns oaId) r = r := if_neg (fun h => hrow ⟨h.1, h.2.2⟩)
    have hfinal : completedRow T today oas matterId oaId doneDate r = r :=
      if_neg (fun h => hrow ⟨h.1, h.2.1⟩)
    have hraises : ¬Raises T today matterId oaId doneDate r := fun h => hrow ⟨h.1, h.2.1⟩
    rw [hfirst, hfinal, if_neg hraises]
    exact if_neg hrow

/-- A loop that may raise comes to its end if no element raises. -/
lemma mapM_ite_eq_some_iff {α β : Type} {p : α → Prop} [DecidablePred p] {g : α → β} {as : List α}
    {bs : List β} : as.mapM (fun a => if p a then none else some (g a)) = some bs ↔
      (∀ a ∈ as, ¬p a) ∧ bs = as.map g := by
  induction as generalizing bs with
  | nil => simp [eq_comm]
  | cons a as ih =>
    rw [List.mapM_cons]
    by_cases ha : p a
    · simp [ha]
    · simp only [if_neg ha, Option.bind_eq_bind, Option.bind_some, Option.pure_def,
        Option.bind_eq_some_iff, ih, List.forall_mem_cons, List.map_cons, Option.some.injEq]
      constructor
      · rintro ⟨cs, ⟨hall, rfl⟩, rfl⟩
        exact ⟨⟨ha, hall⟩, rfl⟩
      · rintro ⟨⟨-, hall⟩, rfl⟩
        exact ⟨as.map g, ⟨hall, rfl⟩, rfl⟩

/-- The rows that come back, if nothing raises. -/
lemma completeOfficeActionDocket_eq_some_iff {rows rows' : List (DocketItem H.floats.carrier)} :
    completeOfficeActionDocket T.toUnicodeTables H today oas matterId oaId doneDate rows = some rows' ↔
      (∀ r ∈ rows, ¬Raises T today matterId oaId doneDate r) ∧
        rows' = rows.map (completedRow T today oas matterId oaId doneDate) := by
  -- a call that returns early writes nothing, and reads no memo
  have hearly : (oaId = [] ∨ pyStrip matterId = [] ∨ pyStrip doneDate = []) →
      (some rows = some rows' ↔ (∀ r ∈ rows, ¬Raises T today matterId oaId doneDate r) ∧
        rows' = rows.map (completedRow T today oas matterId oaId doneDate)) := by
    intro h
    have hraises : ∀ r ∈ rows, ¬Raises T today matterId oaId doneDate r := by
      rintro r - ⟨-, -, ⟨hoa, hmid, -, hdone, -⟩, -⟩
      obtain h | h | h := h
      · exact hoa h
      · exact hmid h
      · exact hdone h
    have hrow : ∀ r ∈ rows, completedRow T today oas matterId oaId doneDate r = id r := by
      intro r _
      apply if_neg
      rintro ⟨-, -, hhit⟩
      unfold isHit at hhit
      obtain h | h | h := h <;> simp [h] at hhit
    rw [List.map_congr_left hrow, List.map_id, Option.some.injEq, eq_comm]
    exact (and_iff_right hraises).symm
  unfold completeOfficeActionDocket
  by_cases hoa : oaId = []
  · rw [if_pos hoa]
    exact hearly (.inl hoa)
  rw [if_neg hoa]
  unfold completeUsptoOaByOfficeAction completeDocketVariants
  dsimp only
  by_cases hmid : pyStrip matterId = []
  · rw [if_pos (.inl hmid), if_pos (.inl hmid)]
    exact hearly (.inr (.inl hmid))
  by_cases hdone : pyStrip doneDate = []
  · rw [if_pos (.inr (.inr hdone)), if_pos (.inr (.inl hdone))]
    exact hearly (.inr (.inr hdone))
  have hfirst : ¬(pyStrip matterId = [] ∨ pyStrip doneDate = [] ∨
      (oaVariants oaId = [] ∧ oaPatterns oaId = [])) := by
    rintro (h | h | h)
    · exact hmid h
    · exact hdone h
    · exact List.cons_ne_nil _ _ h.1
  rw [if_neg hfirst]
  by_cases hoid : pyStrip oaId = []
  · -- only the first pass writes
    have hraises : ∀ r ∈ rows, ¬Raises T today matterId oaId doneDate r :=
      fun r _ h => h.2.2.1.2.2.1 hoid
    have hrow : ∀ r ∈ rows, variantRow T.toUnicodeTables H today (pyStrip matterId) (pyStrip doneDate)
        (oaVariants oaId) (oaPatterns oaId) r = completedRow T today oas matterId oaId doneDate r := by
      intro r _
      unfold variantRow completedRow isHit
      simp only [hoa, hmid, hdone, hoid, ne_eq, not_true, not_false_eq_true, decide_true, decide_false,
        Bool.true_and, Bool.false_and, Bool.or_false]
      simp only [and_comm]
    rw [if_pos (.inr (.inl hoid)), List.map_congr_left hrow, Option.some.injEq, eq_comm]
    exact (and_iff_right hraises).symm
  · have hsecond : ¬(pyStrip matterId = [] ∨ pyStrip oaId = [] ∨ pyStrip doneDate = []) := by
      rintro (h | h | h)
      · exact hmid h
      · exact hoid h
      · exact hdone h
    have hcomp : usptoRow T.toUnicodeTables H today (pyStrip matterId) (pyStrip oaId) (pyStrip doneDate)
          (dispatchHead T.toUnicodeTables oas (pyStrip oaId) (pyStrip matterId)) ∘
        variantRow T.toUnicodeTables H today (pyStrip matterId) (pyStrip doneDate) (oaVariants oaId)
          (oaPatterns oaId) =
        fun r => if Raises T today matterId oaId doneDate r then none
          else some (completedRow T today oas matterId oaId doneDate r) :=
      funext (usptoRow_variantRow hoa hmid hoid hdone)
    rw [if_neg hsecond, List.mapM_map, hcomp]
    exact mapM_ite_eq_some_iff

variable (oas)

/-- A row is kept or done as it should be. -/
lemma completedRow_fits_iff {r : DocketItem H.floats.carrier} :
    (¬Raises T today matterId oaId doneDate r ∧
      (BelongsToOther T.toUnicodeTables H oaId r → completedRow T today oas matterId oaId doneDate r = r) ∧
      (BelongsTo T.toUnicodeTables H oaId r → r.matterId = pyStrip matterId → r.isOpen = true →
        ¬isBlank (completedRow T today oas matterId oaId doneDate r).doneDate = true)) ↔
    (r.matterId = pyStrip matterId → r.isOpen = true →
      RowFits T.toUnicodeTables H today oas matterId oaId doneDate r) := by
  by_cases hrow : r.matterId = pyStrip matterId ∧ r.isOpen = true
  · obtain ⟨hm, hopen⟩ := hrow
    have hraises : ¬Raises T today matterId oaId doneDate r ↔
        (ReadsMemo T.toUnicodeTables H today matterId oaId doneDate r →
          linkedByMemo T.toUnicodeTables H (pyStrip oaId) r ≠ none) := by
      simp [Raises, hm, hopen]
    have hblank : isBlank r.doneDate = true := by
      unfold DocketItem.isOpen at hopen
      rw [Bool.and_eq_true] at hopen
      exact hopen.2
    have hcompleted : completedRow T today oas matterId oaId doneDate r =
        if isHit T.toUnicodeTables H oas matterId oaId doneDate r = true then
          markDone T.toUnicodeTables H today (pyStrip doneDate) r else r := by
      unfold completedRow
      simp only [hm, hopen, true_and]
    have hother : completedRow T today oas matterId oaId doneDate r = r ↔
        (isHit T.toUnicodeTables H oas matterId oaId doneDate r = true →
          r.doneDate = normalizeDoneText T.toUnicodeTables today (pyStrip doneDate)) := by
      rw [hcompleted]
      split
      · next hhit =>
        constructor
        · intro h _
          rw [← congrArg DocketItem.doneDate h]
          rfl
        · intro h
          unfold markDone
          rw [← h hhit]
      · next hhit => exact iff_of_true rfl (fun h => absurd h hhit)
    have hown : ¬isBlank (completedRow T today oas matterId oaId doneDate r).doneDate = true ↔
        isHit T.toUnicodeTables H oas matterId oaId doneDate r = true ∧
          normalizeDoneText T.toUnicodeTables today (pyStrip doneDate) ≠ none := by
      rw [hcompleted]
      split
      · next hhit =>
        have hdone : (markDone T.toUnicodeTables H today (pyStrip doneDate) r).doneDate =
            normalizeDoneText T.toUnicodeTables today (pyStrip doneDate) := rfl
        rw [hdone, isBlank_normalizeDoneText T]
        exact (and_iff_right hhit).symm
      · next hhit => exact iff_of_false (fun h => h hblank) (fun h => hhit h.1)
    rw [hraises, hother, hown]
    constructor
    · rintro ⟨hmemo, hfar, hnear⟩ - -
      exact ⟨hmemo, hfar, fun h => hnear h hm hopen⟩
    · intro h
      obtain ⟨hmemo, hfar, hnear⟩ := h hm hopen
      exact ⟨hmemo, hfar, fun h _ _ => hnear h⟩
  · have hcompleted : completedRow T today oas matterId oaId doneDate r = r :=
      if_neg (fun h => hrow ⟨h.1, h.2.1⟩)
    rw [hcompleted]
    constructor
    · exact fun _ hm hopen => absurd ⟨hm, hopen⟩ hrow
    · exact fun _ => ⟨fun h => hrow ⟨h.1, h.2.1⟩, fun _ => rfl,
        fun _ hm hopen => absurd ⟨hm, hopen⟩ hrow⟩

/-- Completing an office action closes its own rows and no others if and only if every open row of
the matter fits: no name pattern, memo or dispatch date hits the row of another office action, and
one of them hits each row of this one. -/
theorem complete_office_action_iff (today : PyDate) (matterId oaId doneDate : Text)
    (rows : List (DocketItem H.floats.carrier)) :
    (∃ rows', completeOfficeActionDocket T.toUnicodeTables H today oas matterId oaId doneDate rows =
        some rows' ∧ ClosesOwnOnly T.toUnicodeTables H matterId oaId rows rows') ↔
      ∀ r ∈ rows, r.matterId = pyStrip matterId → r.isOpen = true →
        RowFits T.toUnicodeTables H today oas matterId oaId doneDate r := by
  have hrows : ∀ r ∈ rows, (r.matterId = pyStrip matterId → r.isOpen = true →
      RowFits T.toUnicodeTables H today oas matterId oaId doneDate r) ↔ _ :=
    fun r _ => (completedRow_fits_iff oas).symm
  simp only [completeOfficeActionDocket_eq_some_iff]
  unfold ClosesOwnOnly
  constructor
  · rintro ⟨_, ⟨hraises, rfl⟩, hclosed⟩ r hr
    rw [List.forall₂_map_right_iff, List.forall₂_same] at hclosed
    exact (hrows r hr).mpr ⟨hraises r hr, hclosed r hr⟩
  · intro h
    refine ⟨_, ⟨fun r hr => ((hrows r hr).mp (h r hr)).1, rfl⟩, ?_⟩
    rw [List.forall₂_map_right_iff, List.forall₂_same]
    exact fun r hr => ((hrows r hr).mp (h r hr)).2

end Rows

lemma eq_append_of_textAfter {head t rest : Text} (h : textAfter head t = some rest) :
    t = head ++ rest := by
  unfold textAfter at h
  split at h
  · next hhead =>
    obtain ⟨tail, rfl⟩ := List.isPrefixOf_iff_prefix.mp hhead
    rw [List.drop_left] at h
    rw [Option.some.inj h]
  · cases h

/-- A name that is made from an office action is one of its names. -/
lemma mem_oaVariants {ref oaId : Text} (h : oaIdOfRef ref = some oaId) : ref ∈ oaVariants oaId := by
  unfold oaIdOfRef at h
  unfold oaVariants
  split at h
  · next t ht =>
    rw [eq_append_of_textAfter ht]
    split at h
    · next hsuffix =>
      obtain ⟨id, rfl⟩ := hsuffix
      have hid : (id ++ ":HDL".toList).take ((id ++ ":HDL".toList).length - 4) = id := by simp
      rw [hid] at h
      cases h
      simp
    · cases h
      simp
  · obtain ⟨head, hmem, hhead⟩ := List.exists_of_findSome?_eq_some h
    rw [eq_append_of_textAfter hhead]
    simp only [List.mem_cons, List.not_mem_nil, or_false] at hmem
    obtain rfl | rfl | rfl | rfl | rfl := hmem <;> simp

/-- So the open rows of the matter with such a name are done, if there is a date to write. -/
theorem isHit_of_oaIdOfRef {T : UnicodeTables} {H : PyHost T} (oas : List OfficeAction)
    {matterId oaId doneDate ref : Text} {r : DocketItem H.floats.carrier} (hoa : oaId ≠ [])
    (hmid : pyStrip matterId ≠ []) (hdone : pyStrip doneDate ≠ []) (href : r.nameRef = some ref)
    (hid : oaIdOfRef ref = some oaId) : isHit T H oas matterId oaId doneDate r = true := by
  have hmatch : matchesRef T H (oaVariants oaId) (oaPatterns oaId) r = true := by
    unfold matchesRef
    rw [href, Option.any_some, decide_eq_true (mem_oaVariants hid), Bool.true_or]
  simp [isHit, hoa, hmid, hdone, hmatch]

def dispatchedOn5th (oaId : String) : OfficeAction where
  oaId := oaId.toList
  matterId := "M1".toList
  notifiedDate := some "2026-01-05".toList

/-- The deadline of the office action `B`. -/
def deadlineOfB : DocketItem Billing.plainHost.floats.carrier where
  docketId := "D1".toList
  matterId := "M1".toList
  category := "USPTO_OA".toList
  nameRef := some "USPTO_OA:OFFICE_ACTION:2026-01-05:RESPONSE".toList
  dueDate := some "2026-04-05".toList
  memo := some (.obj [("trigger".toList, .str "office_action_due".toList),
    ("oa_id".toList, .str "B".toList)])

/-- Completing `A` closes the deadline of `B`, which was dispatched on the same day. -/
theorem complete_office_action_closes_other :
    ¬∀ (T : DoneTables) (H : PyHost T.toUnicodeTables) (oas : List OfficeAction) (today : PyDate)
      (matterId oaId doneDate : Text) (rows : List (DocketItem H.floats.carrier)),
      ∃ rows', completeOfficeActionDocket T.toUnicodeTables H today oas matterId oaId doneDate rows =
          some rows' ∧ ClosesOwnOnly T.toUnicodeTables H matterId oaId rows rows' := by
  intro h
  obtain ⟨rows', hrows, hclosed⟩ := h asciiDoneTables Billing.plainHost
    [dispatchedOn5th "A", dispatchedOn5th "B"] ⟨2026, 2, 1, by decide, by decide, by decide⟩ "M1".toList
    "A".toList "2026-02-01".toList [deadlineOfB]
  obtain ⟨-, rfl⟩ := completeOfficeActionDocket_eq_some_iff.mp hrows
  unfold ClosesOwnOnly at hclosed
  rw [List.forall₂_map_right_iff, List.forall₂_same] at hclosed
  have hsame := (hclosed deadlineOfB List.mem_cons_self).1 ⟨"B".toList, by decide, by decide⟩
  have hopen := congrArg DocketItem.doneDate hsame
  revert hopen
  decide

end IpDocket.Deadlines
