import IpDocket.Lib.Decimal
import IpDocket.Lib.Rounding

/-!
# Items of a submitted invoice

`_collect_submitted_items` reads the rows of a form from parallel lists and leaves blank rows out;
`_normalize_items_for_save` makes the items that are stored. Both decide whether an item is taxable, the
first by the position of the row in the form, the second by its position among the rows that are left.
-/

namespace IpDocket.Billing
open IpDocket.Lib

/-- The lists of the form, by `getlist`. -/
structure ItemForm where
  descriptions : List Text
  qtys : List Text
  prices : List Text
  itemTypes : List Text
  discounts : List Text
  phases : List Text
  fxCurs : List Text
  fxFees : List Text
  fxGovs : List Text
  fxMarkups : List Text
  fxRatesUsed : List Text
  isEstimateds : List Text
  foreignVatBases : List Text

/-- `Decimal` and the function `d`, which raises for a text that is no number: `none`. -/
structure Amounts where
  Dec : Type
  d : Text → Option Dec
  str : Dec → Text
  zero : Dec
  three : Dec

structure SubmittedItem where
  description : Text
  qty : Text
  unitPrice : Text
  itemType : Text
  discount : Text
  phase : Text
  fxCurrency : Option Text
  fxFee : Option Text
  fxGov : Option Text
  fxMarkup : Option Text
  fxRateUsed : Option Text
  isEstimated : Bool
  isTaxable : Bool

structure SavedItem (D : Type) where
  description : Text
  qty : D
  unitPrice : D
  itemType : Text
  discount : D
  isTaxable : Bool
  phase : Text
  fxCurrency : Option Text
  fxFee : Option D
  fxGov : Option D
  fxMarkup : Option D
  fxRateUsed : Option D
  isEstimated : Bool

/-- `values[i] if i < len(values) and values[i] else default`. -/
def valueAt (values : List Text) (i : Nat) (default : Text) : Text :=
  match values[i]? with
  | none => default
  | some [] => default
  | some value => value

/-- `i < len(values) and values[i] == "1"`. -/
def flagAt (values : List Text) (i : Nat) : Bool := values[i]? = some "1".toList

/-- The flag that both functions compute. -/
def taxable (itemType : Text) (foreignVat : Bool) : Bool :=
  itemType = "service".toList || (itemType = "foreign".toList && foreignVat)

section Form

variable (U : UpperTable) (A : Amounts) (form : ItemForm)

def itemTypeAt (i : Nat) : Text := (form.itemTypes[i]?).getD "service".toList

def discountAt (i : Nat) : Option A.Dec :=
  match form.discounts[i]? with
  | some discount => A.d discount
  | none => some A.zero

/-- One row of the form; `none` if the discount is no number. -/
def submittedItem (i : Nat) (desc qv pv : Text) : Option SubmittedItem := do
  let discountVal ← discountAt A form i
  let itemType := itemTypeAt form i
  let fxStore := itemType = "foreign".toList
  let fxCurrency := match form.fxCurs[i]? with
    | none => none
    | some [] => none
    | some cur => some (pyStrip (pyUpper U cur))
  let fxRateUsed := match form.fxRatesUsed[i]? with
    | none => none
    | some [] => none
    | some rate => some rate
  return {
    description := pyStrip desc
    qty := qv
    unitPrice := pv
    itemType := itemType
    discount := A.str discountVal
    phase := match form.phases[i]? with
      | none => "app".toList
      | some [] => "app".toList
      | some phase => pyStrip phase
    fxCurrency := if fxStore then fxCurrency else none
    fxFee := if fxStore then some (valueAt form.fxFees i "0".toList) else none
    fxGov := if fxStore then some (valueAt form.fxGovs i "0".toList) else none
    fxMarkup := if fxStore then some (valueAt form.fxMarkups i "3".toList) else none
    fxRateUsed := if fxStore then fxRateUsed else none
    isEstimated := flagAt form.isEstimateds i
    isTaxable := taxable itemType (fxStore && flagAt form.foreignVatBases i) }

/-- `(desc or "").strip() or qv or pv`. -/
def rowCounts (row : Text × Text × Text) : Bool :=
  pyStrip row.1 ≠ [] || row.2.1 ≠ [] || row.2.2 ≠ []

/-- The loop over the rows, from row `i` on. -/
def collectFrom : Nat → List (Text × Text × Text) → Option (List SubmittedItem)
  | _, [] => some []
  | i, row :: rows =>
    if rowCounts row then do
      let item ← submittedItem U A form i row.1 row.2.1 row.2.2
      let items ← collectFrom (i + 1) rows
      return item :: items
    else collectFrom (i + 1) rows

def formRows : List (Text × Text × Text) := form.descriptions.zip (form.qtys.zip form.prices)

/-- `_collect_submitted_items`; its second result is `form.foreignVatBases`. -/
def collectSubmittedItems : Option (List SubmittedItem) := collectFrom U A form 0 (formRows form)

end Form

section Save

variable (A : Amounts) (foreignVatBases : List Text)

/-- `d(value or default) if value else default`. -/
def amountOr (default : A.Dec) : Option Text → Option A.Dec
  | none => some default
  | some [] => some default
  | some value => A.d value

/-- `d(value) if value else None`. -/
def amountOrNone : Option Text → Option (Option A.Dec)
  | none => some none
  | some [] => some none
  | some value => (A.d value).map some

/-- One item; `none` if one of its amounts is no number. -/
def savedItem (idx : Nat) (item : SubmittedItem) : Option (SavedItem A.Dec) := do
  let fxFee ← amountOr A A.zero item.fxFee
  let fxGov ← amountOr A A.zero item.fxGov
  let fxMarkup ← amountOr A A.three item.fxMarkup
  let fxRateUsed ← amountOrNone A item.fxRateUsed
  let fxOk := item.itemType = "foreign".toList
  let qty ← A.d item.qty
  let unitPrice ← A.d item.unitPrice
  let discount ← A.d item.discount
  return {
    description := item.description
    qty := qty
    unitPrice := unitPrice
    itemType := item.itemType
    discount := discount
    isTaxable := taxable item.itemType (fxOk && flagAt foreignVatBases idx)
    phase := item.phase
    fxCurrency := if fxOk then item.fxCurrency else none
    fxFee := if fxOk then some fxFee else none
    fxGov := if fxOk then some fxGov else none
    fxMarkup := if fxOk then some fxMarkup else none
    fxRateUsed := if fxOk then fxRateUsed else none
    isEstimated := item.isEstimated }

/-- The loop over the items, from position `idx` on. -/
def normalizeFrom : Nat → List SubmittedItem → Option (List (SavedItem A.Dec))
  | _, [] => some []
  | idx, item :: items => do
    let saved ← savedItem A foreignVatBases idx item
    let rest ← normalizeFrom (idx + 1) items
    return saved :: rest

/-- `_normalize_items_for_save`. -/
def normalizeItemsForSave (items : List SubmittedItem) : Option (List (SavedItem A.Dec)) :=
  normalizeFrom A foreignVatBases 0 items

end Save

/-- The positions in the form of the rows that are not blank. -/
def keptFrom : Nat → List (Text × Text × Text) → List Nat
  | _, [] => []
  | i, row :: rows => if rowCounts row then i :: keptFrom (i + 1) rows else keptFrom (i + 1) rows

def keptPositions (form : ItemForm) : List Nat := keptFrom 0 (formRows form)

/-- A foreign row has the flag at its position in the form, and at its position among the rows that are
left. -/
def FlagsStay (form : ItemForm) : Prop :=
  ∀ row ∈ (keptPositions form).zipIdx, itemTypeAt form row.1 = "foreign".toList →
    flagAt form.foreignVatBases row.2 = flagAt form.foreignVatBases row.1

instance (form : ItemForm) : Decidable (FlagsStay form) :=
  inferInstanceAs (Decidable (∀ row ∈ (keptPositions form).zipIdx,
    itemTypeAt form row.1 = "foreign".toList →
      flagAt form.foreignVatBases row.2 = flagAt form.foreignVatBases row.1))

section Saved

variable {U : UpperTable} {A : Amounts} {form : ItemForm}

lemma itemType_submittedItem {i : Nat} {desc qv pv : Text} {item : SubmittedItem}
    (h : submittedItem U A form i desc qv pv = some item) :
    item.itemType = itemTypeAt form i ∧
      item.isTaxable = taxable (itemTypeAt form i)
        (itemTypeAt form i = "foreign".toList && flagAt form.foreignVatBases i) := by
  unfold submittedItem at h
  obtain ⟨discount, -, h⟩ := Option.bind_eq_some_iff.mp h
  rw [← Option.some_inj.mp h]
  exact ⟨rfl, rfl⟩

lemma fields_savedItem {bases : List Text} {idx : Nat} {item : SubmittedItem} {saved : SavedItem A.Dec}
    (h : savedItem A bases idx item = some saved) :
    saved.description = item.description ∧ saved.itemType = item.itemType ∧
      saved.isTaxable = taxable item.itemType
        (item.itemType = "foreign".toList && flagAt bases idx) := by
  unfold savedItem at h
  obtain ⟨fee, -, h⟩ := Option.bind_eq_some_iff.mp h
  obtain ⟨gov, -, h⟩ := Option.bind_eq_some_iff.mp h
  obtain ⟨markup, -, h⟩ := Option.bind_eq_some_iff.mp h
  obtain ⟨rate, -, h⟩ := Option.bind_eq_some_iff.mp h
  obtain ⟨qty, -, h⟩ := Option.bind_eq_some_iff.mp h
  obtain ⟨price, -, h⟩ := Option.bind_eq_some_iff.mp h
  obtain ⟨discount, -, h⟩ := Option.bind_eq_some_iff.mp h
  rw [← Option.some_inj.mp h]
  exact ⟨rfl, rfl, rfl⟩

/-- The flags at two positions make the same item exactly if they are the same for a foreign one. -/
lemma taxable_eq_iff (itemType : Text) (a b : Bool) :
    taxable itemType (itemType = "foreign".toList && a) =
        taxable itemType (itemType = "foreign".toList && b) ↔
      (itemType = "foreign".toList → a = b) := by
  have hservice : "foreign".toList ≠ "service".toList := by decide
  unfold taxable
  by_cases hforeign : itemType = "foreign".toList
  · subst hforeign
    rw [decide_eq_false hservice, decide_eq_true rfl]
    simp only [Bool.false_or, Bool.true_and, true_implies]
  · rw [decide_eq_false hforeign]
    simp only [Bool.false_and, Bool.or_false]
    exact iff_of_true trivial (fun h => absurd h hforeign)

/-- What is compared of an item. -/
def SubmittedItem.key (item : SubmittedItem) : Text × Text × Bool :=
  (item.description, item.itemType, item.isTaxable)

def SavedItem.key {D : Type} (item : SavedItem D) : Text × Text × Bool :=
  (item.description, item.itemType, item.isTaxable)

/-- The loops, from a row of the form and a position among the rows that are left on. -/
lemma saved_eq_submitted_from {rows : List (Text × Text × Text)} {i idx : Nat}
    {submitted : List SubmittedItem} {saved : List (SavedItem A.Dec)}
    (hcollect : collectFrom U A form i rows = some submitted)
    (hsave : normalizeFrom A form.foreignVatBases idx submitted = some saved) :
    saved.map SavedItem.key = submitted.map SubmittedItem.key ↔
      ∀ row ∈ (keptFrom i rows).zipIdx idx, itemTypeAt form row.1 = "foreign".toList →
        flagAt form.foreignVatBases row.2 = flagAt form.foreignVatBases row.1 := by
  induction rows generalizing i idx submitted saved with
  | nil =>
    cases hcollect
    cases hsave
    simp [keptFrom]
  | cons row rows ih =>
    rw [collectFrom] at hcollect
    rw [keptFrom]
    split at hcollect
    · next hcounts =>
      obtain ⟨item, hitem, hcollect⟩ := Option.bind_eq_some_iff.mp hcollect
      obtain ⟨items, hitems, hcollect⟩ := Option.bind_eq_some_iff.mp hcollect
      rw [← Option.some_inj.mp hcollect, normalizeFrom] at hsave
      obtain ⟨first, hfirst, hsave⟩ := Option.bind_eq_some_iff.mp hsave
      obtain ⟨rest, hrest, hsave⟩ := Option.bind_eq_some_iff.mp hsave
      rw [← Option.some_inj.mp hcollect, ← Option.some_inj.mp hsave, if_pos hcounts,
        List.zipIdx_cons, List.forall_mem_cons, List.map_cons, List.map_cons, List.cons.injEq,
        ih hitems hrest]
      obtain ⟨htype, htaxable⟩ := itemType_submittedItem hitem
      obtain ⟨hdescription, hsavedType, hsavedTaxable⟩ := fields_savedItem hfirst
      apply and_congr_left
      intro _
      unfold SavedItem.key SubmittedItem.key
      rw [hdescription, hsavedType, hsavedTaxable, htaxable, htype]
      simp only [Prod.mk.injEq, true_and]
      exact taxable_eq_iff _ _ _
    · next hblank =>
      rw [if_neg hblank]
      exact ih hcollect hsave

/-- The items that are stored are the items that were submitted, with their descriptions, types and tax
flags, exactly if each foreign row has the same flag at both of its positions. -/
theorem saved_eq_submitted_iff {submitted : List SubmittedItem} {saved : List (SavedItem A.Dec)}
    (hcollect : collectSubmittedItems U A form = some submitted)
    (hsave : normalizeItemsForSave A form.foreignVatBases submitted = some saved) :
    saved.map SavedItem.key = submitted.map SubmittedItem.key ↔ FlagsStay form :=
  saved_eq_submitted_from hcollect hsave

end Saved

/-- Amounts that are rational numbers; the empty text is zero. -/
def rationalAmounts : Amounts where
  Dec := ℚ
  d t := if t = [] then some 0 else (pyDecimal asciiTables t).map (quantize roundHalfUp 2)
  str x := hundredths x
  zero := 0
  three := 3

/-- A blank row, and a foreign item without value added tax. -/
def blankRowForm : ItemForm where
  descriptions := [[], "Filing".toList]
  qtys := [[], "1".toList]
  prices := [[], "5".toList]
  itemTypes := ["service".toList, "foreign".toList]
  discounts := [[], []]
  phases := []
  fxCurs := []
  fxFees := []
  fxGovs := []
  fxMarkups := []
  fxRatesUsed := []
  isEstimateds := []
  foreignVatBases := ["1".toList, "0".toList]

/-- The keys of the items that are submitted, and of those that are stored. -/
def keysOf (form : ItemForm) : Option (List (Text × Text × Bool) × List (Text × Text × Bool)) := do
  let submitted ← collectSubmittedItems asciiTable rationalAmounts form
  let saved ← normalizeItemsForSave rationalAmounts form.foreignVatBases submitted
  return (submitted.map SubmittedItem.key, saved.map SavedItem.key)

lemma exists_of_keysOf {form : ItemForm} {keys : List (Text × Text × Bool) × List (Text × Text × Bool)}
    (h : keysOf form = some keys) : ∃ submitted saved,
      collectSubmittedItems asciiTable rationalAmounts form = some submitted ∧
        normalizeItemsForSave rationalAmounts form.foreignVatBases submitted = some saved ∧
        submitted.map SubmittedItem.key = keys.1 ∧ saved.map SavedItem.key = keys.2 := by
  unfold keysOf at h
  obtain ⟨submitted, hsubmitted, h⟩ := Option.bind_eq_some_iff.mp h
  obtain ⟨saved, hsaved, h⟩ := Option.bind_eq_some_iff.mp h
  rw [← Option.some_inj.mp h]
  exact ⟨submitted, saved, hsubmitted, hsaved, rfl, rfl⟩

lemma keysOf_blankRowForm : keysOf blankRowForm =
    some ([("Filing".toList, "foreign".toList, false)], [("Filing".toList, "foreign".toList, true)]) := by
  decide +kernel

/-- The item takes the flag of the blank row before it. -/
theorem blank_row_moves_flag :
    ¬∀ submitted saved, collectSubmittedItems asciiTable rationalAmounts blankRowForm = some submitted →
      normalizeItemsForSave rationalAmounts blankRowForm.foreignVatBases submitted = some saved →
        saved.map SavedItem.key = submitted.map SubmittedItem.key := by
  intro hall
  obtain ⟨submitted, saved, hsubmitted, hsaved, hkeys, hkeys'⟩ := exists_of_keysOf keysOf_blankRowForm
  have hsame := hall submitted saved hsubmitted hsaved
  rw [hkeys, hkeys'] at hsame
  revert hsame
  decide

/-- A blank row behind the first item, whose flag comes to no foreign item. -/
def mixedForm : ItemForm where
  descriptions := ["Filing".toList, [], "Search".toList, "Translation".toList]
  qtys := ["1".toList, [], "2".toList, "3".toList]
  prices := ["5".toList, [], "7".toList, "9".toList]
  itemTypes := ["foreign".toList, "service".toList, "service".toList, "foreign".toList]
  discounts := [[], [], "10".toList, []]
  phases := []
  fxCurs := []
  fxFees := []
  fxGovs := []
  fxMarkups := []
  fxRatesUsed := []
  isEstimateds := []
  foreignVatBases := ["0".toList, "1".toList, "0".toList, "0".toList]

def mixedKeys : List (Text × Text × Bool) :=
  [("Filing".toList, "foreign".toList, false), ("Search".toList, "service".toList, true),
    ("Translation".toList, "foreign".toList, false)]

theorem saved_eq_submitted_mixed :
    ∃ submitted saved, collectSubmittedItems asciiTable rationalAmounts mixedForm = some submitted ∧
      normalizeItemsForSave rationalAmounts mixedForm.foreignVatBases submitted = some saved ∧
        submitted.map SubmittedItem.key = mixedKeys ∧
        saved.map SavedItem.key = submitted.map SubmittedItem.key := by
  have hkeys : keysOf mixedForm = some (mixedKeys, mixedKeys) := by decide +kernel
  obtain ⟨submitted, saved, hsubmitted, hsaved, hshown, -⟩ := exists_of_keysOf hkeys
  exact ⟨submitted, saved, hsubmitted, hsaved, hshown,
    (saved_eq_submitted_iff hsubmitted hsaved).mpr (by decide)⟩

end IpDocket.Billing
