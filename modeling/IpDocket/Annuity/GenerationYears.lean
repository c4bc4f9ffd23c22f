import IpDocket.Annuity.GenerationSteps

/-!
# The years of a right that is no trademark

After the generation each year of the range has its row, unless a date of the year is out of range.
The rows that it leaves decide on the range of the next call, which is not larger.
-/

namespace IpDocket.Annuity
open IpDocket.Lib

section Range

variable {cfg : AnnuityConfig} {facts : AnnuityFacts}

variable (cfg facts) in
lemma configuredStart_pos (startYear : Option Int) :
    1 ≤ configuredStart cfg facts startYear ∧
      (facts.isDomestic = true → 4 ≤ configuredStart cfg facts startYear) := by
  unfold configuredStart
  dsimp only
  generalize (if startYear.any (0 < ·) then startYear.getD 0 else cfg.startYear) = start
  cases facts.isDomestic with
  | false =>
    rw [Bool.false_and, if_neg Bool.false_ne_true]
    refine ⟨?_, fun h => by cases h⟩
    split <;> omega
  | true =>
    rw [Bool.true_and]
    simp only [decide_eq_true_eq]
    split
    · exact ⟨by omega, fun _ => le_refl _⟩
    · exact ⟨by omega, fun _ => by omega⟩

lemma le_respectExisting (start : Int) (rows : List AnnuityItem) : start ≤ respectExisting start rows := by
  unfold respectExisting
  split
  · split <;> omega
  · exact le_refl _

lemma yearRange_eq_some {rightType : RightType} {regDate : PyDate} {startYear endYear : Option Int}
    {rows : List AnnuityItem} {first last : Int} :
    yearRange cfg facts rightType regDate startYear endYear rows = some (first, last) ↔
      first = respectExisting (configuredStart cfg facts startYear) rows ∧
        last = lastYear cfg facts rightType regDate endYear first ∧ first ≤ last := by
  unfold yearRange
  dsimp only
  split
  · next h =>
    constructor
    · intro hnone
      cases hnone
    · rintro ⟨rfl, rfl, hle⟩
      omega
  · next h =>
    rw [Option.some_inj, Prod.mk.injEq]
    constructor
    · rintro ⟨rfl, rfl⟩
      exact ⟨rfl, rfl, not_lt.mp h⟩
    · rintro ⟨rfl, rfl, -⟩
      exact ⟨rfl, rfl⟩

/-- Live rows that are added within the range move the first year only within it. -/
lemma respectExisting_again {start first last : Int} {rows rows' : List AnnuityItem}
    (hfirst : first = respectExisting start rows) (hle : first ≤ last)
    (hkept : ∀ c ∈ liveCycles rows, c ∈ liveCycles rows')
    (hnew : ∀ c ∈ liveCycles rows', c ∈ liveCycles rows ∨ (first ≤ c ∧ c ≤ last)) :
    first ≤ respectExisting start rows' ∧ respectExisting start rows' ≤ last := by
  have hstart := le_respectExisting start rows
  unfold respectExisting at hfirst hstart ⊢
  cases hmin : (liveCycles rows).min? with
  | none =>
    rw [hmin] at hfirst
    dsimp only at hfirst
    have hempty : liveCycles rows = [] := List.min?_eq_none_iff.mp hmin
    cases hmin' : (liveCycles rows').min? with
    | none => exact ⟨hfirst.le, hfirst ▸ hle⟩
    | some m =>
      obtain ⟨hmem, -⟩ := List.min?_eq_some_iff.mp hmin'
      have hrange := (hnew m hmem).resolve_left (by simp [hempty])
      dsimp only
      split <;> omega
  | some m =>
    rw [hmin] at hfirst
    dsimp only at hfirst
    obtain ⟨hmem, hleast⟩ := List.min?_eq_some_iff.mp hmin
    cases hmin' : (liveCycles rows').min? with
    | none =>
      rw [List.min?_eq_none_iff] at hmin'
      have hkept' := hkept m hmem
      rw [hmin'] at hkept'
      cases hkept'
    | some m' =>
      obtain ⟨hmem', hleast'⟩ := List.min?_eq_some_iff.mp hmin'
      have hlower := hleast' m (hkept m hmem)
      dsimp only
      obtain hold | hrange := hnew m' hmem'
      · have hupper := hleast m' hold
        split at hfirst <;> split <;> omega
      · split at hfirst <;> split <;> omega

lemma lastYear_again {rightType : RightType} {regDate : PyDate} {endYear : Option Int}
    {first first' last : Int} (hlast : last = lastYear cfg facts rightType regDate endYear first)
    (hle : first' ≤ last) : lastYear cfg facts rightType regDate endYear first' ≤ last := by
  rw [hlast] at hle ⊢
  unfold lastYear at hle ⊢
  split
  · exact le_refl _
  · split
    · exact le_refl _
    · next h h' =>
      rw [if_neg h, if_neg h'] at hle
      omega

lemma mem_yearList {first last c : Int} : c ∈ yearList first last ↔ first ≤ c ∧ c ≤ last := by
  unfold yearList
  rw [List.mem_map]
  constructor
  · rintro ⟨k, hk, rfl⟩
    rw [List.mem_range] at hk
    omega
  · intro h
    refine ⟨(c - first).toNat, ?_, by omega⟩
    rw [List.mem_range]
    omega

lemma nodup_yearList (first last : Int) : (yearList first last).Nodup := by
  apply List.Nodup.map
  · intro k l h
    simpa using h
  · exact List.nodup_range

end Range

section Loop

variable (T : UnicodeTables) (R : RelativeDelta) (cfg : AnnuityConfig) (facts : AnnuityFacts)
  (env : CallEnv) (regDate : PyDate)

lemma live_updateAnnuity (plan : ItemPlan) (r : AnnuityItem) :
    (updateAnnuity T plan r).1.isDeleted = false := by
  have hlive := (revived_facts T r).1
  cases hpaid : isPaid T r with
  | true =>
    rw [updateAnnuity_paid hpaid]
    exact hlive
  | false =>
    rw [updateAnnuity_unpaid hpaid]
    exact hlive

lemma live_touchItem (plan : ItemPlan) {r : AnnuityItem} (h : r.isDeleted = false) :
    ((touchItem (updateAnnuity T plan) r).getD r).isDeleted = false := by
  unfold touchItem
  split
  · exact h
  · split
    · exact live_updateAnnuity T plan r
    · exact h

/-- What a change of the rows does not take away: there is one row for a cycle at most, and live rows
stay alive. -/
structure KeepsLive (rows rows' : List AnnuityItem) : Prop where
  distinct : DistinctCycles rows'
  live : ∀ c r, rowAt rows c = some r → r.isDeleted = false →
    ∃ r', rowAt rows' c = some r' ∧ r'.isDeleted = false

variable {T R cfg facts env regDate}

lemma keepsLive_refl {rows : List AnnuityItem} (h : DistinctCycles rows) : KeepsLive rows rows :=
  ⟨h, fun _ r hr hlive => ⟨r, hr, hlive⟩⟩

lemma KeepsLive.trans {rows rows' rows'' : List AnnuityItem} (h : KeepsLive rows rows')
    (h' : KeepsLive rows' rows'') : KeepsLive rows rows'' := by
  refine ⟨h'.distinct, fun c r hr hlive => ?_⟩
  obtain ⟨r', hr', hlive'⟩ := h.live c r hr hlive
  exact h'.live c r' hr' hlive'

variable (T R cfg facts env regDate) in
/-- One round: the row of the year is settled, every other is as it was. -/
lemma ensureYear_spec (year : Int) {rows : List AnnuityItem} (hrows : DistinctCycles rows) :
    KeepsLive rows (ensureYear T R cfg facts env regDate year rows).1 ∧
      (∀ c, c ≠ year ∨ yearPlan R cfg regDate c = none →
        rowAt (ensureYear T R cfg facts env regDate year rows).1 c = rowAt rows c) ∧
      ∀ plan, yearPlan R cfg regDate year = some plan →
        SettledAt (updateAnnuity T plan) year (ensureYear T R cfg facts env regDate year rows).1 := by
  unfold ensureYear
  cases hplan : yearPlan R cfg regDate year with
  | none =>
    refine ⟨keepsLive_refl hrows, fun c _ => rfl, ?_⟩
    intro plan h
    cases h
  | some plan =>
    dsimp only
    have hcycle := (settles_updateAnnuity (T := T) plan).cycleNo_eq
    refine ⟨⟨distinct_ensureItem hcycle hrows, ?_⟩, ?_, ?_⟩
    · intro c r hr hlive
      by_cases hc : c = year
      · subst hc
        refine ⟨_, rowAt_ensureItem_self hcycle, ?_⟩
        change AnnuityItem.isDeleted (((rowAt rows c).map _).getD _) = false
        rw [hr]
        exact live_touchItem T plan hlive
      · exact ⟨r, (rowAt_ensureItem_of_ne hcycle hc).trans hr, hlive⟩
    · intro c hc
      apply rowAt_ensureItem_of_ne hcycle
      intro heq
      have hyear : c = year := heq
      obtain hne | hnone := hc
      · exact hne hyear
      · rw [hyear, hplan] at hnone
        cases hnone
    · intro plan' h
      cases h
      exact settledAt_ensureItem (settles_updateAnnuity plan) touchItem_newAnnuity

lemma SettledAt.of_rowAt_eq {update : AnnuityItem → AnnuityItem × Bool} {c : Int}
    {rows rows' : List AnnuityItem} (h : SettledAt update c rows) (heq : rowAt rows' c = rowAt rows c) :
    SettledAt update c rows' := by
  obtain ⟨r, hr, htouch⟩ := h
  exact ⟨r, heq.trans hr, htouch⟩

variable (T R cfg facts env regDate) in
/-- The loop: the rows of its years are settled, every other is as it was. -/
lemma ensureYears_spec {years : List Int} (hyears : years.Nodup) {rows : List AnnuityItem}
    (hrows : DistinctCycles rows) :
    KeepsLive rows (ensureYears T R cfg facts env regDate years rows).1 ∧
      (∀ c, c ∉ years ∨ yearPlan R cfg regDate c = none →
        rowAt (ensureYears T R cfg facts env regDate years rows).1 c = rowAt rows c) ∧
      ∀ year ∈ years, ∀ plan, yearPlan R cfg regDate year = some plan →
        SettledAt (updateAnnuity T plan) year
          (ensureYears T R cfg facts env regDate years rows).1 := by
  induction years generalizing rows with
  | nil =>
    refine ⟨keepsLive_refl hrows, fun c _ => rfl, ?_⟩
    intro year hyear
    cases hyear
  | cons year years ih =>
    rw [List.nodup_cons] at hyears
    obtain ⟨hkeeps, hother, hsettled⟩ := ensureYear_spec T R cfg facts env regDate year hrows
    obtain ⟨hkeeps', hother', hsettled'⟩ := ih hyears.2 hkeeps.distinct
    unfold ensureYears
    dsimp only
    refine ⟨hkeeps.trans hkeeps', ?_, ?_⟩
    · intro c hc
      have hrest : c ∉ years ∨ yearPlan R cfg regDate c = none :=
        hc.imp_left (fun h hmem => h (List.mem_cons_of_mem _ hmem))
      have hfirst : c ≠ year ∨ yearPlan R cfg regDate c = none := by
        refine hc.imp_left (fun h heq => h ?_)
        rw [heq]
        exact List.mem_cons_self
      exact (hother' c hrest).trans (hother c hfirst)
    · intro y hy plan hplan
      obtain rfl | hmem := List.mem_cons.mp hy
      · exact (hsettled plan hplan).of_rowAt_eq (hother' _ (.inl hyears.1))
      · exact hsettled' y hmem plan hplan

/-- Where every year is settled, the loop does nothing. -/
lemma ensureYears_of_settled {years : List Int} {rows : List AnnuityItem} (hrows : DistinctCycles rows)
    (h : ∀ year ∈ years, ∀ plan, yearPlan R cfg regDate year = some plan →
      SettledAt (updateAnnuity T plan) year rows) :
    ensureYears T R cfg facts env regDate years rows = (rows, 0) := by
  induction years with
  | nil => rfl
  | cons year years ih =>
    have hfirst : ensureYear T R cfg facts env regDate year rows = (rows, 0) := by
      unfold ensureYear
      cases hplan : yearPlan R cfg regDate year with
      | none => rfl
      | some plan => exact ensureItem_of_settledAt hrows (h year List.mem_cons_self plan hplan)
    unfold ensureYears
    dsimp only
    rw [hfirst, ih (fun y hy => h y (List.mem_cons_of_mem _ hy))]
    rfl

lemma markPrepaid_keeps : KeepsCycle (markPrepaid T regDate) := by
  intro r r' h
  unfold markPrepaid at h
  split at h
  · rw [← Option.some_inj.mp h]
  · cases h

/-- What is marked is paid afterwards. -/
lemma markPrepaid_again {r : AnnuityItem} :
    markPrepaid T regDate ((markPrepaid T regDate r).getD r) = none := by
  have hpaid : ∀ s : AnnuityItem, isPaid T { s with
      paidDate := some regDate.isoformat, annuityStatus := some "paid".toList } = true := by
    intro s
    have hword : (pyStrip "paid".toList).map asciiLower = "paid".toList := by decide
    unfold isPaid
    rw [Bool.or_eq_true]
    exact .inr (decide_eq_true hword)
  by_cases h : 1 ≤ r.cycleNo ∧ r.cycleNo ≤ 3 ∧ isPaid T r = false
  · have hmarked : markPrepaid T regDate r = some { r with
        paidDate := some regDate.isoformat, annuityStatus := some "paid".toList } := if_pos h
    rw [hmarked, Option.getD_some]
    unfold markPrepaid
    rw [if_neg]
    rintro ⟨-, -, hunpaid⟩
    rw [hpaid] at hunpaid
    cases hunpaid
  · have hnone : markPrepaid T regDate r = none := if_neg h
    rw [hnone]
    exact hnone

/-- The rows after the prepaid years were marked. -/
def prepaidRows (T : UnicodeTables) (facts : AnnuityFacts) (regDate : PyDate) (rows : List AnnuityItem) :
    List AnnuityItem × Nat :=
  if facts.isDomestic then changeRows (markPrepaid T regDate) rows else (rows, 0)

variable (T facts regDate) in
lemma prepaidRows_spec {rows : List AnnuityItem} (hrows : DistinctCycles rows) :
    KeepsLive rows (prepaidRows T facts regDate rows).1 ∧
      (∀ c, ¬(1 ≤ c ∧ c ≤ 3) ∨ facts.isDomestic = false →
        rowAt (prepaidRows T facts regDate rows).1 c = rowAt rows c) ∧
      (∀ c r', rowAt (prepaidRows T facts regDate rows).1 c = some r' → r'.isDeleted = false →
        ∃ r, rowAt rows c = some r ∧ r.isDeleted = false) ∧
      (facts.isDomestic = true → ∀ c r, rowAt (prepaidRows T facts regDate rows).1 c = some r →
        markPrepaid T regDate r = none) := by
  unfold prepaidRows
  cases hdomestic : facts.isDomestic with
  | false =>
    refine ⟨keepsLive_refl hrows, fun c _ => rfl, fun c r' hr hlive => ⟨r', hr, hlive⟩, ?_⟩
    intro h
    cases h
  | true =>
    rw [if_pos rfl]
    have hsame : ∀ r : AnnuityItem, ((markPrepaid T regDate r).getD r).isDeleted = r.isDeleted := by
      intro r
      unfold markPrepaid
      split <;> rfl
    refine ⟨⟨distinct_changeRows markPrepaid_keeps hrows, ?_⟩, ?_, ?_, ?_⟩
    · intro c r hr hlive
      refine ⟨_, (rowAt_changeRows markPrepaid_keeps rows c).trans (congrArg _ hr), ?_⟩
      exact (hsame r).trans hlive
    · intro c hc
      have hrange := hc.resolve_right (by simp)
      rw [rowAt_changeRows markPrepaid_keeps]
      cases hrow : rowAt rows c with
      | none => rfl
      | some r =>
        have hnone : markPrepaid T regDate r = none := by
          unfold markPrepaid
          rw [if_neg]
          rintro ⟨hlow, hhigh, -⟩
          rw [cycleNo_of_rowAt hrow] at hlow hhigh
          exact hrange ⟨hlow, hhigh⟩
        rw [Option.map_some, hnone]
        rfl
    · intro c r' hr' hlive
      rw [rowAt_changeRows markPrepaid_keeps] at hr'
      obtain ⟨r, hr, rfl⟩ := Option.map_eq_some_iff.mp hr'
      exact ⟨r, hr, (hsame r).symm.trans hlive⟩
    · intro _ c r' hr'
      rw [rowAt_changeRows markPrepaid_keeps] at hr'
      obtain ⟨r, -, rfl⟩ := Option.map_eq_some_iff.mp hr'
      exact markPrepaid_again

/-! ### The second call -/

lemma mem_liveCycles {rows : List AnnuityItem} (hrows : DistinctCycles rows) {c : Int} :
    c ∈ liveCycles rows ↔ ∃ r, rowAt rows c = some r ∧ r.isDeleted = false := by
  unfold liveCycles
  rw [List.mem_map]
  constructor
  · rintro ⟨r, hr, rfl⟩
    rw [List.mem_filter] at hr
    exact ⟨r, rowAt_of_mem hrows hr.1, by simpa using hr.2⟩
  · rintro ⟨r, hr, hlive⟩
    refine ⟨r, ?_, cycleNo_of_rowAt hr⟩
    rw [List.mem_filter]
    exact ⟨mem_of_rowAt hr, by simp [hlive]⟩

variable {rightType : RightType} {startYear endYear : Option Int} {first last : Int}
  {rows : List AnnuityItem}

/-- The rows after the loop over a range. -/
def generatedRows (T : UnicodeTables) (R : RelativeDelta) (cfg : AnnuityConfig) (facts : AnnuityFacts)
    (env : CallEnv) (regDate : PyDate) (first last : Int) (rows : List AnnuityItem) :
    List AnnuityItem × Nat :=
  ensureYears T R cfg facts env regDate (yearList first last) (prepaidRows T facts regDate rows).1

lemma ensureNonTrademark_of_range
    (h : yearRange cfg facts rightType regDate startYear endYear rows = some (first, last)) :
    ensureNonTrademark T R cfg facts env rightType regDate startYear endYear rows =
      ((generatedRows T R cfg facts env regDate first last rows).1,
        (prepaidRows T facts regDate rows).2 +
          (generatedRows T R cfg facts env regDate first last rows).2) := by
  unfold ensureNonTrademark
  rw [h]
  rfl

lemma ensureNonTrademark_of_none
    (h : yearRange cfg facts rightType regDate startYear endYear rows = none) :
    ensureNonTrademark T R cfg facts env rightType regDate startYear endYear rows = (rows, 0) := by
  unfold ensureNonTrademark
  rw [h]

lemma first_of_yearRange
    (h : yearRange cfg facts rightType regDate startYear endYear rows = some (first, last)) :
    1 ≤ first ∧ (facts.isDomestic = true → 4 ≤ first) := by
  obtain ⟨hfirst, -, -⟩ := yearRange_eq_some.mp h
  obtain ⟨hpos, hdomestic⟩ := configuredStart_pos cfg facts startYear
  have hle := le_respectExisting (configuredStart cfg facts startYear) rows
  exact ⟨by omega, fun hd => by have := hdomestic hd; omega⟩

variable (T R cfg facts env regDate first last) in
/-- The rows after the loop: one for a cycle, live rows added in the range only, its years settled. -/
lemma generatedRows_spec (hrows : DistinctCycles rows) :
    KeepsLive rows (generatedRows T R cfg facts env regDate first last rows).1 ∧
      (∀ c r', rowAt (generatedRows T R cfg facts env regDate first last rows).1 c = some r' →
        r'.isDeleted = false → (∃ r, rowAt rows c = some r ∧ r.isDeleted = false) ∨
          (first ≤ c ∧ c ≤ last)) ∧
      (∀ year, first ≤ year → year ≤ last → ∀ plan, yearPlan R cfg regDate year = some plan →
        SettledAt (updateAnnuity T plan) year
          (generatedRows T R cfg facts env regDate first last rows).1) := by
  obtain ⟨hkeeps, -, hback, -⟩ := prepaidRows_spec T facts regDate hrows
  obtain ⟨hkeeps', hother, hsettled⟩ := ensureYears_spec T R cfg facts env regDate
    (nodup_yearList first last) hkeeps.distinct
  refine ⟨hkeeps.trans hkeeps', ?_, ?_⟩
  · intro c r' hr' hlive
    by_cases hc : c ∈ yearList first last
    · exact .inr (mem_yearList.mp hc)
    · exact .inl (hback c r' ((hother c (.inl hc)).symm.trans hr') hlive)
  · intro year hlow hhigh plan hplan
    exact hsettled year (mem_yearList.mpr ⟨hlow, hhigh⟩) plan hplan

/-- The range of the second call lies in that of the first. -/
lemma yearRange_again (hrows : DistinctCycles rows) {first' last' : Int}
    (h : yearRange cfg facts rightType regDate startYear endYear rows = some (first, last))
    (h' : yearRange cfg facts rightType regDate startYear endYear
      (generatedRows T R cfg facts env regDate first last rows).1 = some (first', last')) :
    first ≤ first' ∧ last' ≤ last := by
  obtain ⟨hkeeps, hnew, -⟩ := generatedRows_spec T R cfg facts env regDate first last hrows
  obtain ⟨hfirst, hlast, hle⟩ := yearRange_eq_some.mp h
  obtain ⟨hfirst', hlast', -⟩ := yearRange_eq_some.mp h'
  have hkept : ∀ c ∈ liveCycles rows,
      c ∈ liveCycles (generatedRows T R cfg facts env regDate first last rows).1 := by
    intro c hc
    rw [mem_liveCycles hrows] at hc
    rw [mem_liveCycles hkeeps.distinct]
    obtain ⟨r, hr, hlive⟩ := hc
    exact hkeeps.live c r hr hlive
  have hadded : ∀ c ∈ liveCycles (generatedRows T R cfg facts env regDate first last rows).1,
      c ∈ liveCycles rows ∨ (first ≤ c ∧ c ≤ last) := by
    intro c hc
    rw [mem_liveCycles hkeeps.distinct] at hc
    rw [mem_liveCycles hrows]
    obtain ⟨r, hr, hlive⟩ := hc
    exact hnew c r hr hlive
  have hrange := respectExisting_again hfirst hle hkept hadded
  rw [← hfirst'] at hrange
  exact ⟨hrange.1, hlast' ▸ lastYear_again hlast hrange.2⟩

/-- The second call finds nothing to mark. -/
lemma prepaidRows_again (hrows : DistinctCycles rows)
    (h : yearRange cfg facts rightType regDate startYear endYear rows = some (first, last)) :
    prepaidRows T facts regDate (generatedRows T R cfg facts env regDate first last rows).1 =
      ((generatedRows T R cfg facts env regDate first last rows).1, 0) := by
  obtain ⟨hkeeps, -, -, hmarked⟩ := prepaidRows_spec T facts regDate hrows
  obtain ⟨hkeeps', hother, -⟩ := ensureYears_spec T R cfg facts env regDate
    (nodup_yearList first last) hkeeps.distinct
  have hfour := (first_of_yearRange h).2
  cases hdomestic : facts.isDomestic with
  | false =>
    unfold prepaidRows
    rw [hdomestic]
    rfl
  | true =>
    unfold prepaidRows
    rw [if_pos hdomestic]
    apply changeRows_eq_self
    intro r hr
    by_cases hcycle : r.cycleNo ≤ 3
    · have hout : r.cycleNo ∉ yearList first last := by
        rw [mem_yearList]
        have := hfour hdomestic
        omega
      have hrow := rowAt_of_mem hkeeps'.distinct hr
      rw [hother r.cycleNo (.inl hout)] at hrow
      exact hmarked hdomestic _ r hrow
    · unfold markPrepaid
      rw [if_neg (fun h => hcycle h.2.1)]

/-- A second call changes nothing and returns 0. -/
lemma ensureNonTrademark_again (hrows : DistinctCycles rows) (env' : CallEnv) :
    ensureNonTrademark T R cfg facts env' rightType regDate startYear endYear
      (ensureNonTrademark T R cfg facts env rightType regDate startYear endYear rows).1 =
      ((ensureNonTrademark T R cfg facts env rightType regDate startYear endYear rows).1, 0) := by
  cases hrange : yearRange cfg facts rightType regDate startYear endYear rows with
  | none =>
    rw [ensureNonTrademark_of_none hrange]
    exact ensureNonTrademark_of_none hrange
  | some range =>
    obtain ⟨first, last⟩ := range
    rw [ensureNonTrademark_of_range hrange]
    dsimp only
    cases hrange' : yearRange cfg facts rightType regDate startYear endYear
        (generatedRows T R cfg facts env regDate first last rows).1 with
    | none => exact ensureNonTrademark_of_none hrange'
    | some range' =>
      obtain ⟨first', last'⟩ := range'
      obtain ⟨hlow, hhigh⟩ := yearRange_again hrows hrange hrange'
      obtain ⟨hkeeps, -, hsettled⟩ := generatedRows_spec T R cfg facts env regDate first last hrows
      have hloop : generatedRows T R cfg facts env' regDate first' last'
          (generatedRows T R cfg facts env regDate first last rows).1 =
          ((generatedRows T R cfg facts env regDate first last rows).1, 0) := by
        rw [generatedRows, prepaidRows_again hrows hrange]
        apply ensureYears_of_settled hkeeps.distinct
        intro year hyear
        rw [mem_yearList] at hyear
        exact hsettled year (hlow.trans hyear.1) (hyear.2.trans hhigh)
      rw [ensureNonTrademark_of_range hrange', hloop, prepaidRows_again hrows hrange]
      rfl

/-- A row as a year of the range should have it: live unless a user has deleted it, and due on the
anniversary unless it is paid or a user has deleted it. -/
def GoodRow (T : UnicodeTables) (R : RelativeDelta) (regDate : PyDate) (year : Int) (r : AnnuityItem) :
    Prop :=
  (r.isDeleted = true → isUserDeleted r = true) ∧
    (isPaid T r = true ∨ isUserDeleted r = true ∨
      ∃ d, fallbackDue R regDate year = some d ∧ dayToken r.dueDate = d.isoformat)

/-- The year has exactly one row, which is good. -/
def HasYear (T : UnicodeTables) (R : RelativeDelta) (regDate : PyDate) (rows : List AnnuityItem)
    (year : Int) : Prop :=
  ∃ r, rows.filter (fun r => r.cycleNo = year) = [r] ∧ GoodRow T R regDate year r

lemma filter_cycle (hrows : DistinctCycles rows) (c : Int) :
    rows.filter (fun r => r.cycleNo = c) = (rowAt rows c).toList := by
  induction rows with
  | nil => rfl
  | cons r rows ih =>
    unfold DistinctCycles at hrows ih
    rw [List.map_cons, List.nodup_cons] at hrows
    rw [rowAt_cons]
    by_cases h : r.cycleNo = c
    · have hrest : rows.filter (fun r => r.cycleNo = c) = [] := by
        rw [List.filter_eq_nil_iff]
        intro s hs heq
        exact hrows.1 (List.mem_map.mpr ⟨s, hs, (of_decide_eq_true heq).trans h.symm⟩)
      rw [if_pos h, List.filter_cons_of_pos (by simpa using h), hrest]
      rfl
    · rw [if_neg h, List.filter_cons_of_neg (by simpa using h), ih hrows.2]

lemma hasYear_iff (hrows : DistinctCycles rows) (year : Int) :
    HasYear T R regDate rows year ↔ ∃ r, rowAt rows year = some r ∧ GoodRow T R regDate year r := by
  unfold HasYear
  rw [filter_cycle hrows]
  cases rowAt rows year with
  | none => simp
  | some r => simp

lemma find_codes {due grace : FallbackDeadline} (hdue : due.code = "ANNUITY_DUE".toList)
    (hgrace : grace.code = "ANNUITY_GRACE".toList) :
    [due, grace].find? (fun d => "ANNUITY_DUE".toList <:+: d.code) = some due ∧
      [due, grace].find? (fun d => "ANNUITY_GRACE".toList <:+: d.code) = some grace := by
  have hself : ∀ t : Text, decide (t <:+: t) = true := fun t => decide_eq_true (List.infix_refl t)
  constructor
  · apply List.find?_cons_of_pos
    rw [hdue]
    exact hself _
  · rw [List.find?_cons_of_neg, List.find?_cons_of_pos]
    · rw [hgrace]
      exact hself _
    · rw [hdue]
      decide

lemma yearPlan_eq {year : Int} (h : 0 < year) :
    yearPlan R cfg regDate year =
      (fallbackDue R regDate year).bind (fun due => (R.shift 0 6 due).bind (fun grace =>
        if grace < due then none
        else scheduled cfg.renewalNoticeDays cfg.renewalOpenDays due (some grace))) := by
  unfold yearPlan fallbackDeadlines fallbackDue
  rw [if_neg (not_le.mpr h)]
  cases R.shift (year - 1) 0 regDate with
  | none => rfl
  | some due =>
    simp only [Option.bind_eq_bind, Option.bind_some]
    cases R.shift 0 6 due with
    | none => rfl
    | some grace =>
      simp only [Option.bind_some, Option.pure_def]
      rw [(find_codes rfl rfl).1, (find_codes rfl rfl).2]
      simp only [Option.bind_some, Option.any_some, decide_eq_true_eq, Option.map_some]

/-- The plan of a year has the date of the fallback calculator. -/
lemma due_of_yearPlan {year : Int} (hyear : 0 < year) {plan : ItemPlan}
    (h : yearPlan R cfg regDate year = some plan) : fallbackDue R regDate year = some plan.due := by
  rw [yearPlan_eq hyear] at h
  obtain ⟨due, hdue, h⟩ := Option.bind_eq_some_iff.mp h
  obtain ⟨grace, -, h⟩ := Option.bind_eq_some_iff.mp h
  split at h
  · cases h
  · unfold scheduled at h
    obtain ⟨notice, -, h⟩ := Option.bind_eq_some_iff.mp h
    obtain ⟨opened, -, h⟩ := Option.bind_eq_some_iff.mp h
    rw [hdue, ← Option.some_inj.mp h]

/-- A row that the update of the year leaves alone is good. -/
lemma goodRow_of_touchItem {year : Int} (hyear : 0 < year) {plan : ItemPlan}
    (hplan : yearPlan R cfg regDate year = some plan) {r : AnnuityItem}
    (h : touchItem (updateAnnuity T plan) r = none) : GoodRow T R regDate year r := by
  unfold touchItem at h
  split at h
  · next huser => exact ⟨fun _ => huser, .inr (.inl huser)⟩
  · split at h
    · cases h
    · next hsame =>
      rw [Bool.not_eq_true] at hsame
      cases hpaid : isPaid T r with
      | true =>
        rw [updateAnnuity_paid hpaid] at hsame
        have hlive : r.isDeleted = false := hsame
        refine ⟨fun hdeleted => ?_, .inl hpaid⟩
        rw [hlive] at hdeleted
        cases hdeleted
      | false =>
        rw [updateAnnuity_unpaid hpaid] at hsame
        simp only [Bool.or_eq_false_iff] at hsame
        obtain ⟨⟨⟨⟨hlive, hdue⟩, -⟩, -⟩, -⟩ := hsame
        refine ⟨fun hdeleted => ?_, .inr (.inr ⟨plan.due, due_of_yearPlan hyear hplan, ?_⟩)⟩
        · rw [hlive] at hdeleted
          cases hdeleted
        · unfold setDayChanges isoText at hdue
          simpa using hdue

/-- A year of the range has its row afterwards exactly if its dates are in range or the row was good
before. -/
lemma hasYear_generatedRows (hrows : DistinctCycles rows)
    (h : yearRange cfg facts rightType regDate startYear endYear rows = some (first, last)) {year : Int}
    (hlow : first ≤ year) (hhigh : year ≤ last) :
    HasYear T R regDate (generatedRows T R cfg facts env regDate first last rows).1 year ↔
      (yearPlan R cfg regDate year).isSome = true ∨
        ∃ r, rowAt rows year = some r ∧ GoodRow T R regDate year r := by
  obtain ⟨hkeeps, -, hsettled⟩ := generatedRows_spec T R cfg facts env regDate first last hrows
  obtain ⟨hfirst, hfour⟩ := first_of_yearRange h
  rw [hasYear_iff hkeeps.distinct]
  cases hplan : yearPlan R cfg regDate year with
  | some plan =>
    obtain ⟨r, hr, htouch⟩ := hsettled year hlow hhigh plan hplan
    exact iff_of_true ⟨r, hr, goodRow_of_touchItem (by omega) hplan htouch⟩ (.inl rfl)
  | none =>
    obtain ⟨hkeeps', hother', -⟩ := prepaidRows_spec T facts regDate hrows
    obtain ⟨-, hother, -⟩ := ensureYears_spec T R cfg facts env regDate
      (nodup_yearList first last) hkeeps'.distinct
    have hprepaid : ¬(1 ≤ year ∧ year ≤ 3) ∨ facts.isDomestic = false := by
      cases hdomestic : facts.isDomestic with
      | false => exact .inr rfl
      | true =>
        have := hfour hdomestic
        exact .inl (by omega)
    have hsame : rowAt (generatedRows T R cfg facts env regDate first last rows).1 year =
        rowAt rows year := (hother year (.inr hplan)).trans (hother' year hprepaid)
    rw [hsame]
    simp

end Loop
end IpDocket.Annuity
