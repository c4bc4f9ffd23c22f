import IpDocket.Tasks.DistributionDecision
import Mathlib.Logic.Relation

/-!
# The decision of a rules file

A file that can be read gives the decision of its active rules, which rules that are idle for the task do
not change. A file in which one malformed rule makes the reader raise gives no decision for any task.
-/

namespace IpDocket.Tasks
open IpDocket.Lib

section Resolve

variable {T : UnicodeTables} (H : RuleHost T)

/-- What counts as missing, or an object. -/
def ObjectLike (v : Json H.floats.carrier) : Prop :=
  pyTruthy H.toPyHost v = true → ∃ fields, v = .obj fields

/-- No text of the value makes `re.compile` raise what is not caught. -/
def CompilesCleanly (v : Json H.floats.carrier) : Prop :=
  ∀ raw ∈ asList H v, pyStrip raw ≠ [] → ∀ e, H.compile (pyStrip raw) ≠ .raises e

/-- The value is no infinite number. -/
def FinitePriority (v : Json H.floats.carrier) : Prop :=
  ∀ x, v = .float x → H.floats.isZero x = false → H.truncated x ≠ .infinite

/-- If the element is an object with an id and known match fields, then its action is an object, and if
this action is valid, then the priority is finite and the patterns do not raise. -/
def Readable (raw : Json H.floats.carrier) : Prop :=
  ∀ fields, raw = .obj fields → ruleIdOf H fields ≠ [] → unknownMatchKeys H (matchFieldsOf H fields) = [] →
    ObjectLike H (field fields "action".toList) ∧
      ∀ action, normalizeAction H (field fields "action".toList) = .ok action →
        validateAction H action = true →
          FinitePriority H (field fields "priority".toList) ∧
            CompilesCleanly H (field (matchFieldsOf H fields) "name_ref_regex".toList) ∧
            CompilesCleanly H (field (matchFieldsOf H fields) "name_free_regex".toList)

/-- The rules can be iterated over, each one is readable, and the default action is an object. -/
structure Loadable (data : Option (Json H.floats.carrier)) : Prop where
  iterable : ∀ fields v, data = some (.obj fields) → fields.lookup "rules".toList = some v →
    (∃ items, v = .arr items) ∨ (∃ t, v = .str t) ∨ ∃ inner, v = .obj inner
  readable : ∀ items, ruleItems H data = .ok items → ∀ raw ∈ items, Readable H raw
  default : ObjectLike H (defaultField H data)

variable {H}

lemma isOk_fieldsOf (v : Json H.floats.carrier) : (fieldsOf H v).isOk = true ↔ ObjectLike H v := by
  unfold fieldsOf ObjectLike
  split
  · next htruthy =>
    cases v with
    | obj fields => simp [Except.isOk, Except.toBool]
    | _ => simp [Except.isOk, Except.toBool, htruthy]
  · next hfalsy => simp [Except.isOk, Except.toBool, hfalsy]

lemma isOk_normalizeAction (v : Json H.floats.carrier) :
    (normalizeAction H v).isOk = true ↔ ObjectLike H v := by
  rw [← isOk_fieldsOf]
  unfold normalizeAction
  cases fieldsOf H v with
  | error e => rfl
  | ok fields => rfl

lemma isOk_priorityOf (v : Json H.floats.carrier) : (priorityOf H v).isOk = true ↔ FinitePriority H v := by
  unfold FinitePriority priorityOf pyOr
  by_cases htruthy : pyTruthy H.toPyHost v = true
  · rw [if_pos htruthy]
    cases v with
    | float x =>
      have hzero : H.floats.isZero x = false := by simpa [pyTruthy] using htruthy
      simp only [Json.float.injEq]
      cases htrunc : H.truncated x with
      | value n => simp [Except.isOk, Except.toBool, htrunc]
      | notANumber => simp [Except.isOk, Except.toBool, htrunc]
      | infinite => simp [Except.isOk, Except.toBool, htrunc, hzero]
    | _ => simp [Except.isOk, Except.toBool]
  · rw [if_neg htruthy]
    have hnone : ∀ x, v = .float x → H.floats.isZero x = false → H.truncated x ≠ .infinite := by
      rintro x rfl hzero
      simp [pyTruthy, hzero] at htruthy
    simpa [Except.isOk, Except.toBool] using hnone

lemma isOk_compileFrom (texts : List Text) : (compileFrom H texts).isOk = true ↔
    ∀ raw ∈ texts, pyStrip raw ≠ [] → ∀ e, H.compile (pyStrip raw) ≠ .raises e := by
  induction texts with
  | nil => simp [compileFrom, Except.isOk, Except.toBool]
  | cons raw rest ih =>
    rw [compileFrom, List.forall_mem_cons, ← ih]
    split
    · next hnil => simp [hnil]
    · next hne =>
      cases hcompile : H.compile (pyStrip raw) with
      | raises e => simp [Except.isOk, Except.toBool, hne]
      | invalid => cases compileFrom H rest <;> simp [Except.map, Except.isOk, Except.toBool]
      | pattern search => cases compileFrom H rest <;> simp [Except.map, Except.isOk, Except.toBool]

lemma exists_ok {α : Type} (x : Except Raised α) : x.isOk = true ↔ ∃ a, x = .ok a := by
  cases x with
  | error e => simp [Except.isOk, Except.toBool]
  | ok a => simp [Except.isOk, Except.toBool]

/-- An element gives a rule or none just if it is readable. -/
lemma isOk_normalizeRule (raw : Json H.floats.carrier) :
    (normalizeRule H raw).isOk = true ↔ Readable H raw := by
  unfold Readable
  cases raw with
  | obj fields =>
    simp only [Json.obj.injEq, forall_eq']
    unfold normalizeRule
    dsimp only
    split
    · next hid => simp [Except.isOk, Except.toBool, hid]
    · next hid =>
      split
      · next hknown => simp [Except.isOk, Except.toBool, hknown]
      · next hknown =>
        rw [not_not] at hknown
        rw [← isOk_normalizeAction]
        cases haction : normalizeAction H (field fields "action".toList) with
        | error e => simp [Except.isOk, Except.toBool, hid, hknown, Bind.bind, Except.bind]
        | ok action =>
          have hok : (Except.ok action : Except Raised Action).isOk = true := rfl
          simp only [Bind.bind, Except.bind, Except.ok.injEq, forall_eq', hok, true_and, hid, hknown,
            ne_eq, not_false_eq_true, forall_const]
          split
          · next hinvalid => simp [Except.isOk, Except.toBool, hinvalid]
          · next hvalid =>
            rw [Bool.not_eq_false] at hvalid
            rw [← isOk_priorityOf]
            unfold CompilesCleanly
            rw [← isOk_compileFrom, ← isOk_compileFrom]
            unfold compileRegexList
            generalize priorityOf H (field fields "priority".toList) = priority
            generalize compileFrom H (asList H (field (matchFieldsOf H fields) "name_ref_regex".toList)) = ref
            generalize compileFrom H (asList H (field (matchFieldsOf H fields) "name_free_regex".toList)) = free
            cases priority with
            | error e => simp [Except.isOk, Except.toBool, hvalid]
            | ok n =>
              cases ref with
              | error e => simp [Except.isOk, Except.toBool, hvalid]
              | ok refFound =>
                cases free with
                | error e => simp [Except.isOk, Except.toBool, hvalid]
                | ok freeFound =>
                  dsimp only
                  split
                  · simp [Except.isOk, Except.toBool]
                  · simp [Except.isOk, Except.toBool]
  | _ => simp [normalizeRule, Except.isOk, Except.toBool]

variable (H) in
/-- The rule of an element, if it is valid and enabled. -/
def activeRule (raw : Json H.floats.carrier) : Option Rule :=
  match normalizeRule H raw with
  | .ok (some rule) => if rule.enabled then some rule else none
  | _ => none

variable (H) in
/-- The enabled valid rules in the order of the file. -/
def activeRules (items : List (Json H.floats.carrier)) : List Rule := items.filterMap (activeRule H)

lemma loadFrom_eq {seen : List Text} {items : List (Json H.floats.carrier)}
    (h : ∀ raw ∈ items, Readable H raw) :
    loadFrom H seen items = .ok ((firsts (activeRules H items)).filter (fun r => r.id ∉ seen)) := by
  induction items generalizing seen with
  | nil => rfl
  | cons raw items ih =>
    have hrest := fun seen => @ih seen (fun raw hraw => h raw (List.mem_cons_of_mem _ hraw))
    obtain ⟨found, hfound⟩ := (exists_ok _).mp ((isOk_normalizeRule raw).mpr (h raw List.mem_cons_self))
    rw [loadFrom, hfound]
    simp only [Bind.bind, Except.bind]
    cases found with
    | none =>
      have hactive : activeRules H (raw :: items) = activeRules H items := by
        unfold activeRules
        rw [List.filterMap_cons_none]
        unfold activeRule
        rw [hfound]
      rw [hactive]
      exact hrest seen
    | some r =>
      dsimp only
      split
      · next hdisabled =>
        have hactive : activeRules H (raw :: items) = activeRules H items := by
          unfold activeRules
          rw [List.filterMap_cons_none]
          unfold activeRule
          rw [hfound]
          simp [hdisabled]
        rw [hactive]
        exact hrest seen
      · next henabled =>
        have hactive : activeRules H (raw :: items) = r :: activeRules H items := by
          unfold activeRules
          rw [List.filterMap_cons_some]
          unfold activeRule
          rw [hfound]
          simpa using henabled
        rw [hactive, firsts]
        split
        · next hseen =>
          rw [hrest seen, List.filter_cons_of_neg (by simpa using hseen), List.filter_filter]
          congr 1
          apply List.filter_congr
          intro s _
          by_cases hs : s.id ∈ seen
          · simp [hs]
          · have hne : s.id ≠ r.id := fun heq => hs (heq ▸ hseen)
            simp [hs, hne]
        · next hnew =>
          rw [hrest (r.id :: seen), List.filter_cons_of_pos (by simpa using hnew), List.filter_filter]
          dsimp only
          congr 2
          apply List.filter_congr
          intro s _
          simp [not_or, Bool.and_comm]

lemma readable_of_loadFrom {seen : List Text} {items : List (Json H.floats.carrier)}
    (h : (loadFrom H seen items).isOk = true) : ∀ raw ∈ items, Readable H raw := by
  induction items generalizing seen with
  | nil => exact fun _ hraw => absurd hraw List.not_mem_nil
  | cons raw items ih =>
    rw [loadFrom] at h
    rw [List.forall_mem_cons, ← isOk_normalizeRule]
    cases hfound : normalizeRule H raw with
    | error e =>
      rw [hfound] at h
      cases h
    | ok found =>
      rw [hfound] at h
      simp only [Bind.bind, Except.bind] at h
      refine ⟨rfl, ?_⟩
      cases found with
      | none => exact ih h
      | some r =>
        dsimp only at h
        split at h
        · exact ih h
        · split at h
          · exact ih h
          · cases hrest : loadFrom H (r.id :: seen) items with
            | error e =>
              rw [hrest] at h
              cases h
            | ok rules =>
              have hok : (loadFrom H (r.id :: seen) items).isOk = true := by
                rw [hrest]
                rfl
              exact ih hok

variable (H) in
/-- The action when no rule matches. -/
def defaultAction (data : Option (Json H.floats.carrier)) : Action :=
  match normalizeAction H (defaultField H data) with
  | .ok action => if validateAction H action then action else actionOf H []
  | .error _ => actionOf H []

lemma isOk_ruleItems (data : Option (Json H.floats.carrier)) : (ruleItems H data).isOk = true ↔
    ∀ fields v, data = some (.obj fields) → fields.lookup "rules".toList = some v →
      (∃ items, v = .arr items) ∨ (∃ t, v = .str t) ∨ ∃ inner, v = .obj inner := by
  unfold ruleItems
  split
  · next fields =>
    simp only [Option.some.injEq, Json.obj.injEq]
    cases hrules : fields.lookup "rules".toList with
    | none =>
      simp only [Except.isOk, Except.toBool, true_iff]
      rintro fields' v rfl hv
      rw [hrules] at hv
      cases hv
    | some v =>
      have hall : (∀ fields' v', fields = fields' → fields'.lookup "rules".toList = some v' →
          (∃ items, v' = .arr items) ∨ (∃ t, v' = .str t) ∨ ∃ inner, v' = .obj inner) ↔
          (∃ items, v = .arr items) ∨ (∃ t, v = .str t) ∨ ∃ inner, v = .obj inner := by
        constructor
        · exact fun h => h fields v rfl hrules
        · rintro h fields' v' rfl hv'
          rw [hrules] at hv'
          rwa [← Option.some.inj hv']
      rw [hall]
      cases v <;> simp [Except.isOk, Except.toBool]
  · next hnone =>
    simp only [Except.isOk, Except.toBool, true_iff]
    rintro fields v rfl
    exact absurd rfl (hnone fields)

/-- A file gives rules just if it is loadable. -/
lemma loadable_iff (data : Option (Json H.floats.carrier)) :
    (loadDistributionRules H data).isOk = true ↔ Loadable H data := by
  have hparts : Loadable H data ↔ (ruleItems H data).isOk = true ∧
      (∀ items, ruleItems H data = .ok items → (loadFrom H [] items).isOk = true) ∧
      (normalizeAction H (defaultField H data)).isOk = true := by
    rw [isOk_ruleItems, isOk_normalizeAction]
    constructor
    · rintro ⟨hiterable, hreadable, hdefault⟩
      refine ⟨hiterable, fun items hitems => ?_, hdefault⟩
      rw [loadFrom_eq (hreadable items hitems)]
      rfl
    · rintro ⟨hiterable, hload, hdefault⟩
      exact ⟨hiterable, fun items hitems => readable_of_loadFrom (hload items hitems), hdefault⟩
  rw [hparts]
  unfold loadDistributionRules
  cases ruleItems H data with
  | error e => simp [Bind.bind, Except.bind, Except.isOk, Except.toBool]
  | ok items =>
    simp only [Bind.bind, Except.bind, Except.ok.injEq, forall_eq']
    cases loadFrom H [] items with
    | error e => simp [Except.isOk, Except.toBool]
    | ok rules =>
      cases normalizeAction H (defaultField H data) with
      | error e => simp [Except.isOk, Except.toBool]
      | ok action => simp [Except.isOk, Except.toBool]

variable (H) in
/-- The elements that are gone through. -/
def itemsOf (data : Option (Json H.floats.carrier)) : List (Json H.floats.carrier) :=
  match ruleItems H data with
  | .ok items => items
  | .error _ => []

variable (H) in
/-- The decision that a file is to give for a task. -/
def FileDecides (data : Option (Json H.floats.carrier)) (task : Task) (d : Decision) : Prop :=
  Decided (fun r => matchesTask H r task) (firsts (activeRules H (itemsOf H data))) (defaultAction H data) d

lemma load_of_loadable {data : Option (Json H.floats.carrier)} (h : Loadable H data) :
    loadDistributionRules H data =
      .ok ((firsts (activeRules H (itemsOf H data))).mergeSort higher, defaultAction H data) := by
  obtain ⟨items, hitems⟩ := (exists_ok _).mp ((isOk_ruleItems data).mpr h.iterable)
  obtain ⟨action, haction⟩ := (exists_ok _).mp ((isOk_normalizeAction (defaultField H data)).mpr h.default)
  have hload := @loadFrom_eq _ H [] items (h.readable items hitems)
  have hall : (firsts (activeRules H items)).filter (fun r => r.id ∉ ([] : List Text)) =
      firsts (activeRules H items) := by simp
  unfold loadDistributionRules defaultAction itemsOf
  rw [hitems, haction]
  simp only [Bind.bind, Except.bind]
  rw [hload, hall]

/-- A loadable file gives the decision that it is to give. -/
lemma resolve_of_loadable {data : Option (Json H.floats.carrier)} (h : Loadable H data) (task : Task) :
    ∃ d, resolveDistributionDecision H data task = .ok d ∧ FileDecides H data task d := by
  unfold resolveDistributionDecision FileDecides
  rw [load_of_loadable h]
  simp only [Bind.bind, Except.bind]
  generalize activeRules H (itemsOf H data) = rules
  cases hfind : ((firsts rules).mergeSort higher).find? (fun r => matchesTask H r task) with
  | some r => exact ⟨_, rfl, .inl ⟨r, decides_of_find? (nodup_firsts rules) hfind, rfl⟩⟩
  | none =>
    refine ⟨_, rfl, .inr ⟨?_, rfl⟩⟩
    intro r hr
    have hnone := List.find?_eq_none.mp hfind r ((List.mergeSort_perm _ _).mem_iff.mpr hr)
    simpa using hnone

lemma loadable_of_resolve {data : Option (Json H.floats.carrier)} {task : Task} {d : Decision}
    (h : resolveDistributionDecision H data task = .ok d) : Loadable H data := by
  rw [← loadable_iff]
  unfold resolveDistributionDecision at h
  cases hload : loadDistributionRules H data with
  | error e =>
    rw [hload] at h
    cases h
  | ok found => rfl

/-! ### Edits of a file -/

variable (H) in
/-- The file with these fields and rules. -/
def rulesFile (fields : List (Text × Json H.floats.carrier)) (items : List (Json H.floats.carrier)) :
    Option (Json H.floats.carrier) :=
  some (.obj (setField "rules".toList (.arr items) fields))

variable (H) in
/-- The element is invalid or disabled, or has an id of its own and does not match the task or has a
strictly lower priority than the rule that decides. -/
def Idle (task : Task) (others : List (Json H.floats.carrier)) (raw : Json H.floats.carrier) : Prop :=
  ∀ r, activeRule H raw = some r → (∀ s ∈ activeRules H others, s.id ≠ r.id) ∧
    (matchesTask H r task = false ∨
      ∃ s, Decides (fun r => matchesTask H r task) (firsts (activeRules H others)) s ∧
        r.priority < s.priority)

variable (H) in
/-- The second file has one more rule, which is idle. -/
def AddsIdle (task : Task) (data data' : Option (Json H.floats.carrier)) : Prop :=
  ∃ fields before after raw, data = rulesFile H fields (before ++ after) ∧
    data' = rulesFile H fields (before ++ raw :: after) ∧ Idle H task (before ++ after) raw

variable (H) in
/-- The second file is made from the first one by adding and removing idle rules; a rule that is moved is
removed and added. -/
def IdlyEdited (task : Task) : Option (Json H.floats.carrier) → Option (Json H.floats.carrier) → Prop :=
  Relation.EqvGen (AddsIdle H task)

lemma lookup_setField (key : Text) (v : Json H.floats.carrier) (fields : List (Text × Json H.floats.carrier)) :
    (setField key v fields).lookup key = some v := by
  induction fields with
  | nil => rw [setField, List.lookup_cons_self]
  | cons kw fields ih =>
    obtain ⟨k, w⟩ := kw
    rw [setField]
    split
    · rw [List.lookup_cons_self]
    · next hne =>
      have hfalse : (key == k) = false := by simpa using Ne.symm hne
      rw [List.lookup_cons, hfalse]
      exact ih

lemma itemsOf_rulesFile (fields : List (Text × Json H.floats.carrier)) (items : List (Json H.floats.carrier)) :
    itemsOf H (rulesFile H fields items) = items := by
  unfold itemsOf rulesFile ruleItems
  dsimp only
  rw [lookup_setField]

lemma defaultAction_rulesFile (fields : List (Text × Json H.floats.carrier))
    (items items' : List (Json H.floats.carrier)) :
    defaultAction H (rulesFile H fields items) = defaultAction H (rulesFile H fields items') := by
  have hkey : ("default_action".toList : Text) ≠ "rules".toList := by decide
  have hdefault : ∀ items, defaultField H (rulesFile H fields items) = field fields "default_action".toList := by
    intro items
    unfold defaultField rulesFile
    dsimp only
    rw [field_setField, if_neg hkey]
  unfold defaultAction
  rw [hdefault, hdefault]

variable (H) in
lemma exists_fileDecides (data : Option (Json H.floats.carrier)) (task : Task) :
    ∃ d, FileDecides H data task d := by
  unfold FileDecides
  generalize activeRules H (itemsOf H data) = rules
  cases hfind : ((firsts rules).mergeSort higher).find? (fun r => matchesTask H r task) with
  | some r => exact ⟨_, .inl ⟨r, decides_of_find? (nodup_firsts rules) hfind, rfl⟩⟩
  | none =>
    refine ⟨_, .inr ⟨?_, rfl⟩⟩
    intro r hr
    have hnone := List.find?_eq_none.mp hfind r ((List.mergeSort_perm _ _).mem_iff.mpr hr)
    simpa using hnone

/-- One more idle rule does not change the decision. -/
lemma fileDecides_addsIdle {task : Task} {data data' : Option (Json H.floats.carrier)}
    (h : AddsIdle H task data data') {d : Decision} (hd : FileDecides H data task d) :
    FileDecides H data' task d := by
  obtain ⟨fields, before, after, raw, rfl, rfl, hidle⟩ := h
  unfold FileDecides at hd ⊢
  rw [itemsOf_rulesFile] at hd ⊢
  rw [defaultAction_rulesFile fields _ (before ++ after)]
  cases hactive : activeRule H raw with
  | none =>
    have hsame : activeRules H (before ++ raw :: after) = activeRules H (before ++ after) := by
      unfold activeRules
      rw [List.filterMap_append, List.filterMap_append, List.filterMap_cons_none hactive]
    rwa [hsame]
  | some r =>
    have hmore : activeRules H (before ++ raw :: after) =
        activeRules H before ++ r :: activeRules H after := by
      unfold activeRules
      rw [List.filterMap_append, List.filterMap_cons_some hactive]
    have happend : activeRules H (before ++ after) = activeRules H before ++ activeRules H after := by
      unfold activeRules
      rw [List.filterMap_append]
    obtain ⟨hown, hlow⟩ := hidle r hactive
    rw [happend] at hown hlow hd
    obtain ⟨before', after', hold, hnew⟩ := firsts_insert hown
    rw [hold] at hlow hd
    rw [hmore, hnew]
    exact hd.insert hlow

/-- The decision is the same after any idle edits. -/
lemma fileDecides_of_idlyEdited {task : Task} {data data' : Option (Json H.floats.carrier)}
    (h : IdlyEdited H task data data') (d : Decision) :
    FileDecides H data task d ↔ FileDecides H data' task d := by
  unfold IdlyEdited at h
  induction h with
  | rel data data' hadds =>
    constructor
    · exact fileDecides_addsIdle hadds
    · intro hd'
      obtain ⟨d₀, hd₀⟩ := exists_fileDecides H data task
      rw [hd'.unique (fileDecides_addsIdle hadds hd₀)]
      exact hd₀
  | refl data => rfl
  | symm data data' _ ih => exact ih.symm
  | trans data data' data'' _ _ ih ih' => exact ih.trans ih'

variable (H) in
/-- The file gives the decision of its active rules, and idle edits do not change it. -/
def DecidesStably (data data' : Option (Json H.floats.carrier)) (task : Task) : Prop :=
  (∃ d, resolveDistributionDecision H data task = .ok d ∧ FileDecides H data task d) ∧
    (IdlyEdited H task data data' →
      resolveDistributionDecision H data' task = resolveDistributionDecision H data task)

variable (H) in
/-- The decision is right and stable just if both files can be read. -/
theorem decidesStably_iff (data data' : Option (Json H.floats.carrier)) (task : Task) :
    DecidesStably H data data' task ↔ Loadable H data ∧ (IdlyEdited H task data data' → Loadable H data') := by
  constructor
  · rintro ⟨⟨d, hd, -⟩, hstable⟩
    refine ⟨loadable_of_resolve hd, ?_⟩
    intro hedited
    rw [hd] at hstable
    exact loadable_of_resolve (hstable hedited)
  · rintro ⟨hload, hload'⟩
    obtain ⟨d, hd, hdecides⟩ := resolve_of_loadable hload task
    refine ⟨⟨d, hd, hdecides⟩, ?_⟩
    intro hedited
    obtain ⟨d', hd', hdecides'⟩ := resolve_of_loadable (hload' hedited) task
    rw [hd, hd', ((fileDecides_of_idlyEdited hedited d).mp hdecides).unique hdecides']

end Resolve

section Malformed

def rulesHost : RuleHost asciiDigitTables.toUnicodeTables where
  toPyHost := ⟨centFloats, fun _ => []⟩
  lower t := t.map asciiLower
  truncated _ := .notANumber
  compile _ := .invalid

/-- One rule, and its action is a text. -/
def textAction : Json rulesHost.floats.carrier :=
  .obj [("rules".toList, .arr [.obj [("id".toList, .str "r1".toList), ("action".toList, .str "owner".toList)]])]

/-- The rule is invalid and no other is there, and still there is no decision. -/
theorem text_action_raises :
    resolveDistributionDecision rulesHost (some textAction) ⟨none, none, none, none⟩ =
        .error .attributeError ∧
      ¬DecidesStably rulesHost (some textAction) (some textAction) ⟨none, none, none, none⟩ := by
  have hraises : resolveDistributionDecision rulesHost (some textAction) ⟨none, none, none, none⟩ =
      .error .attributeError := rfl
  refine ⟨hraises, ?_⟩
  rintro ⟨⟨d, hd, -⟩, -⟩
  rw [hraises] at hd
  cases hd

end Malformed
end IpDocket.Tasks
