import IpDocket.Billing.BankAllocations
import IpDocket.Deadlines.NoticeSend

/-!
# Histories of refreshes

A refresh keeps the matched document in the memo, where the next refresh takes it for the document of
the task unless the title names one. So only tasks whose titles name a document have a candidate that
does not depend on what was matched before.
-/

namespace IpDocket.Deadlines
open IpDocket.Lib IpDocket.Deletion

section Histories

variable (T : LetterTables) (H : PyHost T.toUnicodeTables) (E : FloatEquality H)

inductive NoticeEvent
  /-- Communications are created, changed or deleted, or emails are linked to them. -/
  | edit (communications : List CommunicationRow) (emailTexts : List (Text × Text))
  | mark (call : NoticeCall) (m : MarkRequest)
  | ack (today : Text) (a : AckRequest)
  | refresh (call : NoticeCall) (matterId : Text)

def NoticeEvent.apply (db : NoticeDb H.floats.carrier) : NoticeEvent → NoticeDb H.floats.carrier
  | .edit communications emailTexts =>
    { db with communications := communications, emailTexts := emailTexts }
  | .mark call m => markNoticeSendCandidates T H E call m db
  | .ack today a => ackNoticeSendPrompt T H today a db
  | .refresh call matterId => (refreshNoticeSendCandidatesForMatter T H E call matterId db).1

/-- The rows after the history and a last refresh of the matter. -/
def refreshedAfter (matterId : Text) (history : List NoticeEvent) (call : NoticeCall)
    (db : NoticeDb H.floats.carrier) : NoticeDb H.floats.carrier :=
  NoticeEvent.apply T H E (history.foldl (NoticeEvent.apply T H E) db) (.refresh call matterId)

def itemState {F : Type} (item : NoticeItem F) : List (Text × Json F) :=
  stateFromPayload (parseMemoPayload item.memo).1

/-- The candidate flag, the candidate date and the trigger document of an item. -/
def candidateData (item : NoticeItem H.floats.carrier) :
    Text × Bool × Json H.floats.carrier × Json H.floats.carrier :=
  (item.docketId, pyTruthy H (field (itemState item) "candidate".toList),
    field (itemState item) "candidate_at".toList, field (itemState item) "trigger_doc_name".toList)

/-- The decision and what is known of its prompt. -/
def promptHistory (item : NoticeItem H.floats.carrier) : List (Text × Json H.floats.carrier) :=
  preserveNoticeSendHistory T H (itemState item)

/-- Refreshing the matter twice on any two days writes nothing the second time, and histories that end
with the same communications and the same decisions and prompts lead to the same candidates. -/
structure HistoryIndependent (matterId : Text) (items : List (NoticeItem H.floats.carrier)) : Prop where
  second_refresh : ∀ (communications : List CommunicationRow) (emailTexts : List (Text × Text))
    (call : NoticeCall) (today : Text),
    (refreshNoticeSendCandidatesForMatter T H E { call with today := today } matterId
      (refreshNoticeSendCandidatesForMatter T H E call matterId
        ⟨items, communications, emailTexts⟩).1).2 = 0
  same_candidates : ∀ (communications : List CommunicationRow) (emailTexts : List (Text × Text))
    (history history' : List NoticeEvent) (call call' : NoticeCall),
    let db := refreshedAfter T H E matterId history call ⟨items, communications, emailTexts⟩
    let db' := refreshedAfter T H E matterId history' call' ⟨items, communications, emailTexts⟩
    loadNoticeSendCommunicationsForMatter db matterId =
        loadNoticeSendCommunicationsForMatter db' matterId →
      (openTasks T matterId db.items).map (promptHistory T H) =
        (openTasks T matterId db'.items).map (promptHistory T H) →
      (openTasks T matterId db.items).map (candidateData T H) =
        (openTasks T matterId db'.items).map (candidateData T H)

end Histories

section Memo

variable {T : LetterTables} {H : PyHost T.toUnicodeTables} {E : FloatEquality H}

lemma lookup_dumpMemoPayload (payload : List (Text × Json H.floats.carrier)) (note : Text) {key : Text}
    (h : key ≠ "legacy_note".toList) :
    (parseMemoPayload (dumpMemoPayload H payload note)).1.lookup key = payload.lookup key := by
  unfold dumpMemoPayload
  dsimp only
  split
  · exact lookup_setField_of_ne h _ _
  · rfl

lemma field_dumpMemoPayload (payload : List (Text × Json H.floats.carrier)) (note : Text) {key : Text}
    (h : key ≠ "legacy_note".toList) :
    field (parseMemoPayload (dumpMemoPayload H payload note)).1 key = field payload key := by
  unfold field
  rw [lookup_dumpMemoPayload payload note h]

lemma writtenMemo_eq (item : NoticeItem H.floats.carrier)
    (payload : List (Text × Json H.floats.carrier)) :
    writtenMemo T H E item payload =
      if pyEq E (.obj payload) (.obj (parseMemoPayload item.memo).1) then none
      else some (dumpMemoPayload H payload (parseMemoPayload item.memo).2) := rfl

/-- What is read after a payload was written is equal to what was to be written. -/
lemma pyEq_field_writePayload (item : NoticeItem H.floats.carrier)
    (payload : List (Text × Json H.floats.carrier)) {key : Text} (h : key ≠ "legacy_note".toList) :
    pyEq E (field payload key)
      (field (parseMemoPayload (writePayload T H E item payload).memo).1 key) = true := by
  unfold writePayload
  rw [writtenMemo_eq]
  split
  · next heq => exact field_of_pyEq heq key
  · rw [Option.getD_some, field_dumpMemoPayload payload _ h]
    exact pyEq_self E _

lemma writePayload_of_same {item : NoticeItem H.floats.carrier}
    {payload : List (Text × Json H.floats.carrier)} {key : Text} (h : key ≠ "legacy_note".toList)
    (hsame : field payload key = field (parseMemoPayload item.memo).1 key) :
    field (parseMemoPayload (writePayload T H E item payload).memo).1 key =
      field (parseMemoPayload item.memo).1 key := by
  unfold writePayload
  rw [writtenMemo_eq]
  split
  · rfl
  · rw [Option.getD_some, field_dumpMemoPayload payload _ h, hsame]

/-- The memo is what can differ between the two items, but not the date at which it says that the task
has begun. -/
structure SameTask (item item' : NoticeItem H.floats.carrier) : Prop where
  item_eq : item' = { item with memo := item'.memo }
  anchor_eq : taskAnchorDate H (parseMemoPayload item'.memo).1 =
    taskAnchorDate H (parseMemoPayload item.memo).1

lemma SameTask.refl (item : NoticeItem H.floats.carrier) : SameTask item item := ⟨rfl, rfl⟩

lemma SameTask.trans {item item' item'' : NoticeItem H.floats.carrier} (h : SameTask item item')
    (h' : SameTask item' item'') : SameTask item item'' := by
  refine ⟨?_, h'.anchor_eq.trans h.anchor_eq⟩
  rw [h'.item_eq, h.item_eq]

lemma SameTask.isOpenTask_eq {item item' : NoticeItem H.floats.carrier} (h : SameTask item item')
    (matterId : Text) : isOpenTask T matterId item' = isOpenTask T matterId item := by
  rw [h.item_eq]
  rfl

lemma SameTask.nameFree_eq {item item' : NoticeItem H.floats.carrier} (h : SameTask item item') :
    item'.nameFree = item.nameFree := by
  rw [h.item_eq]

lemma taskAnchorDate_congr {payload payload' : List (Text × Json H.floats.carrier)}
    (h : ∀ key ∈ ["received_date".toList, "notified_date".toList, "trigger_date".toList,
      "candidate_at".toList], field payload' key = field payload key) :
    taskAnchorDate H payload' = taskAnchorDate H payload := by
  unfold taskAnchorDate
  refine congrArg firstNonempty (List.map_congr_left ?_)
  intro key hkey
  rw [h key hkey]

/-- No date of the memo is where the recommendation or the note of an old memo is kept. -/
lemma date_key_ne {key : Text} (h : key ∈ ["received_date".toList, "notified_date".toList,
    "trigger_date".toList, "candidate_at".toList]) :
    key ≠ semiAutoKey ∧ key ≠ "legacy_note".toList := by
  revert key
  decide

lemma sameTask_writePayload {item : NoticeItem H.floats.carrier}
    {payload : List (Text × Json H.floats.carrier)}
    (h : ∀ key ≠ semiAutoKey, field payload key = field (parseMemoPayload item.memo).1 key) :
    SameTask item (writePayload T H E item payload) := by
  refine ⟨rfl, taskAnchorDate_congr ?_⟩
  intro key hkey
  exact writePayload_of_same (date_key_ne hkey).2 (h key (date_key_ne hkey).1)

lemma field_setField_of_ne {F : Type} {key key' : Text} (h : key' ≠ key) (v : Json F)
    (fields : List (Text × Json F)) : field (setField key v fields) key' = field fields key' := by
  rw [field_setField, if_neg h]

lemma field_popField_of_ne {F : Type} {key key' : Text} (h : key' ≠ key)
    (fields : List (Text × Json F)) : field (popField key fields) key' = field fields key' := by
  rw [field_popField, if_neg h]

lemma field_refreshedPayload (call : NoticeCall) (communications : List Communication)
    (item : NoticeItem H.floats.carrier) {key : Text} (h : key ≠ semiAutoKey) :
    field (refreshedPayload T H call communications item) key =
      field (parseMemoPayload item.memo).1 key := by
  unfold refreshedPayload
  dsimp only
  split
  · exact field_setField_of_ne h _ _
  · split
    · exact field_setField_of_ne h _ _
    · exact field_popField_of_ne h _

lemma field_markedPayload {call : NoticeCall} {m : MarkRequest} {item : NoticeItem H.floats.carrier}
    {payload : List (Text × Json H.floats.carrier)} (hm : markedPayload T H call m item = some payload)
    {key : Text} (h : key ≠ semiAutoKey) :
    field payload key = field (parseMemoPayload item.memo).1 key := by
  unfold markedPayload at hm
  dsimp only at hm
  split at hm
  · cases hm
  · split at hm
    · cases hm
    · rw [← Option.some_inj.mp hm]
      exact field_setField_of_ne h _ _

lemma sameTask_ackItem (today : Text) (a : AckRequest) (communications : List Communication)
    (item : NoticeItem H.floats.carrier) : SameTask item (ackItem T H today a communications item) := by
  unfold ackItem
  dsimp only
  split
  · exact SameTask.refl item
  · refine ⟨rfl, taskAnchorDate_congr ?_⟩
    intro key hkey
    rw [field_dumpMemoPayload _ _ (date_key_ne hkey).2]
    unfold ackedPayload
    exact field_setField_of_ne (date_key_ne hkey).1 _ _

/-- The item after a refresh that reads the communications. -/
def refreshItem (T : LetterTables) (H : PyHost T.toUnicodeTables) (E : FloatEquality H)
    (call : NoticeCall) (communications : List Communication) (item : NoticeItem H.floats.carrier) :
    NoticeItem H.floats.carrier :=
  writePayload T H E item (refreshedPayload T H call communications item)

lemma sameTask_refreshItem (call : NoticeCall) (communications : List Communication)
    (item : NoticeItem H.floats.carrier) :
    SameTask item (refreshItem T H E call communications item) :=
  sameTask_writePayload (fun _ h => field_refreshedPayload call communications item h)

lemma sameTask_ite {c : Prop} [Decidable c] {item item' : NoticeItem H.floats.carrier}
    (h : SameTask item item') : SameTask item (if c then item' else item) := by
  split
  · exact h
  · exact SameTask.refl item

/-- A step changes nothing of an item but the memo, and there not the dates. -/
lemma NoticeEvent.items_apply (db : NoticeDb H.floats.carrier) (e : NoticeEvent) :
    ∃ f : NoticeItem H.floats.carrier → NoticeItem H.floats.carrier,
      (e.apply T H E db).items = db.items.map f ∧ ∀ item, SameTask item (f item) := by
  have hsame : ∃ f : NoticeItem H.floats.carrier → NoticeItem H.floats.carrier,
      db.items = db.items.map f ∧ ∀ item, SameTask item (f item) :=
    ⟨id, (List.map_id _).symm, SameTask.refl⟩
  cases e with
  | edit communications emailTexts => exact hsame
  | mark call m =>
    unfold NoticeEvent.apply markNoticeSendCandidates
    dsimp only
    split
    · exact hsame
    · split
      · exact hsame
      · split
        · exact hsame
        · refine ⟨_, rfl, fun item => sameTask_ite ?_⟩
          split
          · next hm => exact sameTask_writePayload (fun _ h => field_markedPayload hm h)
          · exact SameTask.refl item
  | ack today a =>
    unfold NoticeEvent.apply ackNoticeSendPrompt
    dsimp only
    split
    · exact hsame
    · exact ⟨_, rfl, fun item => sameTask_ite (sameTask_ackItem today a _ item)⟩
  | refresh call matterId =>
    unfold NoticeEvent.apply refreshNoticeSendCandidatesForMatter
    dsimp only
    split
    · exact hsame
    · exact ⟨_, rfl, fun item => sameTask_ite (sameTask_refreshItem call _ item)⟩

lemma items_history (history : List NoticeEvent) (db : NoticeDb H.floats.carrier) :
    ∃ f : NoticeItem H.floats.carrier → NoticeItem H.floats.carrier,
      (history.foldl (NoticeEvent.apply T H E) db).items = db.items.map f ∧
        ∀ item, SameTask item (f item) := by
  induction history generalizing db with
  | nil => exact ⟨id, (List.map_id _).symm, SameTask.refl⟩
  | cons e history ih =>
    obtain ⟨f, hf, hsame⟩ := NoticeEvent.items_apply (T := T) (E := E) db e
    obtain ⟨g, hg, hsame'⟩ := ih (e.apply T H E db)
    refine ⟨g ∘ f, ?_, fun item => (hsame item).trans (hsame' (f item))⟩
    rw [List.foldl_cons, hg, hf, List.map_map]

lemma openTasks_map {f : NoticeItem H.floats.carrier → NoticeItem H.floats.carrier}
    (hf : ∀ item, SameTask item (f item)) (matterId : Text) (items : List (NoticeItem H.floats.carrier)) :
    openTasks T matterId (items.map f) = (openTasks T matterId items).map f := by
  unfold openTasks
  split
  · rfl
  · rw [List.filter_map]
    congr 1
    apply List.filter_congr
    intro item _
    exact (hf item).isOpenTask_eq _

lemma refresh_items {matterId : Text} (hmid : pyStrip matterId ≠ []) (call : NoticeCall)
    (db : NoticeDb H.floats.carrier) :
    (refreshNoticeSendCandidatesForMatter T H E call matterId db).1 =
      { db with items := db.items.map (fun item => if isOpenTask T (pyStrip matterId) item then
          refreshItem T H E call (loadNoticeSendCommunicationsForMatter db matterId) item else item) } := by
  have hload : loadNoticeSendCommunicationsForMatter db (pyStrip matterId) =
      loadNoticeSendCommunicationsForMatter db matterId := by
    unfold loadNoticeSendCommunicationsForMatter
    rw [pyStrip_of_stripped (stripped_pyStrip matterId)]
  unfold refreshNoticeSendCandidatesForMatter
  dsimp only
  rw [if_neg hmid, hload]
  rfl

/-- The tasks after a refresh. -/
lemma openTasks_refresh (matterId : Text) (call : NoticeCall) (db : NoticeDb H.floats.carrier) :
    openTasks T matterId (refreshNoticeSendCandidatesForMatter T H E call matterId db).1.items =
      (openTasks T matterId db.items).map
        (refreshItem T H E call (loadNoticeSendCommunicationsForMatter db matterId)) := by
  by_cases hmid : pyStrip matterId = []
  · unfold openTasks
    rw [if_pos hmid, if_pos hmid]
    rfl
  · rw [refresh_items hmid, openTasks_map (fun item => sameTask_ite (sameTask_refreshItem call _ item))]
    apply List.map_congr_left
    intro item hitem
    unfold openTasks at hitem
    rw [if_neg hmid, List.mem_filter] at hitem
    exact if_pos hitem.2

/-- The number of rows that a refresh writes. -/
lemma refresh_count (matterId : Text) (call : NoticeCall) (db : NoticeDb H.floats.carrier) :
    (refreshNoticeSendCandidatesForMatter T H E call matterId db).2 =
      ((openTasks T matterId db.items).filter (fun item => (writtenMemo T H E item
        (refreshedPayload T H call (loadNoticeSendCommunicationsForMatter db matterId)
          item)).isSome)).length := by
  unfold refreshNoticeSendCandidatesForMatter openTasks loadNoticeSendCommunicationsForMatter
  dsimp only
  rw [pyStrip_of_stripped (stripped_pyStrip matterId)]
  split <;> rfl

lemma load_refresh (matterId matterId' : Text) (call : NoticeCall) (db : NoticeDb H.floats.carrier) :
    loadNoticeSendCommunicationsForMatter
      (refreshNoticeSendCandidatesForMatter T H E call matterId db).1 matterId' =
      loadNoticeSendCommunicationsForMatter db matterId' := by
  unfold refreshNoticeSendCandidatesForMatter
  dsimp only
  split <;> rfl

/-! ### The state after a refresh -/

def historyKeys : List Text := ["decision".toList, "prompted_at".toList, "prompted_by".toList]

lemma field_optional {F : Type} {c : Prop} [Decidable c] (k : Text) (v : Json F)
    (rest : List (Text × Json F)) (key : Text) :
    field ((if c then [(k, v)] else []) ++ rest) key =
      if k = key ∧ c then v else field rest key := by
  by_cases hc : c
  · rw [if_pos hc, List.singleton_append, field_cons]
    simp only [hc, and_true]
  · rw [if_neg hc, List.nil_append, if_neg (fun h => hc h.2)]

lemma field_filterMap {F : Type} {c : Text → Prop} [DecidablePred c] (v : Text → Json F)
    (keys : List Text) (key : Text) :
    field (keys.filterMap (fun k => if c k then some (k, v k) else none)) key =
      if key ∈ keys ∧ c key then v key else .null := by
  induction keys with
  | nil => rfl
  | cons k keys ih =>
    rw [List.filterMap_cons]
    by_cases hk : c k
    · rw [if_pos hk]
      dsimp only
      rw [field_cons, ih]
      by_cases heq : k = key
      · subst heq
        simp [hk]
      · simp [heq, Ne.symm heq]
    · rw [if_neg hk]
      dsimp only
      rw [ih]
      by_cases heq : key = k
      · subst heq
        simp [hk]
      · simp [heq]

lemma field_preserve_prompted (state : List (Text × Json H.floats.carrier)) :
    pyTruthy H (field (preserveNoticeSendHistory T H state) "prompted".toList) =
      pyTruthy H (field state "prompted".toList) := by
  unfold preserveNoticeSendHistory
  rw [field_optional, field_filterMap]
  cases h : pyTruthy H (field state "prompted".toList) with
  | false => rfl
  | true => rfl

lemma field_preserve {key : Text} (hkey : key ≠ "prompted".toList)
    (state : List (Text × Json H.floats.carrier)) :
    field (preserveNoticeSendHistory T H state) key =
      if key ∈ historyKeys ∧ strippedStr H (field state key) ≠ [] then field state key else .null := by
  unfold preserveNoticeSendHistory
  rw [field_optional, if_neg (fun h => hkey h.1.symm), field_filterMap]
  rfl

lemma preserve_congr {state state' : List (Text × Json H.floats.carrier)}
    (hprompted : pyTruthy H (field state' "prompted".toList) =
      pyTruthy H (field state "prompted".toList))
    (hkept : ∀ key ∈ historyKeys,
      field state' key = field (preserveNoticeSendHistory T H state) key) :
    preserveNoticeSendHistory T H state' = preserveNoticeSendHistory T H state := by
  unfold preserveNoticeSendHistory
  rw [hprompted]
  congr 1
  apply List.filterMap_congr
  intro key hkey
  have hne : key ≠ "prompted".toList := by
    revert hkey
    revert key
    decide
  have hfield := hkept key hkey
  rw [field_preserve hne] at hfield
  by_cases h : strippedStr H (field state key) = []
  · have hnull : strippedStr H .null = [] := rfl
    rw [if_neg (fun hc => hc.2 h)] at hfield
    rw [hfield, h, hnull]
    rfl
  · rw [if_pos ⟨hkey, h⟩] at hfield
    rw [hfield]

section MatchedState

variable (call : NoticeCall) (m : MatchedCommunication) (kept : List (Text × Json H.floats.carrier))

lemma field_setDefault_of_ne {F : Type} {key key' : Text} (h : key' ≠ key) (v : Json F)
    (fields : List (Text × Json F)) : field (setDefault key v fields) key' = field fields key' := by
  unfold setDefault
  split
  · rfl
  · exact field_setField_of_ne h _ _

/-- The fields that say who has refreshed change no other. -/
lemma field_matchedState {key : Text} (h : key ≠ "source".toList) (h' : key ≠ "candidate_by".toList) :
    field (matchedState T H call m kept) key =
      field (setField "trigger_doc_name".toList (.str ((pyStrip m.docName).take 200))
        (setField "candidate_at".toList (.str (firstNonempty [m.sentDate, call.today]))
          (setDefault "prompted".toList (.bool false)
            (setField "candidate".toList (.bool true) kept)))) key := by
  unfold matchedState
  dsimp only
  split <;> split
  · rw [field_setField_of_ne h', field_setField_of_ne h]
  · rw [field_setField_of_ne h']
    split
    · rw [field_popField_of_ne h]
    · rfl
  · rw [field_setField_of_ne h]
  · split
    · rw [field_popField_of_ne h]
    · rfl

lemma candidate_matchedState :
    field (matchedState T H call m kept) "candidate".toList = .bool true := by
  rw [field_matchedState call m kept (by decide) (by decide), field_setField_of_ne (by decide),
    field_setField_of_ne (by decide), field_setDefault_of_ne (by decide), field_setField, if_pos rfl]

lemma candidateAt_matchedState :
    field (matchedState T H call m kept) "candidate_at".toList =
      .str (firstNonempty [m.sentDate, call.today]) := by
  rw [field_matchedState call m kept (by decide) (by decide), field_setField_of_ne (by decide),
    field_setField, if_pos rfl]

lemma triggerDocName_matchedState :
    field (matchedState T H call m kept) "trigger_doc_name".toList =
      .str ((pyStrip m.docName).take 200) := by
  rw [field_matchedState call m kept (by decide) (by decide), field_setField, if_pos rfl]

lemma kept_matchedState {key : Text} (h : key ∈ historyKeys) :
    field (matchedState T H call m kept) key = field kept key := by
  have hne : key ≠ "source".toList ∧ key ≠ "candidate_by".toList ∧ key ≠ "trigger_doc_name".toList ∧
      key ≠ "candidate_at".toList ∧ key ≠ "prompted".toList ∧ key ≠ "candidate".toList := by
    revert h
    revert key
    decide
  obtain ⟨hsource, hby, htrigger, hat, hprompted, hcandidate⟩ := hne
  rw [field_matchedState call m kept hsource hby, field_setField_of_ne htrigger,
    field_setField_of_ne hat, field_setDefault_of_ne hprompted, field_setField_of_ne hcandidate]

lemma prompted_matchedState :
    pyTruthy H (field (matchedState T H call m kept) "prompted".toList) =
      pyTruthy H (field kept "prompted".toList) := by
  rw [field_matchedState call m kept (by decide) (by decide), field_setField_of_ne (by decide),
    field_setField_of_ne (by decide)]
  unfold setDefault
  split
  · rw [field_setField_of_ne (by decide)]
  · next h =>
    rw [lookup_setField_of_ne (by decide), Option.not_isSome_iff_eq_none] at h
    rw [field_setField, if_pos rfl]
    unfold field
    rw [h]
    rfl

end MatchedState

/-- The state that a refresh wants to be stored: none if it wants none. -/
def wantedState (T : LetterTables) (H : PyHost T.toUnicodeTables) (call : NoticeCall)
    (matched : Option MatchedCommunication) (kept : List (Text × Json H.floats.carrier)) :
    Option (List (Text × Json H.floats.carrier)) :=
  match matched with
  | some m => some (matchedState T H call m kept)
  | none => if kept ≠ [] then some (setField "candidate".toList (.bool false) kept) else none

/-- The communication that a refresh matches with the item. -/
def matchedFor (T : LetterTables) (H : PyHost T.toUnicodeTables) (communications : List Communication)
    (item : NoticeItem H.floats.carrier) : Option MatchedCommunication :=
  matchingCommunicationForTask T H item (parseMemoPayload item.memo).1 (itemState item) communications

lemma refreshedPayload_eq (call : NoticeCall) (communications : List Communication)
    (item : NoticeItem H.floats.carrier) :
    refreshedPayload T H call communications item =
      match wantedState T H call (matchedFor T H communications item) (promptHistory T H item) with
      | some s => setField semiAutoKey (.obj s) (parseMemoPayload item.memo).1
      | none => popField semiAutoKey (parseMemoPayload item.memo).1 := by
  unfold refreshedPayload wantedState matchedFor promptHistory itemState
  dsimp only
  cases matchingCommunicationForTask T H item (parseMemoPayload item.memo).1
      (stateFromPayload (parseMemoPayload item.memo).1) communications with
  | some m => rfl
  | none =>
    dsimp only
    split <;> rfl

lemma lookup_refreshedPayload (call : NoticeCall) (communications : List Communication)
    (item : NoticeItem H.floats.carrier) :
    (refreshedPayload T H call communications item).lookup semiAutoKey =
      (wantedState T H call (matchedFor T H communications item) (promptHistory T H item)).map .obj := by
  rw [refreshedPayload_eq]
  split
  · next h =>
    rw [h]
    exact lookup_setField _ _ _
  · next h =>
    rw [h]
    exact lookup_popField _ _

/-- The state after a refresh is equal to the one that was wanted. -/
lemma pyEq_itemState_refreshItem (call : NoticeCall) (communications : List Communication)
    (item : NoticeItem H.floats.carrier) (key : Text) :
    pyEq E (field ((wantedState T H call (matchedFor T H communications item)
        (promptHistory T H item)).getD []) key)
      (field (itemState (refreshItem T H E call communications item)) key) = true := by
  have hstored := pyEq_field_writePayload (E := E) item
    (refreshedPayload T H call communications item) (show semiAutoKey ≠ _ by decide)
  have hlookup := lookup_refreshedPayload call communications item
  unfold itemState stateFromPayload refreshItem
  unfold field at hstored
  rw [hlookup] at hstored
  cases hwanted : wantedState T H call (matchedFor T H communications item) (promptHistory T H item) with
  | some s =>
    rw [hwanted, Option.map_some, Option.getD_some] at hstored
    obtain ⟨fields, hfields⟩ := exists_of_pyEq_obj hstored
    rw [hfields] at hstored
    have hfield : field (parseMemoPayload (writePayload T H E item
        (refreshedPayload T H call communications item)).memo).1 semiAutoKey = .obj fields := hfields
    rw [hfield]
    exact field_of_pyEq hstored key
  | none =>
    rw [hwanted, Option.map_none, Option.getD_none] at hstored
    have hfield : field (parseMemoPayload (writePayload T H E item
        (refreshedPayload T H call communications item)).memo).1 semiAutoKey = .null :=
      eq_null_of_pyEq hstored
    rw [hfield]
    exact pyEq_self E _

/-- What a refresh makes of an item: its candidate is the communication that it has matched. -/
lemma candidateData_refreshItem (call : NoticeCall) (communications : List Communication)
    (item : NoticeItem H.floats.carrier) :
    candidateData T H (refreshItem T H E call communications item) =
      match matchedFor T H communications item with
      | some m => (item.docketId, true, .str (firstNonempty [m.sentDate, call.today]),
          .str ((pyStrip m.docName).take 200))
      | none => (item.docketId, false, .null, .null) := by
  have hstate := pyEq_itemState_refreshItem (E := E) call communications item
  have hcandidate := hstate "candidate".toList
  have hat := hstate "candidate_at".toList
  have htrigger := hstate "trigger_doc_name".toList
  have hdata : ∀ (b : Bool) (v w : Json H.floats.carrier),
      pyTruthy H (field (itemState (refreshItem T H E call communications item)) "candidate".toList) = b →
      field (itemState (refreshItem T H E call communications item)) "candidate_at".toList = v →
      field (itemState (refreshItem T H E call communications item)) "trigger_doc_name".toList = w →
      candidateData T H (refreshItem T H E call communications item) = (item.docketId, b, v, w) := by
    intro b v w hb hv hw
    unfold candidateData
    rw [hb, hv, hw]
    rfl
  cases hmatched : matchedFor T H communications item with
  | some m =>
    rw [hmatched, wantedState, Option.getD_some] at hcandidate hat htrigger
    rw [candidate_matchedState] at hcandidate
    rw [candidateAt_matchedState] at hat
    rw [triggerDocName_matchedState] at htrigger
    exact hdata _ _ _ (pyTruthy_of_pyEq_bool hcandidate) (eq_of_pyEq_str hat) (eq_of_pyEq_str htrigger)
  | none =>
    have hnull : ∀ key, key ≠ "prompted".toList → key ∉ historyKeys →
        field (promptHistory T H item) key = .null := by
      intro key hne hkey
      unfold promptHistory
      rw [field_preserve hne, if_neg (fun h => hkey h.1)]
    rw [hmatched, wantedState] at hcandidate hat htrigger
    by_cases hkept : promptHistory T H item = []
    · rw [if_neg (not_not.mpr hkept)] at hcandidate hat htrigger
      apply hdata _ _ _ _ (eq_null_of_pyEq hat) (eq_null_of_pyEq htrigger)
      rw [eq_null_of_pyEq hcandidate]
      rfl
    · rw [if_pos hkept, Option.getD_some] at hcandidate hat htrigger
      rw [field_setField, if_pos rfl] at hcandidate
      rw [field_setField_of_ne (by decide), hnull _ (by decide) (by decide)] at hat htrigger
      exact hdata _ _ _ (pyTruthy_of_pyEq_bool hcandidate) (eq_null_of_pyEq hat)
        (eq_null_of_pyEq htrigger)

/-- The state that is wanted has the decision and the prompts of the one before. -/
lemma preserve_wantedState (call : NoticeCall) (matched : Option MatchedCommunication)
    (item : NoticeItem H.floats.carrier) :
    preserveNoticeSendHistory T H ((wantedState T H call matched (promptHistory T H item)).getD []) =
      promptHistory T H item := by
  unfold promptHistory
  apply preserve_congr
  · rw [← field_preserve_prompted (T := T) (itemState item)]
    cases matched with
    | some m => exact prompted_matchedState call m _
    | none =>
      unfold wantedState
      by_cases hkept : preserveNoticeSendHistory T H (itemState item) = []
      · rw [hkept]
        rfl
      · dsimp only
        rw [if_pos hkept, Option.getD_some, field_setField_of_ne (by decide)]
  · intro key hkey
    cases matched with
    | some m => exact kept_matchedState call m _ hkey
    | none =>
      unfold wantedState
      by_cases hkept : preserveNoticeSendHistory T H (itemState item) = []
      · rw [hkept]
        rfl
      · have hne : key ≠ "candidate".toList := by
          revert hkey
          revert key
          decide
        dsimp only
        rw [if_pos hkept, Option.getD_some, field_setField_of_ne hne]

lemma refreshItem_of_none {call : NoticeCall} {communications : List Communication}
    {item : NoticeItem H.floats.carrier}
    (h : writtenMemo T H E item (refreshedPayload T H call communications item) = none) :
    refreshItem T H E call communications item = item := by
  unfold refreshItem writePayload
  rw [h]
  rfl

/-- The memo that is written has the state that was wanted. -/
lemma itemState_of_some {call : NoticeCall} {communications : List Communication}
    {item : NoticeItem H.floats.carrier}
    (h : writtenMemo T H E item (refreshedPayload T H call communications item) ≠ none) :
    (parseMemoPayload (refreshItem T H E call communications item).memo).1.lookup semiAutoKey =
        (wantedState T H call (matchedFor T H communications item) (promptHistory T H item)).map .obj ∧
      itemState (refreshItem T H E call communications item) =
        (wantedState T H call (matchedFor T H communications item) (promptHistory T H item)).getD [] := by
  have hlookup : (parseMemoPayload (refreshItem T H E call communications item).memo).1.lookup
      semiAutoKey = (wantedState T H call (matchedFor T H communications item)
        (promptHistory T H item)).map .obj := by
    rw [← lookup_refreshedPayload]
    rw [writtenMemo_eq] at h
    unfold refreshItem writePayload
    rw [writtenMemo_eq]
    split at h
    · exact absurd rfl h
    · next hne =>
      rw [if_neg hne, Option.getD_some, lookup_dumpMemoPayload _ _ (by decide)]
  refine ⟨hlookup, ?_⟩
  unfold itemState stateFromPayload field
  rw [hlookup]
  cases wantedState T H call (matchedFor T H communications item) (promptHistory T H item) with
  | some s => rfl
  | none => rfl

lemma promptHistory_refreshItem (call : NoticeCall) (communications : List Communication)
    (item : NoticeItem H.floats.carrier) :
    promptHistory T H (refreshItem T H E call communications item) = promptHistory T H item := by
  by_cases h : writtenMemo T H E item (refreshedPayload T H call communications item) = none
  · rw [refreshItem_of_none h]
  · have hstate := (itemState_of_some h).2
    have hpreserve := preserve_wantedState call (matchedFor T H communications item) item
    rw [← hstate] at hpreserve
    exact hpreserve

/-- The communications come from rows, which have no direction. -/
def Undirected (communications : List Communication) : Prop :=
  ∀ comm ∈ communications, comm.direction = [] ∧ comm.action = []

lemma undirected_load {F : Type} (db : NoticeDb F) (matterId : Text) :
    Undirected (loadNoticeSendCommunicationsForMatter db matterId) := by
  intro comm hcomm
  unfold loadNoticeSendCommunicationsForMatter at hcomm
  split at hcomm
  · cases hcomm
  · obtain ⟨row, -, rfl⟩ := List.mem_map.mp hcomm
    exact ⟨rfl, rfl⟩

/-- What is matched was sent on a date. -/
lemma sentDate_of_matchedFor {communications : List Communication} (h : Undirected communications)
    {item : NoticeItem H.floats.carrier} {m : MatchedCommunication}
    (hm : matchedFor T H communications item = some m) : m.sentDate ≠ [] := by
  obtain ⟨comm, hcomm, hmatch⟩ := List.exists_of_findSome?_eq_some hm
  have hmem : comm ∈ communications := (List.mem_insertionSort _).mp hcomm
  obtain ⟨hdirection, haction⟩ := h comm hmem
  have hsend : pyStrip ([] : Text) ≠ "Send".toList := by decide
  unfold matchCommunication at hmatch
  dsimp only at hmatch
  rw [hdirection, haction] at hmatch
  split at hmatch
  · cases hmatch
  · next hsent =>
    have hne : normalizeIsoDate T.toUnicodeTables (pyStrip comm.sentDate) ≠ [] :=
      fun heq => hsent ⟨heq, hsend, hsend⟩
    split at hmatch
    · cases hmatch
    · split at hmatch
      · cases hmatch
      · split at hmatch
        · cases hmatch
        · split at hmatch
          · cases hmatch
          · rw [← Option.some_inj.mp hmatch]
            exact hne

lemma firstNonempty_cons {t : Text} (h : t ≠ []) (ts : List Text) : firstNonempty (t :: ts) = t := by
  unfold firstNonempty
  rw [List.find?_cons_of_pos (by simpa using h)]
  rfl

/-- The day of a refresh is not stored. -/
lemma wantedState_today {communications : List Communication} (h : Undirected communications)
    (call : NoticeCall) (today : Text) (item : NoticeItem H.floats.carrier)
    (kept : List (Text × Json H.floats.carrier)) :
    wantedState T H { call with today := today } (matchedFor T H communications item) kept =
      wantedState T H call (matchedFor T H communications item) kept := by
  cases hm : matchedFor T H communications item with
  | none => rfl
  | some m =>
    have hsent := sentDate_of_matchedFor h hm
    unfold wantedState matchedState
    dsimp only
    rw [firstNonempty_cons hsent, firstNonempty_cons hsent]

/-- The title names the document of the task. -/
def NamesDocument {F : Type} (item : NoticeItem F) : Prop :=
  (titleDocument (item.nameFree.getD [])).isSome = true

/-- If the title names the document, what is matched does not depend on the state. -/
lemma matchedFor_of_sameTask {item item' : NoticeItem H.floats.carrier} (h : SameTask item item')
    (hdoc : NamesDocument item) (communications : List Communication) :
    matchedFor T H communications item' = matchedFor T H communications item := by
  obtain ⟨doc, hsome⟩ := Option.isSome_iff_exists.mp hdoc
  unfold matchedFor matchingCommunicationForTask taskDocHint
  rw [h.anchor_eq, h.nameFree_eq, hsome]
  rfl

/-- A second refresh writes nothing. -/
lemma writtenMemo_refreshItem {communications : List Communication} (h : Undirected communications)
    (call : NoticeCall) (today : Text) {item : NoticeItem H.floats.carrier} (hdoc : NamesDocument item) :
    writtenMemo T H E (refreshItem T H E call communications item)
      (refreshedPayload T H { call with today := today } communications
        (refreshItem T H E call communications item)) = none := by
  have hmatched := matchedFor_of_sameTask (sameTask_refreshItem (E := E) call communications item) hdoc
    communications
  by_cases hwritten : writtenMemo T H E item (refreshedPayload T H call communications item) = none
  · rw [refreshItem_of_none hwritten, refreshedPayload_eq, wantedState_today h, ← refreshedPayload_eq]
    exact hwritten
  · have hlookup := (itemState_of_some hwritten).1
    have hsame : refreshedPayload T H { call with today := today } communications
        (refreshItem T H E call communications item) =
        (parseMemoPayload (refreshItem T H E call communications item).memo).1 := by
      rw [refreshedPayload_eq, wantedState_today h, hmatched, promptHistory_refreshItem]
      cases hwanted : wantedState T H call (matchedFor T H communications item)
          (promptHistory T H item) with
      | some s =>
        rw [hwanted, Option.map_some] at hlookup
        exact setField_of_lookup hlookup
      | none =>
        rw [hwanted, Option.map_none] at hlookup
        exact popField_of_lookup hlookup
    rw [hsame, writtenMemo_eq, if_pos (pyEq_self E _)]

/-- The tasks after a history and a last refresh. -/
lemma openTasks_refreshedAfter (matterId : Text) (history : List NoticeEvent) (call : NoticeCall)
    (db : NoticeDb H.floats.carrier) :
    ∃ f : NoticeItem H.floats.carrier → NoticeItem H.floats.carrier, (∀ item, SameTask item (f item)) ∧
      openTasks T matterId (refreshedAfter T H E matterId history call db).items =
        (openTasks T matterId db.items).map (fun item => refreshItem T H E call
          (loadNoticeSendCommunicationsForMatter (refreshedAfter T H E matterId history call db) matterId)
          (f item)) := by
  obtain ⟨f, hf, hsame⟩ := items_history (T := T) (E := E) history db
  refine ⟨f, hsame, ?_⟩
  change openTasks T matterId (refreshNoticeSendCandidatesForMatter T H E call matterId
      (history.foldl (NoticeEvent.apply T H E) db)).1.items =
    (openTasks T matterId db.items).map (fun item => refreshItem T H E call
      (loadNoticeSendCommunicationsForMatter (refreshNoticeSendCandidatesForMatter T H E call matterId
        (history.foldl (NoticeEvent.apply T H E) db)).1 matterId) (f item))
  rw [openTasks_refresh, load_refresh, hf, openTasks_map hsame, List.map_map]
  rfl

/-- If every title names a document, a refresh makes of a task what the communications alone say. -/
lemma historyIndependent_of_namesDocument {matterId : Text} {items : List (NoticeItem H.floats.carrier)}
    (hdoc : ∀ item ∈ openTasks T matterId items, NamesDocument item) :
    HistoryIndependent T H E matterId items := by
  constructor
  · intro communications emailTexts call today
    rw [refresh_count, load_refresh, openTasks_refresh, List.length_eq_zero_iff, List.filter_eq_nil_iff]
    intro item hitem
    obtain ⟨before, hbefore, rfl⟩ := List.mem_map.mp hitem
    rw [writtenMemo_refreshItem (undirected_load _ _) call today (hdoc before hbefore)]
    exact Bool.false_ne_true
  · intro communications emailTexts history history' call call'
    dsimp only
    intro hload _
    obtain ⟨f, hf, hitems⟩ := openTasks_refreshedAfter (E := E) matterId history call
      (⟨items, communications, emailTexts⟩ : NoticeDb H.floats.carrier)
    obtain ⟨g, hg, hitems'⟩ := openTasks_refreshedAfter (E := E) matterId history' call'
      (⟨items, communications, emailTexts⟩ : NoticeDb H.floats.carrier)
    rw [hitems, hitems', hload, List.map_map, List.map_map]
    apply List.map_congr_left
    intro item hitem
    have hmatched := matchedFor_of_sameTask (hf item) (hdoc item hitem)
    have hmatched' := matchedFor_of_sameTask (hg item) (hdoc item hitem)
    have hid : (f item).docketId = (g item).docketId := by rw [(hf item).item_eq, (hg item).item_eq]
    rw [Function.comp_apply, Function.comp_apply, candidateData_refreshItem, candidateData_refreshItem,
      hmatched, hmatched', hid]
    cases hm : matchedFor T H (loadNoticeSendCommunicationsForMatter (refreshedAfter T H E matterId
        history' call' ⟨items, communications, emailTexts⟩) matterId) item with
    | none => rfl
    | some m =>
      have hsent := sentDate_of_matchedFor (undirected_load _ _) hm
      dsimp only
      rw [firstNonempty_cons hsent, firstNonempty_cons hsent]

/-! ### A task whose title names no document -/

lemma isIsoDate_facts {t : Text} (h : isIsoDate T.toUnicodeTables t = true) :
    pyStrip t = t ∧ t ≠ [] ∧ normalizeIsoDate T.toUnicodeTables t = t := by
  have hshape : t.length = 10 ∧ Stripped t := by
    unfold isIsoDate at h
    split at h
    · next a b c d e f g h' =>
      have hspace : ∀ x ∈ [a, b, c, d, e, f, g, h'], pyIsSpace x = false := by
        intro x hx
        have hdigit := List.all_eq_true.mp h x hx
        cases hc : pyIsSpace x with
        | false => rfl
        | true =>
          rw [isDecimalDigit, T.decimal_of_isSpace x hc] at hdigit
          cases hdigit
      refine ⟨rfl, ?_, ?_⟩
      · intro x hx
        cases hx
        exact hspace a (by simp)
      · intro x hx
        cases hx
        exact hspace h' (by simp)
    · cases h
  have hstrip := pyStrip_of_stripped hshape.2
  refine ⟨hstrip, ?_, ?_⟩
  · intro hnil
    rw [hnil] at hshape
    exact absurd hshape.1 (by decide)
  · unfold normalizeIsoDate
    dsimp only
    rw [hstrip, List.take_of_length_le hshape.1.le, if_pos h]

/-- A date that the item does not count as too early. -/
def dateFor (anchorDate : Text) : Text := if anchorDate = [] then "2026-01-01".toList else anchorDate

lemma isIsoDate_taskAnchorDate (payload : List (Text × Json H.floats.carrier)) :
    taskAnchorDate H payload = [] ∨ isIsoDate T.toUnicodeTables (taskAnchorDate H payload) = true := by
  unfold taskAnchorDate firstNonempty
  cases hfind : List.find? (fun x : Text => decide (x ≠ []))
      (["received_date".toList, "notified_date".toList, "trigger_date".toList,
        "candidate_at".toList].map (fun key => normalizeIsoDate T.toUnicodeTables
          (strippedStr H (field payload key)))) with
  | none => exact .inl rfl
  | some t =>
    obtain ⟨key, -, hkey⟩ := List.mem_map.mp (List.mem_of_find?_eq_some hfind)
    have hne : t ≠ [] := by simpa using List.find?_some hfind
    refine .inr ?_
    rw [Option.getD_some, ← hkey]
    rw [← hkey] at hne
    unfold normalizeIsoDate at hne ⊢
    dsimp only at hne ⊢
    split at hne
    · next hiso =>
      rw [if_pos hiso]
      exact hiso
    · exact absurd rfl hne

lemma isIsoDate_dateFor (payload : List (Text × Json H.floats.carrier)) :
    isIsoDate T.toUnicodeTables (dateFor (taskAnchorDate H payload)) = true := by
  unfold dateFor
  split
  · have hall : ("20260101".toList).all (isDecimalDigit T.toUnicodeTables) = true := by
      rw [List.all_eq_true]
      intro c hc
      have hdigit : c.isDigit = true := by
        revert hc
        revert c
        decide
      rw [isDecimalDigit, T.decimal_of_isDigit c hdigit]
      rfl
    exact hall
  · next hne => exact (isIsoDate_taskAnchorDate payload).resolve_left hne

def letterRow (matterId date note : Text) : CommunicationRow where
  commId := "1".toList
  matterId := pyStrip matterId
  commType := none
  sentDate := some date
  note := some note

/-- A letter that the title does not help to match is matched by the document that was stored. -/
lemma matchedFor_letter {F : Type} {matterId : Text} (hmid : pyStrip matterId ≠ []) (items : List (NoticeItem F))
    {note : Text} (hnote : pyStrip note = note ∧ note ≠ [] ∧ isResponseLikeDoc note = false)
    {item : NoticeItem H.floats.carrier} (hdoc : titleDocument (item.nameFree.getD []) = none)
    {date : Text} (hdate : date = dateFor (taskAnchorDate H (parseMemoPayload item.memo).1)) :
    matchedFor T H (loadNoticeSendCommunicationsForMatter
        ⟨items, [letterRow matterId date note], []⟩ matterId) item =
      if isRelevantDocForHint note (strippedStr H (field (itemState item) "trigger_doc_name".toList)) []
      then some ⟨date, note, "1".toList⟩ else none := by
  have hiso := isIsoDate_dateFor (parseMemoPayload item.memo).1
  rw [← hdate] at hiso
  obtain ⟨hstrip, hne, hnormal⟩ := isIsoDate_facts hiso
  obtain ⟨hnoteStrip, hnoteNe, hresponse⟩ := hnote
  have hload : loadNoticeSendCommunicationsForMatter
      (⟨items, [letterRow matterId date note], []⟩ : NoticeDb F) matterId =
      [{ commId := "1".toList, commType := [], sentDate := date, note := note, sourceText := [] }] := by
    unfold loadNoticeSendCommunicationsForMatter letterRow
    rw [if_neg hmid]
    simp only [decide_true, Option.isSome_some, and_self, List.filter_cons_of_pos, List.filter_nil,
      List.map_cons, List.map_nil, Option.getD_some, hstrip, hnoteStrip]
    rfl
  have hearly : ¬(date ≠ [] ∧ taskAnchorDate H (parseMemoPayload item.memo).1 ≠ [] ∧
      date < taskAnchorDate H (parseMemoPayload item.memo).1) := by
    rintro ⟨-, hanchor, hlt⟩
    rw [hdate, dateFor, if_neg hanchor] at hlt
    exact List.lt_irrefl _ hlt
  have hname : firstNonempty [([] : Text), note, []] = note := by
    unfold firstNonempty
    simp [hnoteNe]
  have hsource : pyStrip (firstNonempty [([] : Text), []]) = [] := rfl
  have hid : pyStrip "1".toList = "1".toList := by decide
  rw [hload]
  unfold matchedFor matchingCommunicationForTask matchingCommunication sortedCommunications taskDocHint
  rw [List.insertionSort_cons, List.insertionSort_nil, List.orderedInsert_nil, hdoc, Option.getD_none]
  unfold matchCommunication communicationDocName communicationSourceText
  dsimp only [List.findSome?_cons, List.findSome?_nil]
  rw [hstrip, hnormal, hname, hnoteStrip, hsource, hid, if_neg (fun h => hne h.1), if_neg hearly,
    if_neg (fun h => h.1 rfl), if_neg (fun h => by simp [hresponse] at h)]
  cases isRelevantDocForHint note
      (strippedStr H (field (itemState item) "trigger_doc_name".toList)) [] with
  | false => rfl
  | true =>
    rw [firstNonempty_cons hnoteNe]
    rfl

lemma strippedStr_triggerDocName {item : NoticeItem H.floats.carrier} {t : Text}
    (h : field (itemState item) "trigger_doc_name".toList = .str t) (ht : t ≠ []) :
    strippedStr H (field (itemState item) "trigger_doc_name".toList) = pyStrip t := by
  have htrue : pyTruthy H (.str t) = true := by simpa [pyTruthy] using ht
  rw [h, strippedStr, pyOr, if_pos htrue, pyStr_str]

/-- The communications that a refresh reads after the rows of the table were given. -/
def letters (matterId : Text) (rows : List CommunicationRow) : List Communication :=
  loadNoticeSendCommunicationsForMatter (⟨[], rows, []⟩ : NoticeDb Unit) matterId

lemma load_refreshedAfter_edit (matterId : Text) (history : List NoticeEvent)
    (rows : List CommunicationRow) (call : NoticeCall) (db : NoticeDb H.floats.carrier) :
    loadNoticeSendCommunicationsForMatter
      (refreshedAfter T H E matterId (history ++ [NoticeEvent.edit rows []]) call db) matterId =
      letters matterId rows := by
  unfold refreshedAfter
  rw [List.foldl_append]
  exact load_refresh matterId matterId call _

lemma openTasks_refreshedAfter_edit (matterId : Text) (history : List NoticeEvent)
    (rows : List CommunicationRow) (call : NoticeCall) (db : NoticeDb H.floats.carrier) :
    openTasks T matterId
      (refreshedAfter T H E matterId (history ++ [NoticeEvent.edit rows []]) call db).items =
      (openTasks T matterId (history.foldl (NoticeEvent.apply T H E) db).items).map
        (refreshItem T H E call (letters matterId rows)) := by
  unfold refreshedAfter
  rw [List.foldl_append]
  exact openTasks_refresh matterId call _

/-- A refresh without communications, and one after there was a letter `Notice` as well. -/
lemma openTasks_cleared (matterId : Text) (rows : List CommunicationRow) (call : NoticeCall)
    (items : List (NoticeItem H.floats.carrier)) :
    openTasks T matterId ([NoticeEvent.refresh call matterId].foldl (NoticeEvent.apply T H E)
        ⟨items, [], []⟩).items =
        (openTasks T matterId items).map (refreshItem T H E call (letters matterId [])) ∧
      openTasks T matterId ([NoticeEvent.refresh call matterId, .edit rows [],
        .refresh call matterId].foldl (NoticeEvent.apply T H E) ⟨items, [], []⟩).items =
        (openTasks T matterId items).map (fun item => refreshItem T H E call (letters matterId rows)
          (refreshItem T H E call (letters matterId []) item)) := by
  have hfirst : openTasks T matterId ([NoticeEvent.refresh call matterId].foldl
      (NoticeEvent.apply T H E) ⟨items, [], []⟩).items =
      (openTasks T matterId items).map (refreshItem T H E call (letters matterId [])) :=
    openTasks_refresh matterId call _
  refine ⟨hfirst, ?_⟩
  have hsecond := openTasks_refreshedAfter_edit (T := T) (E := E) matterId
    [NoticeEvent.refresh call matterId] rows call (⟨items, [], []⟩ : NoticeDb H.floats.carrier)
  rw [hfirst, List.map_map] at hsecond
  exact hsecond

section NoDocument

variable {matterId : Text} (hmid : pyStrip matterId ≠ []) {item : NoticeItem H.floats.carrier}
  (hdoc : titleDocument (item.nameFree.getD []) = none) (call : NoticeCall)

include hmid hdoc

/-- The hint that is left by a refresh that finds the letter. -/
lemma triggerDocName_letter (note : Text)
    (hnote : pyStrip note = note ∧ note ≠ [] ∧ isResponseLikeDoc note = false)
    (hshort : note.length ≤ 200)
    (hrelevant : isRelevantDocForHint note
      (strippedStr H (field (itemState item) "trigger_doc_name".toList)) [] = true) :
    strippedStr H (field (itemState (refreshItem T H E call (letters matterId
      [letterRow matterId (dateFor (taskAnchorDate H (parseMemoPayload item.memo).1)) note]) item))
        "trigger_doc_name".toList) = note := by
  have hmatched := matchedFor_letter hmid ([] : List (NoticeItem Unit)) hnote hdoc rfl
  rw [if_pos hrelevant] at hmatched
  have hdata := candidateData_refreshItem (E := E) call (letters matterId
    [letterRow matterId (dateFor (taskAnchorDate H (parseMemoPayload item.memo).1)) note]) item
  unfold letters at hdata
  rw [hmatched] at hdata
  dsimp only at hdata
  rw [hnote.1, List.take_of_length_le hshort] at hdata
  exact (strippedStr_triggerDocName (congrArg (fun d => d.2.2.2) hdata) hnote.2.1).trans hnote.1

/-- The flag says whether the letter is about the stored document. -/
lemma candidate_letter (note : Text)
    (hnote : pyStrip note = note ∧ note ≠ [] ∧ isResponseLikeDoc note = false) {date : Text}
    (hdate : date = dateFor (taskAnchorDate H (parseMemoPayload item.memo).1)) :
    (candidateData T H (refreshItem T H E call (letters matterId [letterRow matterId date note])
      item)).2.1 = isRelevantDocForHint note
        (strippedStr H (field (itemState item) "trigger_doc_name".toList)) [] := by
  rw [candidateData_refreshItem]
  unfold letters
  rw [matchedFor_letter hmid _ hnote hdoc hdate]
  cases isRelevantDocForHint note
      (strippedStr H (field (itemState item) "trigger_doc_name".toList)) [] with
  | false => rfl
  | true => rfl

omit hdoc in
lemma triggerDocName_cleared : strippedStr H (field (itemState (refreshItem T H E call
    (letters matterId []) item)) "trigger_doc_name".toList) = [] := by
  have hnone : matchedFor T H (letters matterId []) item = none := by
    unfold letters loadNoticeSendCommunicationsForMatter
    rw [if_neg hmid]
    rfl
  have hclear := candidateData_refreshItem (E := E) call (letters matterId []) item
  rw [hnone] at hclear
  rw [show field (itemState (refreshItem T H E call (letters matterId []) item))
    "trigger_doc_name".toList = .null from congrArg (fun d => d.2.2.2) hclear]
  rfl

/-- A letter `ice` is no candidate, but it is one after a letter `Notice`. -/
lemma candidate_depends {date : Text}
    (hdate : date = dateFor (taskAnchorDate H (parseMemoPayload item.memo).1)) :
    let cleared := refreshItem T H E call (letters matterId []) item
    let noticed := refreshItem T H E call
      (letters matterId [letterRow matterId date "Notice".toList]) cleared
    let last := letters matterId [letterRow matterId date "ice".toList]
    candidateData T H (refreshItem T H E call last cleared) ≠
      candidateData T H (refreshItem T H E call last noticed) := by
  intro cleared noticed last heq
  have hcleared : SameTask item cleared := sameTask_refreshItem _ _ _
  have hnoticed : SameTask item noticed := hcleared.trans (sameTask_refreshItem _ _ _)
  have hclearedDoc : titleDocument (cleared.nameFree.getD []) = none := by
    rw [hcleared.nameFree_eq]
    exact hdoc
  have hnoticedDoc : titleDocument (noticed.nameFree.getD []) = none := by
    rw [hnoticed.nameFree_eq]
    exact hdoc
  have hempty : strippedStr H (field (itemState cleared) "trigger_doc_name".toList) = [] :=
    triggerDocName_cleared hmid call
  have hstored : strippedStr H (field (itemState noticed) "trigger_doc_name".toList) =
      "Notice".toList := by
    have htrigger := triggerDocName_letter (E := E) hmid hclearedDoc call "Notice".toList (by decide)
      (by decide) (by rw [hempty]; decide)
    rw [hcleared.anchor_eq, ← hdate] at htrigger
    exact htrigger
  have hclearedDate : date = dateFor (taskAnchorDate H (parseMemoPayload cleared.memo).1) := by
    rw [hcleared.anchor_eq]
    exact hdate
  have hnoticedDate : date = dateFor (taskAnchorDate H (parseMemoPayload noticed.memo).1) := by
    rw [hnoticed.anchor_eq]
    exact hdate
  have hshort := candidate_letter (E := E) hmid hclearedDoc call "ice".toList (by decide) hclearedDate
  have hlong := candidate_letter (E := E) hmid hnoticedDoc call "ice".toList (by decide) hnoticedDate
  rw [hempty] at hshort
  rw [hstored] at hlong
  have hflag := (congrArg (fun d => d.2.1) heq).symm.trans hshort
  rw [hlong] at hflag
  exact absurd hflag (by decide)

end NoDocument

/-- If a title names no document, a letter that is gone decides about the next. -/
lemma not_historyIndependent {matterId : Text} {items : List (NoticeItem H.floats.carrier)}
    {item : NoticeItem H.floats.carrier} (hitem : item ∈ openTasks T matterId items)
    (hdoc : ¬NamesDocument item) : ¬HistoryIndependent T H E matterId items := by
  intro hind
  have hmid : pyStrip matterId ≠ [] := by
    intro hnil
    rw [openTasks, if_pos hnil] at hitem
    cases hitem
  have htitle : titleDocument (item.nameFree.getD []) = none := by
    unfold NamesDocument at hdoc
    rwa [Option.not_isSome_iff_eq_none] at hdoc
  let call : NoticeCall := ⟨[], [], []⟩
  let date := dateFor (taskAnchorDate H (parseMemoPayload item.memo).1)
  let ice := [letterRow matterId date "ice".toList]
  let notice := [letterRow matterId date "Notice".toList]
  obtain ⟨hcleared, hnoticed⟩ := openTasks_cleared (T := T) (E := E) matterId notice call items
  have hsame := hind.same_candidates [] []
    ([NoticeEvent.refresh call matterId] ++ [NoticeEvent.edit ice []])
    ([NoticeEvent.refresh call matterId, .edit notice [], .refresh call matterId] ++
      [NoticeEvent.edit ice []]) call call
  dsimp only at hsame
  rw [load_refreshedAfter_edit, load_refreshedAfter_edit, openTasks_refreshedAfter_edit,
    openTasks_refreshedAfter_edit, hcleared, hnoticed] at hsame
  replace hsame := hsame rfl
  simp only [List.map_map] at hsame
  have hprompts : ∀ r ∈ openTasks T matterId items, promptHistory T H (refreshItem T H E call
      (letters matterId ice) (refreshItem T H E call (letters matterId []) r)) =
      promptHistory T H (refreshItem T H E call (letters matterId ice) (refreshItem T H E call
        (letters matterId notice) (refreshItem T H E call (letters matterId []) r))) := by
    intro r _
    rw [promptHistory_refreshItem, promptHistory_refreshItem, promptHistory_refreshItem,
      promptHistory_refreshItem, promptHistory_refreshItem]
  have hcandidates := List.map_inj_left.mp (hsame (List.map_inj_left.mpr hprompts)) item hitem
  exact candidate_depends hmid htitle call rfl hcandidates

end Memo

/-- Refreshing is idempotent and does not depend on what was matched before exactly if the title of every
open notice-send task of the matter names its document. -/
theorem history_independent_iff (T : LetterTables) (H : PyHost T.toUnicodeTables) (E : FloatEquality H)
    (matterId : Text) (items : List (NoticeItem H.floats.carrier)) :
    HistoryIndependent T H E matterId items ↔
      ∀ item ∈ openTasks T matterId items, NamesDocument item := by
  constructor
  · intro hind item hitem
    by_contra hdoc
    exact not_historyIndependent hitem hdoc hind
  · exact historyIndependent_of_namesDocument

lemma decide_self (x : ℚ) : decide (x = x) = true := decide_eq_true rfl

/-- Equality of the exact amounts of the plain host. -/
def plainEquality : @FloatEquality asciiLetterTables.toUnicodeTables Billing.plainHost where
  floatFloat (x y : ℚ) := decide (x = y)
  floatInt (x : ℚ) n := decide (x = n)
  floatFloat_self := decide_self
  isZero_of_floatInt (x : ℚ) n h := by
    have hx : x = n := of_decide_eq_true h
    change decide (x = 0) = true ↔ n = 0
    rw [decide_eq_true_iff, hx, Int.cast_eq_zero]

/-- The title of the task names no document. -/
def clientNotice : NoticeItem Billing.plainHost.floats.carrier where
  docketId := "D1".toList
  matterId := "M1".toList
  category := "MGMT".toList
  nameRef := some "MGMT:NOTICE_SEND_3D:7".toList
  nameFree := some "Notice Client".toList
  memo := .text []

/-- The letter about the rejection is a candidate if a letter `Notice: final rejection` was there
before it, and else is none. -/
theorem history_decides_candidate :
    ¬∀ (matterId : Text) (items : List (NoticeItem Billing.plainHost.floats.carrier)),
      HistoryIndependent asciiLetterTables Billing.plainHost plainEquality matterId items := by
  intro h
  let call : NoticeCall := ⟨"refresh".toList, [], "2026-07-01".toList⟩
  let row (note : String) : CommunicationRow :=
    ⟨"C1".toList, "M1".toList, some "M".toList, some "2026-06-01".toList, some note.toList⟩
  let db (history : List NoticeEvent) := refreshedAfter asciiLetterTables Billing.plainHost
    plainEquality "M1".toList history call ⟨[clientNotice], [], []⟩
  let short : List NoticeEvent := [.edit [row "Final rejection"] []]
  let long : List NoticeEvent := [.edit [row "Notice: final rejection"] [],
    .refresh call "M1".toList, .edit [row "Final rejection"] []]
  have hload : loadNoticeSendCommunicationsForMatter (db short) "M1".toList =
      loadNoticeSendCommunicationsForMatter (db long) "M1".toList := by decide +kernel
  -- no decision was taken, and nobody was prompted
  have hnone : ∀ l : List (List (Text × Json Billing.plainHost.floats.carrier)),
      l.map List.length = [0] → l = [[]] := by
    intro l hl
    obtain ⟨state, rfl, hstate⟩ := List.map_eq_singleton_iff.mp hl
    rw [List.length_eq_zero_iff.mp hstate]
  have hprompts : ∀ history ∈ [short, long], (openTasks asciiLetterTables "M1".toList
      (db history).items).map (promptHistory asciiLetterTables Billing.plainHost) = [[]] := by
    intro history hhistory
    apply hnone
    obtain rfl | hlong := List.mem_cons.mp hhistory
    · decide +kernel
    · rw [List.mem_singleton.mp hlong]
      decide +kernel
  have hsame := (h "M1".toList [clientNotice]).same_candidates [] [] short long call call hload
    ((hprompts short (by simp)).trans (hprompts long (by simp)).symm)
  exact absurd (congrArg (List.map (fun d => d.2.1)) hsame) (by decide +kernel)

end IpDocket.Deadlines
