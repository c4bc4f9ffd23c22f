import IpDocket.Clients.MergeAttachments

/-!
# Attachments that stay reachable

A move takes one free name of the directory of the target and changes nothing else there, so that no
file of the target is lost and every copy keeps its name to the end. A row of a source is found again
if its copy succeeds and the merge commits; after an exception it is found if its file is still where
the row says.
-/

namespace IpDocket.Clients
open IpDocket.Lib

section Step

variable {C : Type} {call : MergeCall C} {files : Files C} {s : MoveState C} {a b : Attachment}
  {content : C} {n : Text} {p : Place}

/-- The names under which the file of an attachment can come into the directory of the target. -/
def Attachment.names (a : Attachment) : List Text := candidateNames (basename a.storedName)

/-- The files of two attachments may come under the same name. -/
def sharesName (a b : Attachment) : Bool := a.names.any (· ∈ b.names)

def isFree (call : MergeCall C) (files : Files C) (n : Text) : Bool :=
  (files ⟨0, call.target, n⟩).isNone

lemma dstName_spec (hne : basename a.storedName ≠ [])
    (hfree : ∃ n ∈ a.names, isFree call files n = true) :
    dstName call files a ∈ a.names ∧ isFree call files (dstName call files a) = true := by
  have hhead : basename a.storedName ∈ a.names := by
    unfold Attachment.names
    rw [candidateNames_eq hne (not_mem_basename _)]
    exact List.mem_cons_self
  unfold dstName
  dsimp only
  split
  · unfold uniqueFilename
    dsimp only
    have hsome : (a.names.find? (isFree call files)).isSome = true := List.find?_isSome.mpr hfree
    obtain ⟨n, hn⟩ := Option.isSome_iff_exists.mp hsome
    have hsame : (candidateNames (basename a.storedName)).find?
        (fun name => !(files ⟨0, call.target, name⟩).isSome) = some n := by
      rw [← hn]
      exact congrArg (List.find? · _) (funext (fun name => by
        unfold isFree
        cases files ⟨0, call.target, name⟩ <;> rfl))
    rw [hsame, Option.getD_some]
    exact ⟨List.mem_of_find?_eq_some hn, List.find?_some hn⟩
  · next htaken =>
    refine ⟨hhead, ?_⟩
    unfold isFree
    simpa using htaken

/-- What one move can do. -/
lemma moveFile_cases (call : MergeCall C) (s : MoveState C) (a : Attachment) :
    (moveFile call s a = s ∧ ((∃ content, s.files a.src = some content) → basename a.storedName ≠ [] →
      call.outcome a.id = .leadsOut)) ∨
    ∃ content, s.files a.src = some content ∧ basename a.storedName ≠ [] ∧
      ((∃ left, call.outcome a.id = .copyFails left ∧ moveFile call s a = { s with
          files := Function.update s.files ⟨0, call.target, dstName call s.files a⟩ left }) ∨
        (call.outcome a.id = .removeFails ∧ moveFile call s a = {
          files := Function.update s.files ⟨0, call.target, dstName call s.files a⟩ (some content)
          renamed := noteRenamed a (dstName call s.files a) s.renamed }) ∨
        (call.outcome a.id = .moved ∧ moveFile call s a = {
          files := Function.update (Function.update s.files
            ⟨0, call.target, dstName call s.files a⟩ (some content)) a.src none
          renamed := noteRenamed a (dstName call s.files a) s.renamed })) := by
  unfold moveFile
  dsimp only
  by_cases hname : basename a.storedName = []
  · rw [if_pos hname]
    exact .inl ⟨rfl, fun _ hne => absurd hname hne⟩
  · rw [if_neg hname]
    cases hsrc : s.files a.src with
    | none =>
      refine .inl ⟨rfl, ?_⟩
      rintro ⟨content, hcontent⟩
      cases hcontent
    | some content =>
      cases hout : call.outcome a.id with
      | leadsOut => exact .inl ⟨rfl, fun _ _ => rfl⟩
      | copyFails left => exact .inr ⟨content, rfl, hname, .inl ⟨left, rfl, rfl⟩⟩
      | removeFails => exact .inr ⟨content, rfl, hname, .inr (.inl ⟨rfl, rfl⟩)⟩
      | moved => exact .inr ⟨content, rfl, hname, .inr (.inr ⟨rfl, rfl⟩)⟩

/-- The directory of the target after a move: at most one name is taken, and that was free. -/
structure TargetStep (call : MergeCall C) (a : Attachment) (s s' : MoveState C) : Prop where
  kept : ∀ n, s.files ⟨0, call.target, n⟩ ≠ none →
    s'.files ⟨0, call.target, n⟩ = s.files ⟨0, call.target, n⟩
  one : ∃ d ∈ a.names, ∀ n, n ≠ d → s'.files ⟨0, call.target, n⟩ = s.files ⟨0, call.target, n⟩
  elsewhere : ∀ p : Place, p.base ≠ 0 ∨ p.client ≠ call.target → s'.files p = s.files p ∨
    (call.outcome a.id = .moved ∧ p = a.src ∧ s'.files p = none)
  renamed : s'.renamed = s.renamed ∨ ∃ d, s'.renamed = s.renamed ++ [(a.id, d)]

lemma targetStep (hsource : a.clientId ≠ call.target) (hne : basename a.storedName ≠ [] →
    s.files a.src ≠ none → ∃ n ∈ a.names, isFree call s.files n = true) (hnames : a.names ≠ []) :
    TargetStep call a s (moveFile call s a) := by
  have hsrc : ∀ n, a.src ≠ ⟨0, call.target, n⟩ := fun n h => hsource (congrArg Place.client h)
  have hnote : ∀ d, noteRenamed a d s.renamed = s.renamed ∨
      ∃ d', noteRenamed a d s.renamed = s.renamed ++ [(a.id, d')] := by
    intro d
    unfold noteRenamed
    split
    · exact .inl rfl
    · exact .inr ⟨d, rfl⟩
  rcases moveFile_cases call s a with ⟨hsame, -⟩ | ⟨content, hcontent, hname, hcase⟩
  · obtain ⟨d, hd⟩ := List.exists_mem_of_ne_nil _ hnames
    rw [hsame]
    exact ⟨fun _ _ => rfl, ⟨d, hd, fun _ _ => rfl⟩, fun _ _ => .inl rfl, .inl rfl⟩
  · obtain ⟨hmem, hfree⟩ := dstName_spec hname (hne hname (by rw [hcontent]; simp))
    have hdst : s.files ⟨0, call.target, dstName call s.files a⟩ = none := by
      unfold isFree at hfree
      simpa using hfree
    have hother : ∀ n, n ≠ dstName call s.files a →
        (⟨0, call.target, n⟩ : Place) ≠ ⟨0, call.target, dstName call s.files a⟩ :=
      fun n hn h => hn (congrArg Place.name h)
    have htaken : ∀ n, s.files ⟨0, call.target, n⟩ ≠ none → n ≠ dstName call s.files a := by
      rintro n hn rfl
      exact hn hdst
    have helse : ∀ p : Place, p.base ≠ 0 ∨ p.client ≠ call.target →
        p ≠ ⟨0, call.target, dstName call s.files a⟩ := by
      rintro p hp rfl
      rcases hp with hp | hp
      · exact hp rfl
      · exact hp rfl
    rcases hcase with ⟨left, -, hs'⟩ | ⟨-, hs'⟩ | ⟨hout, hs'⟩
    · rw [hs']
      refine ⟨fun n hn => ?_, ⟨_, hmem, fun n hn => ?_⟩, fun p hp => .inl ?_, .inl rfl⟩
      · exact Function.update_of_ne (hother n (htaken n hn)) _ _
      · exact Function.update_of_ne (hother n hn) _ _
      · exact Function.update_of_ne (helse p hp) _ _
    · rw [hs']
      refine ⟨fun n hn => ?_, ⟨_, hmem, fun n hn => ?_⟩, fun p hp => .inl ?_, hnote _⟩
      · exact Function.update_of_ne (hother n (htaken n hn)) _ _
      · exact Function.update_of_ne (hother n hn) _ _
      · exact Function.update_of_ne (helse p hp) _ _
    · rw [hs']
      refine ⟨fun n hn => ?_, ⟨_, hmem, fun n hn => ?_⟩, fun p hp => ?_, hnote _⟩
      · dsimp only
        rw [Function.update_of_ne (hsrc n).symm, Function.update_of_ne (hother n (htaken n hn))]
      · dsimp only
        rw [Function.update_of_ne (hsrc n).symm, Function.update_of_ne (hother n hn)]
      · dsimp only
        by_cases hp' : p = a.src
        · refine .inr ⟨hout, hp', ?_⟩
          rw [hp', Function.update_self]
        · rw [Function.update_of_ne hp', Function.update_of_ne (helse p hp)]
          exact .inl rfl

/-- A copy that succeeds is in the directory of the target, under the name that is noted. -/
lemma placed_of_copied (hsource : a.clientId ≠ call.target) (hne : basename a.storedName ≠ [])
    (hfree : ∃ n ∈ a.names, isFree call s.files n = true) (hcontent : s.files a.src = some content)
    (hout : call.outcome a.id = .removeFails ∨ call.outcome a.id = .moved) :
    ∃ d ∈ a.names, (moveFile call s a).files ⟨0, call.target, d⟩ = some content ∧
      (moveFile call s a).renamed = noteRenamed a d s.renamed := by
  have hsrc : ∀ n, a.src ≠ ⟨0, call.target, n⟩ := fun n h => hsource (congrArg Place.client h)
  refine ⟨dstName call s.files a, (dstName_spec hne hfree).1, ?_⟩
  unfold moveFile
  dsimp only
  rw [if_neg hne, hcontent]
  dsimp only
  rcases hout with hout | hout
  · rw [hout]
    exact ⟨Function.update_self _ _ _, rfl⟩
  · rw [hout]
    dsimp only
    rw [Function.update_of_ne (hsrc _).symm, Function.update_self]
    exact ⟨rfl, rfl⟩

/-- A move takes one of the free names of a list at most, and only one that it has tried. -/
lemma countP_isFree (hstep : TargetStep call a s s') {l : List Text} (hl : l.Nodup) :
    l.countP (isFree call s.files) ≤
      l.countP (isFree call s'.files) + if l.any (· ∈ a.names) then 1 else 0 := by
  obtain ⟨d, hd, hone⟩ := hstep.one
  have hsame : ∀ n, n ≠ d → isFree call s'.files n = isFree call s.files n := by
    intro n hn
    unfold isFree
    rw [hone n hn]
  induction l with
  | nil => exact Nat.zero_le _
  | cons n l ih =>
    obtain ⟨hmem, hrest⟩ := List.nodup_cons.mp hl
    rw [List.countP_cons, List.countP_cons, List.any_cons]
    by_cases hn : n = d
    · have hkept : l.countP (isFree call s'.files) = l.countP (isFree call s.files) := by
        refine List.countP_congr (fun m hm => ?_)
        rw [hsame m (fun h => hmem (hn ▸ h ▸ hm))]
      rw [hkept, hn, decide_eq_true hd, Bool.true_or, if_pos rfl]
      split <;> split <;> omega
    · rw [hsame n hn]
      have hle := ih hrest
      by_cases hany : (l.any fun x => decide (x ∈ a.names)) = true
      · rw [hany, if_pos rfl] at hle
        rw [hany, Bool.or_true, if_pos rfl]
        omega
      · rw [if_neg hany] at hle
        omega

end Step

section Run

variable {C : Type} {call : MergeCall C} {files : Files C} {s : MoveState C}
  {a : Attachment} {done rest later : List Attachment}

/-- The state after the files of `done` have been moved. -/
structure Moving (call : MergeCall C) (files : Files C) (done rest : List Attachment)
    (s : MoveState C) : Prop where
  kept : ∀ n, files ⟨0, call.target, n⟩ ≠ none →
    s.files ⟨0, call.target, n⟩ = files ⟨0, call.target, n⟩
  fresh : ∀ n, (∀ a ∈ done, n ∉ a.names) →
    s.files ⟨0, call.target, n⟩ = files ⟨0, call.target, n⟩
  elsewhere : ∀ p : Place, p.base ≠ 0 ∨ p.client ≠ call.target → s.files p = files p ∨
    ((∃ a ∈ done, call.outcome a.id = .moved ∧ p = a.src) ∧ s.files p = none)
  room : ∀ a ∈ rest, basename a.storedName ≠ [] → files a.src ≠ none →
    rest.countP (sharesName a) ≤ a.names.countP (isFree call s.files)
  placed : ∀ a ∈ done, ∀ content, files a.src = some content → a.storedName ≠ [] →
    basename a.storedName = a.storedName →
    (call.outcome a.id = .removeFails ∨ call.outcome a.id = .moved) →
    (∀ b ∈ done ++ rest, b.src = a.src → b = a) →
      s.files ⟨0, call.target, (s.renamed.foldl renameRow a).storedName⟩ = some content ∧
        (s.renamed.foldl renameRow a).storedName ∈ a.names
  noted : ∀ entry ∈ s.renamed, ∃ a ∈ done, entry.1 = a.id

lemma renameRow_of_ne {entry : Nat × Text} (h : a.id ≠ entry.1) : renameRow a entry = a := by
  unfold renameRow onRows
  exact if_neg (by simp [h])

lemma id_foldl_renameRow (renamed : List (Nat × Text)) (a : Attachment) :
    (renamed.foldl renameRow a).id = a.id := by
  induction renamed generalizing a with
  | nil => rfl
  | cons entry renamed ih =>
    rw [List.foldl_cons, ih, id_renameRow]

lemma foldl_renameRow_of_ne {renamed : List (Nat × Text)} (h : ∀ entry ∈ renamed, a.id ≠ entry.1) :
    renamed.foldl renameRow a = a := by
  induction renamed with
  | nil => rfl
  | cons entry renamed ih =>
    rw [List.foldl_cons, renameRow_of_ne (h entry List.mem_cons_self)]
    exact ih (fun e he => h e (List.mem_cons_of_mem entry he))

/-- Moving the file of the next attachment. -/
lemma Moving.step (h : Moving call files done (a :: rest) s)
    (hsource : ∀ b ∈ done ++ a :: rest, b.clientId ≠ call.target)
    (hids : (done ++ a :: rest).Pairwise (fun a b => a.id ≠ b.id)) :
    Moving call files (done ++ [a]) rest (moveFile call s a) := by
  have hmem : a ∈ done ++ a :: rest := List.mem_append_right _ List.mem_cons_self
  have hsrc : a.src.base ≠ 0 ∨ a.src.client ≠ call.target := .inr (hsource a hmem)
  have hthere : s.files a.src ≠ none → files a.src ≠ none := by
    intro hne hnone
    rcases h.elsewhere a.src hsrc with hsame | ⟨-, hgone⟩
    · exact hne (hsame.trans hnone)
    · exact hne hgone
  have hnames : a.names ≠ [] := by
    unfold Attachment.names candidateNames
    exact List.cons_ne_nil _ _
  have hfree : basename a.storedName ≠ [] → files a.src ≠ none →
      ∃ n ∈ a.names, isFree call s.files n = true := by
    intro hname hne
    have hroom := h.room a List.mem_cons_self hname hne
    have hself : sharesName a a = true := by
      obtain ⟨n, hn⟩ := List.exists_mem_of_ne_nil _ hnames
      exact List.any_eq_true.mpr ⟨n, hn, decide_eq_true hn⟩
    have hpos : 0 < a.names.countP (isFree call s.files) := by
      rw [List.countP_cons, if_pos hself] at hroom
      omega
    exact List.countP_pos_iff.mp hpos
  have hstep : TargetStep call a s (moveFile call s a) :=
    targetStep (hsource a hmem) (fun hname hne => hfree hname (hthere hne)) hnames
  have hother : ∀ b ∈ done, b.id ≠ a.id := by
    intro b hb
    exact (List.pairwise_append.mp hids).2.2 b hb a List.mem_cons_self
  constructor
  case kept =>
    intro n hn
    have hnow := h.kept n hn
    rw [← hnow]
    exact hstep.kept n (by rwa [hnow])
  case fresh =>
    intro n hn
    obtain ⟨d, hd, hone⟩ := hstep.one
    have hnd : n ≠ d := by
      rintro rfl
      exact hn a (List.mem_append_right _ (List.mem_singleton_self a)) hd
    rw [hone n hnd]
    exact h.fresh n (fun b hb => hn b (List.mem_append_left _ hb))
  case elsewhere =>
    intro p hp
    rcases hstep.elsewhere p hp with hsame | ⟨hout, hpa, hgone⟩
    · rw [hsame]
      refine (h.elsewhere p hp).imp_right ?_
      rintro ⟨⟨b, hb, hmoved⟩, hgone⟩
      exact ⟨⟨b, List.mem_append_left _ hb, hmoved⟩, hgone⟩
    · exact .inr ⟨⟨a, List.mem_append_right _ (List.mem_singleton_self a), hout, hpa⟩, hgone⟩
  case room =>
    intro b hb hname hne
    have hroom := h.room b (List.mem_cons_of_mem a hb) hname hne
    have hle := countP_isFree hstep (nodup_candidateNames hname (not_mem_basename b.storedName))
    rw [List.countP_cons] at hroom
    have hshares : (candidateNames (basename b.storedName)).any (· ∈ a.names) = sharesName b a := rfl
    rw [hshares] at hle
    unfold Attachment.names at hroom ⊢
    omega
  case placed =>
    intro b hb content hcontent hne hbase hout halone
    rcases List.mem_append.mp hb with hb | hb
    · -- a name that is taken stays, and the entry that is noted is for another id
      obtain ⟨hfile, hmemnames⟩ := h.placed b hb content hcontent hne hbase hout
        (fun b' hb' => halone b' (by simpa using hb'))
      have hkept : ((moveFile call s a).renamed.foldl renameRow b) = s.renamed.foldl renameRow b := by
        rcases hstep.renamed with hsame | ⟨d, hnew⟩
        · rw [hsame]
        · rw [hnew, List.foldl_append, List.foldl_cons, List.foldl_nil]
          apply renameRow_of_ne
          rw [id_foldl_renameRow]
          exact hother b hb
      rw [hkept]
      refine ⟨?_, hmemnames⟩
      rw [hstep.kept _ (by rw [hfile]; simp)]
      exact hfile
    · rw [List.mem_singleton.mp hb] at hcontent hne hbase hout halone ⊢
      have hsame : s.files a.src = some content := by
        rcases h.elsewhere a.src hsrc with hsame | ⟨⟨b', hb', -, hpb⟩, -⟩
        · exact hsame.trans hcontent
        · have heq := halone b' (List.mem_append_left _ (List.mem_append_left _ hb')) hpb.symm
          exact absurd (congrArg Attachment.id heq) (hother b' hb')
      have hname : basename a.storedName ≠ [] := by rwa [hbase]
      obtain ⟨d, hd, hfile, hrenamed⟩ := placed_of_copied (hsource a hmem) hname
        (hfree hname (by rw [hcontent]; simp)) hsame hout
      have hbefore : s.renamed.foldl renameRow a = a := by
        apply foldl_renameRow_of_ne
        intro entry hentry
        obtain ⟨b', hb', hid⟩ := h.noted entry hentry
        rw [hid]
        exact (hother b' hb').symm
      have hstored : ((moveFile call s a).renamed.foldl renameRow a).storedName = d := by
        rw [hrenamed]
        unfold noteRenamed
        split
        · next heq => rw [hbefore, heq, hbase]
        · rw [List.foldl_append, hbefore, List.foldl_cons, List.foldl_nil]
          unfold renameRow onRows
          rw [if_pos (decide_eq_true rfl)]
      rw [hstored]
      exact ⟨hfile, hd⟩
  case noted =>
    intro entry hentry
    rcases hstep.renamed with hsame | ⟨d, hnew⟩
    · rw [hsame] at hentry
      obtain ⟨b, hb, hid⟩ := h.noted entry hentry
      exact ⟨b, List.mem_append_left _ hb, hid⟩
    · rw [hnew] at hentry
      rcases List.mem_append.mp hentry with hentry | hentry
      · obtain ⟨b, hb, hid⟩ := h.noted entry hentry
        exact ⟨b, List.mem_append_left _ hb, hid⟩
      · rw [List.mem_singleton.mp hentry]
        exact ⟨a, List.mem_append_right _ (List.mem_singleton_self a), rfl⟩

/-- Moving the files of all attachments of `rest`. -/
lemma Moving.run (h : Moving call files done (rest ++ later) s)
    (hsource : ∀ b ∈ done ++ (rest ++ later), b.clientId ≠ call.target)
    (hids : (done ++ (rest ++ later)).Pairwise (fun a b => a.id ≠ b.id)) :
    Moving call files (done ++ rest) later (rest.foldl (moveFile call) s) := by
  induction rest generalizing done s with
  | nil =>
    rw [List.append_nil]
    exact h
  | cons a rest ih =>
    have hassoc : done ++ [a] ++ (rest ++ later) = done ++ (a :: rest ++ later) := by simp
    have hstep := Moving.step (a := a) h hsource hids
    have hrun := ih hstep (by rwa [hassoc]) (by rwa [hassoc])
    rw [List.append_assoc, List.singleton_append] at hrun
    exact hrun

end Run

section Order

variable {selected : List Attachment} {a : Attachment}

lemma flatMap_filter_perm {keys : List Nat} {l : List Attachment} (hkeys : keys.Nodup)
    (hcover : ∀ a ∈ l, a.clientId ∈ keys) :
    (keys.flatMap (fun k => l.filter (fun a => a.clientId = k))).Perm l := by
  induction keys generalizing l with
  | nil =>
    cases l with
    | nil => exact .nil
    | cons a l => exact absurd (hcover a List.mem_cons_self) List.not_mem_nil
  | cons k keys ih =>
    obtain ⟨hk, hrest⟩ := List.nodup_cons.mp hkeys
    rw [List.flatMap_cons]
    have hsame : keys.flatMap (fun k => l.filter (fun a => a.clientId = k)) =
        keys.flatMap (fun k' => (l.filter (fun a => !decide (a.clientId = k))).filter
          (fun a => a.clientId = k')) := by
      refine List.flatMap_congr (fun k' hk' => ?_)
      rw [List.filter_filter]
      refine List.filter_congr (fun a _ => ?_)
      by_cases hak : a.clientId = k'
      · have hne : a.clientId ≠ k := by
          rintro heq
          exact hk (heq ▸ hak ▸ hk')
        simp [hak, hak ▸ hne]
      · simp [hak]
    rw [hsame]
    have hperm := ih (l := l.filter (fun a => !decide (a.clientId = k))) hrest (by
      intro a ha
      obtain ⟨hmem, hne⟩ := List.mem_filter.mp ha
      rcases List.mem_cons.mp (hcover a hmem) with heq | hin
      · simp [heq] at hne
      · exact hin)
    exact (List.Perm.append_left _ hperm).trans
      (List.filter_append_perm (fun a : Attachment => decide (a.clientId = k)) l)

lemma clientId_mem_keys (ha : a ∈ selected) :
    a.clientId ∈ (selected.map Attachment.clientId).foldl (keepFirst id) [] := by
  obtain ⟨sid, hsid, heq⟩ : ∃ sid ∈ (selected.map Attachment.clientId).foldl (keepFirst id) [],
      id sid = id a.clientId := exists_key_foldl_keepFirst [] (List.mem_map_of_mem ha)
  rwa [← show sid = a.clientId from heq]

lemma moveOrder_perm (selected : List Attachment) : (moveOrder selected).Perm selected := by
  unfold moveOrder byClient
  rw [List.flatMap_map]
  refine flatMap_filter_perm (pairwise_foldl_keepFirst .nil) (fun a ha => ?_)
  exact clientId_mem_keys ha

lemma mem_keys_byClient (sid : Nat) :
    sid ∈ (byClient selected).map Prod.fst ↔ ∃ a ∈ selected, a.clientId = sid := by
  unfold byClient
  rw [List.map_map]
  change sid ∈ List.map id _ ↔ _
  rw [List.map_id]
  constructor
  · intro hmem
    rcases mem_of_mem_foldl_keepFirst hmem with hnone | hmem
    · cases hnone
    · exact List.mem_map.mp hmem
  · rintro ⟨a, ha, rfl⟩
    exact clientId_mem_keys ha

end Order

section Rows

variable {C : Type} {call : MergeCall C} {rows : Table Attachment.id} {k : Nat}

lemma foldl_moveClient (l : List (Nat × List Attachment)) (s : MoveState C)
    (rows : Table Attachment.id) : l.foldl (moveClient call) (s, rows) =
      ((l.flatMap Prod.snd).foldl (moveFile call) s, (l.map Prod.fst).foldl (repoint call) rows) := by
  induction l generalizing s rows with
  | nil => rfl
  | cons client l ih =>
    rw [List.foldl_cons, List.flatMap_cons, List.foldl_append, List.map_cons, List.foldl_cons, ← ih]
    rfl

/-- A row after the `UPDATE`s of `client_id`. -/
def repointed (call : MergeCall C) (sids : List Nat) (a : Attachment) : Attachment :=
  if a.clientId ∈ sids then { a with clientId := call.target } else a

lemma find_repoint (sid : Nat) :
    (repoint call rows sid).find k = (rows.find k).map (repointRow call sid) :=
  Table.find_update (id_repointRow call sid)

lemma find_rename (entry : Nat × Text) :
    (rename rows entry).find k = (rows.find k).map (renameRow · entry) :=
  Table.find_update (id_renameRow entry)

lemma find_repoints {sids : List Nat} (h : call.target ∉ sids) :
    (sids.foldl (repoint call) rows).find k = (rows.find k).map (repointed call sids) := by
  induction sids generalizing rows with
  | nil =>
    rw [List.foldl_nil]
    cases rows.find k <;> rfl
  | cons sid sids ih =>
    obtain ⟨hsid, hrest⟩ := not_or.mp (fun hmem => h (List.mem_cons.mpr hmem))
    rw [List.foldl_cons, ih hrest, find_repoint, Option.map_map]
    congr 1
    funext a
    change repointed call sids (repointRow call sid a) = repointed call (sid :: sids) a
    unfold repointRow onRows repointed
    by_cases heq : a.clientId = sid
    · simp [heq, hrest]
    · simp [heq]

lemma find_renames {renamed : List (Nat × Text)} :
    (renamed.foldl rename rows).find k = (rows.find k).map (fun a => renamed.foldl renameRow a) := by
  induction renamed generalizing rows with
  | nil =>
    rw [List.foldl_nil]
    cases rows.find k <;> rfl
  | cons entry renamed ih =>
    rw [List.foldl_cons, ih, find_rename, Option.map_map]
    rfl

lemma foldl_renameRow_repoint (renamed : List (Nat × Text)) (a : Attachment) (sid : Nat) :
    renamed.foldl renameRow { a with clientId := sid } =
      { renamed.foldl renameRow a with clientId := sid } := by
  induction renamed generalizing a with
  | nil => rfl
  | cons entry renamed ih =>
    rw [List.foldl_cons, List.foldl_cons, ← ih]
    congr 1
    unfold renameRow onRows
    split <;> rfl

end Rows

section Reachable

variable {C : Type}

/-- `selected` are the rows of the sources, and the target is none of them. -/
structure MergeCall.Fits (call : MergeCall C) (rows : Table Attachment.id) : Prop where
  target_not_mem : call.target ∉ call.sources
  selected_perm : call.selected.Perm (rows.rows.filter (fun a => a.clientId ∈ call.sources))

/-- Every attachment whose file was found is found with the same content afterwards. -/
def KeepsReachable (call : MergeCall C) (bases : Nat) (files : Files C)
    (rows : Table Attachment.id) : Prop :=
  ∀ a ∈ rows.rows, ∀ content, resolvePath bases files a = some content →
    ∃ a', (mergeFiles call files rows).2.find a.id = some a' ∧
      resolvePath bases (mergeFiles call files rows).1 a' = some content

/-- The file of a row is where the move looks for it, its copy succeeds, and no other row has it. -/
structure Carried (call : MergeCall C) (files : Files C) (a : Attachment) (content : C) : Prop where
  plain : safeStoredBasename a.storedName = some a.storedName
  there : files a.src = some content
  copied : call.outcome a.id = .removeFails ∨ call.outcome a.id = .moved
  alone : ∀ b ∈ call.selected, b.src = a.src → b = a

/-- The condition on the files and the rows before the merge, and on the file operations. -/
structure MergeCall.Safe (call : MergeCall C) (bases : Nat) (files : Files C)
    (rows : Table Attachment.id) : Prop where
  room : ∀ a ∈ call.selected, basename a.storedName ≠ [] → files a.src ≠ none →
    call.selected.countP (sharesName a) ≤ a.names.countP (isFree call files)
  unshadowed : ∀ r ∈ rows.rows, r.clientId = call.target → resolvePath bases files r ≠ none →
    ∀ stored ∈ safeStoredBasename r.storedName, isFree call files stored = true →
      ∀ a ∈ call.selected, stored ∉ a.names
  carried : call.ending = .committed → ∀ a ∈ call.selected, ∀ content,
    resolvePath bases files a = some content → Carried call files a content
  unmoved : ∀ done, call.ending = .raised done → ∀ a ∈ (moveOrder call.selected).take done,
    call.outcome a.id = .moved → files a.src = none

variable {call : MergeCall C} {bases : Nat} {files : Files C} {rows : Table Attachment.id}
  {done later : List Attachment} {s : MoveState C} {r : Attachment} {content : C}

/-- A row whose directories lost nothing is found as before. -/
lemma Moving.resolvePath_kept (h : Moving call files done later s)
    (hmem : ∀ a ∈ done, a ∈ call.selected)
    (hplaces : ∀ p : Place, p.client = r.clientId → (p.base ≠ 0 ∨ p.client ≠ call.target) →
      s.files p = files p)
    (hshadow : r.clientId = call.target → ∀ stored ∈ safeStoredBasename r.storedName,
      isFree call files stored = true → ∀ a ∈ call.selected, stored ∉ a.names) :
    resolvePath bases s.files r = resolvePath bases files r := by
  unfold resolvePath
  cases hstored : safeStoredBasename r.storedName with
  | none => rfl
  | some stored =>
    rw [Option.bind_some, Option.bind_some]
    congr 1
    funext base
    by_cases hp : base ≠ 0 ∨ r.clientId ≠ call.target
    · exact hplaces ⟨base, r.clientId, stored⟩ rfl hp
    · obtain ⟨hbase, hclient⟩ := not_or.mp hp
      rw [not_not] at hbase hclient
      rw [hbase, hclient]
      by_cases htaken : files ⟨0, call.target, stored⟩ = none
      · have hfree : isFree call files stored = true := by
          unfold isFree
          rw [htaken]
          rfl
        exact h.fresh stored (fun a ha => hshadow hclient stored hstored hfree a (hmem a ha))
      · exact h.kept stored htaken

end Reachable

section Reachable

variable {C : Type} {call : MergeCall C} {bases : Nat} {files : Files C}
  {rows : Table Attachment.id} {r : Attachment} {content : C}

lemma MergeCall.Fits.mem_selected (h : call.Fits rows) (hr : r ∈ rows.rows) :
    r ∈ call.selected ↔ r.clientId ∈ call.sources := by
  rw [h.selected_perm.mem_iff, List.mem_filter, decide_eq_true_eq]
  exact and_iff_right hr

lemma MergeCall.Fits.source (h : call.Fits rows) (hr : r ∈ call.selected) :
    r ∈ rows.rows ∧ r.clientId ≠ call.target := by
  obtain ⟨hmem, hsource⟩ := List.mem_filter.mp (h.selected_perm.mem_iff.mp hr)
  refine ⟨hmem, fun heq => h.target_not_mem ?_⟩
  rw [← heq]
  exact of_decide_eq_true hsource

lemma MergeCall.Fits.pairwise_moveOrder (h : call.Fits rows) :
    (moveOrder call.selected).Pairwise (fun a b => a.id ≠ b.id) := by
  have hperm := (moveOrder_perm call.selected).trans h.selected_perm
  exact (hperm.pairwise_iff (fun hne => hne.symm)).mpr (rows.unique.filter _)

/-- The files before the first one is moved. -/
lemma MergeCall.Safe.moving (h : call.Safe bases files rows) :
    Moving call files [] (moveOrder call.selected) { files := files } where
  kept _ _ := rfl
  fresh _ _ := rfl
  elsewhere _ _ := .inl rfl
  room a ha hname hne := by
    have hperm := moveOrder_perm call.selected
    rw [hperm.countP_eq]
    exact h.room a (hperm.mem_iff.mp ha) hname hne
  placed _ ha := absurd ha List.not_mem_nil
  noted _ hentry := absurd hentry List.not_mem_nil

/-- The files after the first `done` moves. -/
lemma MergeCall.Safe.moving_take (h : call.Safe bases files rows) (hfits : call.Fits rows)
    (done : Nat) : Moving call files ((moveOrder call.selected).take done)
      ((moveOrder call.selected).drop done)
      (((moveOrder call.selected).take done).foldl (moveFile call) { files := files }) := by
  have hstart := h.moving
  rw [← List.take_append_drop done (moveOrder call.selected)] at hstart
  have hsplit : [] ++ ((moveOrder call.selected).take done ++ (moveOrder call.selected).drop done) =
      moveOrder call.selected := by
    rw [List.nil_append, List.take_append_drop]
  refine hstart.run ?_ ?_
  · rw [hsplit]
    intro b hb
    exact (hfits.source ((moveOrder_perm call.selected).mem_iff.mp hb)).2
  · rw [hsplit]
    exact hfits.pairwise_moveOrder

lemma isFree_iff {n : Text} : isFree call files n = true ↔ files ⟨0, call.target, n⟩ = none := by
  unfold isFree
  exact Option.isNone_iff_eq_none

/-- After an exception the rows are as before, and so are the files that they had. -/
lemma keepsReachable_of_raised {done : Nat} (hfits : call.Fits rows)
    (h : call.Safe bases files rows) (hending : call.ending = .raised done) :
    KeepsReachable call bases files rows := by
  intro r hr content hfound
  refine ⟨r, ?_, ?_⟩
  · have hrows : (mergeFiles call files rows).2 = rows := by
      unfold mergeFiles
      rw [hending]
      dsimp only
      split <;> rfl
    rw [hrows]
    exact Table.find_of_mem hr
  · unfold mergeFiles
    rw [hending]
    dsimp only
    split
    · have hmoving := h.moving_take hfits done
      have hmem : ∀ a ∈ (moveOrder call.selected).take done, a ∈ call.selected :=
        fun a ha => (moveOrder_perm call.selected).mem_iff.mp (List.mem_of_mem_take ha)
      dsimp only
      rw [hmoving.resolvePath_kept hmem ?_ ?_]
      · exact hfound
      · intro p _ hp
        rcases hmoving.elsewhere p hp with hsame | ⟨⟨a, ha, hout, hpa⟩, hgone⟩
        · exact hsame
        · rw [hgone, hpa, h.unmoved done hending a ha hout]
      · intro hclient stored hstored hfree
        exact h.unshadowed r hr hclient (by rw [hfound]; simp) stored hstored hfree
    · exact hfound

lemma resolvePath_first {a : Attachment} {stored : Text}
    (hstored : safeStoredBasename a.storedName = some stored) (hbases : bases ≠ 0)
    (hfile : files ⟨0, a.clientId, stored⟩ = some content) :
    resolvePath bases files a = some content := by
  obtain ⟨n, rfl⟩ := Nat.exists_eq_succ_of_ne_zero hbases
  unfold resolvePath
  rw [hstored, Option.bind_some, List.range_succ_eq_map, List.findSome?_cons, hfile]

lemma bases_ne_zero {a : Attachment} (h : resolvePath bases files a = some content) : bases ≠ 0 := by
  rintro rfl
  unfold resolvePath at h
  cases hstored : safeStoredBasename a.storedName with
  | none =>
    rw [hstored] at h
    cases h
  | some stored =>
    rw [hstored] at h
    cases h

/-- After the commit the rows of the sources lead to the copies. -/
lemma keepsReachable_of_committed (hfits : call.Fits rows) (h : call.Safe bases files rows)
    (hmade : call.dirMade = true) (hending : call.ending = .committed) :
    KeepsReachable call bases files rows := by
  have hmoving := h.moving_take hfits (moveOrder call.selected).length
  rw [List.take_length, List.drop_length] at hmoving
  generalize hs : (moveOrder call.selected).foldl (moveFile call) { files := files } = s at hmoving
  have horder : ∀ a, a ∈ moveOrder call.selected ↔ a ∈ call.selected :=
    fun a => (moveOrder_perm call.selected).mem_iff
  have hkeys : ∀ sid, sid ∈ (byClient call.selected).map Prod.fst ↔
      ∃ a ∈ call.selected, a.clientId = sid := mem_keys_byClient
  have htarget : call.target ∉ (byClient call.selected).map Prod.fst := by
    intro hmem
    obtain ⟨a, ha, heq⟩ := (hkeys _).mp hmem
    exact (hfits.source ha).2 heq
  have hresult : mergeFiles call files rows = (s.files, s.renamed.foldl rename
      (((byClient call.selected).map Prod.fst).foldl (repoint call) rows)) := by
    unfold mergeFiles moveAttachmentFiles
    rw [hending, if_pos hmade]
    dsimp only
    rw [foldl_moveClient]
    change (((moveOrder call.selected).foldl (moveFile call) { files := files }).files, _) = _
    rw [← hs]
    rfl
  intro r hr content hfound
  rw [hresult]
  refine ⟨_, by rw [find_renames, find_repoints htarget, Table.find_of_mem hr]; rfl, ?_⟩
  change resolvePath bases s.files (s.renamed.foldl renameRow
    (repointed call ((byClient call.selected).map Prod.fst) r)) = some content
  by_cases hsel : r ∈ call.selected
  · have hcarried := h.carried hending r hsel content hfound
    have hrow : repointed call ((byClient call.selected).map Prod.fst) r =
        { r with clientId := call.target } := if_pos ((hkeys _).mpr ⟨r, hsel, rfl⟩)
    obtain ⟨hbase, hne, hstripped⟩ := safeStoredBasename_eq_some hcarried.plain
    obtain ⟨hfile, hname⟩ := hmoving.placed r ((horder r).mpr hsel) content hcarried.there hne hbase
      hcarried.copied (fun b hb => hcarried.alone b ((horder b).mp (by simpa using hb)))
    rw [hrow, foldl_renameRow_repoint]
    refine resolvePath_first ?_ (bases_ne_zero hfound) hfile
    exact safeStoredBasename_candidate hne hbase hstripped hname
  · have hsource : r.clientId ∉ (byClient call.selected).map Prod.fst := by
      intro hmem
      obtain ⟨a, ha, heq⟩ := (hkeys _).mp hmem
      have hin := (hfits.mem_selected (hfits.source ha).1).mp ha
      exact hsel ((hfits.mem_selected hr).mpr (heq ▸ hin))
    have hrow : repointed call ((byClient call.selected).map Prod.fst) r = r := if_neg hsource
    have hsame : s.renamed.foldl renameRow r = r := by
      apply foldl_renameRow_of_ne
      intro entry hentry heq
      obtain ⟨a, ha, hid⟩ := hmoving.noted entry hentry
      have hasel := (horder a).mp ha
      rw [Table.eq_of_key_eq hr (hfits.source hasel).1 (heq.trans hid)] at hsel
      exact hsel hasel
    rw [hrow, hsame, hmoving.resolvePath_kept (fun a ha => (horder a).mp ha) ?_ ?_]
    · exact hfound
    · intro p hclient hp
      rcases hmoving.elsewhere p hp with hsame | ⟨⟨a, ha, -, hpa⟩, -⟩
      · exact hsame
      · exact absurd ((hkeys _).mpr ⟨a, (horder a).mp ha, by rw [← hclient, hpa]; rfl⟩) hsource
    · intro hclient stored hstored hfree
      exact h.unshadowed r hr hclient (by rw [hfound]; simp) stored hstored hfree

lemma length_candidateNames (name : Text) : (candidateNames name).length = 500 := by
  unfold candidateNames
  simp

/-- There is room when source attachments and taken names of the target are at most 500. -/
lemma room_of_few {taken : List Text} (htaken : ∀ n, n ∉ taken → isFree call files n = true)
    (hfew : call.selected.length + taken.length ≤ 500) {a : Attachment}
    (hname : basename a.storedName ≠ []) :
    call.selected.countP (sharesName a) ≤ a.names.countP (isFree call files) := by
  have hnodup : a.names.Nodup := nodup_candidateNames hname (not_mem_basename a.storedName)
  have hused : a.names.countP (fun n => decide (n ∈ taken)) ≤ taken.length := by
    rw [List.countP_eq_length_filter]
    refine (List.subperm_of_subset (hnodup.filter _) (fun n hn => ?_)).length_le
    exact of_decide_eq_true (List.mem_filter.mp hn).2
  have hfree : a.names.countP (fun n => !decide (n ∈ taken)) ≤ a.names.countP (isFree call files) := by
    refine List.countP_mono_left (fun n _ hn => htaken n ?_)
    simpa using hn
  have hsum := List.length_eq_countP_add_countP (fun n => decide (n ∈ taken)) (l := a.names)
  have hlength : a.names.length = 500 := length_candidateNames _
  have hnot : a.names.countP (fun n => decide ¬decide (n ∈ taken) = true) =
      a.names.countP (fun n => !decide (n ∈ taken)) := List.countP_congr (fun n _ => by simp)
  have hle : call.selected.countP (sharesName a) ≤ call.selected.length := List.countP_le_length
  omega

end Reachable

section Runs

def filesOf (l : List (Place × Nat)) : Files Nat := fun p => l.lookup p

lemma filesOf_of_ne {l : List (Place × Nat)} {p : Place} (h : ∀ entry ∈ l, entry.1.name ≠ p.name) :
    filesOf l p = none := by
  refine List.lookup_eq_none_iff.mpr (fun entry hentry => ?_)
  have hne : p ≠ entry.1 := fun heq => h entry hentry (congrArg Place.name heq).symm
  simpa using hne

def contract (id clientId : Nat) : Attachment := ⟨id, clientId, "contract.pdf".toList⟩

/-- Both sources and the target have a file of this name. -/
def contractFiles : Files Nat :=
  filesOf [((contract 10 3).src, 7), ((contract 11 5).src, 8), ((contract 12 1).src, 9)]

def contractRows : Table Attachment.id where
  rows := [contract 10 3, contract 11 5, contract 12 1]
  next := 13
  ordered := by decide
  fresh := by decide

def contractMerge (outcome : Nat → FileOutcome Nat) (ending : Ending) : MergeCall Nat where
  target := 1
  sources := [3, 5]
  selected := [contract 10 3, contract 11 5]
  outcome := outcome
  stamp _ := "120000".toList
  ending := ending

def contractOutcome (id : Nat) : FileOutcome Nat := if id = 10 then .moved else .removeFails

end Runs

end IpDocket.Clients
