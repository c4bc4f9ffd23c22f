import IpDocket.History.MergeGroups
import IpDocket.Lib.Numerals

/-!
# Groups in normal form

What normalization returns is in normal form, and is left as it is by a second normalization.
-/

namespace IpDocket.History
open IpDocket.Lib IpDocket.Search

section Normal

variable {T : UnicodeTables} (H : PyHost T)

/-- The group is one that normalization may return. -/
structure NormalGroup (g : MergeGroup H.floats.carrier) : Prop where
  groupId : g.groupId ≠ [] ∧ pyStrip g.groupId = g.groupId
  title : normalizeHistoryGroupTitle H (.str g.title) = g.title
  keys : ∀ k ∈ g.memberKeys, k ≠ [] ∧ normalizeHistoryRowKey H (.str k) = k
  distinct : g.memberKeys.Nodup
  few : g.memberKeys.length ≤ maxHistoryMergeMembers
  two : 2 ≤ g.memberKeys.length
  createdAt : ∀ t ∈ g.createdAt, t ≠ [] ∧ pyStrip t = t
  updatedAt : ∀ t ∈ g.updatedAt, t ≠ [] ∧ pyStrip t = t

/-- Normal groups with ids of their own, no more than there may be. -/
structure Normalised (groups : List (MergeGroup H.floats.carrier)) : Prop where
  normal : ∀ g ∈ groups, NormalGroup H g
  distinct : (groups.map (·.groupId)).Nodup
  few : groups.length ≤ maxHistoryMergeGroups

variable {H}

@[simp] lemma strOrEmpty_str (t : Text) : strOrEmpty H (.str t) = t := by
  unfold strOrEmpty pyOr pyTruthy
  by_cases h : t = []
  · simp [h, pyStr_str]
  · simp [h, pyStr_str]

lemma pyOr_str_null (t : Text) : strOrEmpty H (pyOr H (.str t) .null) = t := by
  by_cases h : t = []
  · rw [h]
    rfl
  · unfold pyOr pyTruthy
    rw [if_pos (decide_eq_true h), strOrEmpty_str]

lemma memberKeysFrom_normal {room : Nat} {seen keys : List Text}
    (hkeys : ∀ k ∈ keys, k ≠ [] ∧ normalizeHistoryRowKey H (.str k) = k) (hdistinct : keys.Nodup)
    (hseen : ∀ k ∈ keys, k ∉ seen) (hroom : keys.length ≤ room) :
    memberKeysFrom H room seen (keys.map .str) = keys := by
  induction keys generalizing room seen with
  | nil => cases room <;> rfl
  | cons key keys ih =>
    obtain ⟨hne, hsame⟩ := hkeys key List.mem_cons_self
    rw [List.nodup_cons] at hdistinct
    cases room with
    | zero => cases hroom
    | succ room =>
      have hnew : ¬(key = [] ∨ key ∈ seen) := by
        rw [not_or]
        exact ⟨hne, hseen key List.mem_cons_self⟩
      rw [List.map_cons, memberKeysFrom, hsame, if_neg hnew,
        ih (fun k hk => hkeys k (List.mem_cons_of_mem _ hk)) hdistinct.2 ?_ (Nat.le_of_succ_le_succ hroom)]
      intro k hk hmem
      obtain rfl | hmem := List.mem_cons.mp hmem
      · exact hdistinct.1 hk
      · exact hseen k (List.mem_cons_of_mem _ hk) hmem

lemma stripOrNone_elim {o : Option Text} (h : ∀ t ∈ o, t ≠ [] ∧ pyStrip t = t) :
    stripOrNone H (o.elim .null .str) = o := by
  cases o with
  | none => rfl
  | some t =>
    obtain ⟨hne, hsame⟩ := h t rfl
    unfold stripOrNone
    rw [Option.elim_some, strOrEmpty_str, hsame, if_neg hne]

/-- The fields of a group. -/
def MergeGroup.fields (g : MergeGroup H.floats.carrier) : List (Text × Json H.floats.carrier) :=
  [("group_id".toList, .str g.groupId), ("title".toList, .str g.title),
    ("member_keys".toList, .arr (g.memberKeys.map .str)), ("collapsed".toList, .bool g.collapsed),
    ("created_at".toList, g.createdAt.elim .null .str), ("created_by".toList, g.createdBy),
    ("updated_at".toList, g.updatedAt.elim .null .str), ("updated_by".toList, g.updatedBy)]

/-- A group in normal form is left as it is. -/
lemma normalizeGroup_fields {g : MergeGroup H.floats.carrier} (h : NormalGroup H g) (newId : Text) :
    normalizeGroup H newId g.fields = g := by
  have hid : field g.fields "group_id".toList = .str g.groupId := rfl
  have hid' : field g.fields "id".toList = .null := rfl
  have htitle : field g.fields "title".toList = .str g.title := rfl
  have hname : field g.fields "name".toList = .null := rfl
  have hkeys : field g.fields "member_keys".toList = .arr (g.memberKeys.map .str) := rfl
  have hcollapsed : field g.fields "collapsed".toList = .bool g.collapsed := rfl
  have hcreated : field g.fields "created_at".toList = g.createdAt.elim .null .str := rfl
  have hcreatedBy : field g.fields "created_by".toList = g.createdBy := rfl
  have hupdated : field g.fields "updated_at".toList = g.updatedAt.elim .null .str := rfl
  have hupdatedBy : field g.fields "updated_by".toList = g.updatedBy := rfl
  have hmembers : normalizeHistoryMemberKeys H
      (pyOr H (.arr (g.memberKeys.map .str)) (field g.fields "rows".toList)) = g.memberKeys := by
    have htruthy : pyTruthy H (.arr (g.memberKeys.map .str)) = true := by
      have htwo := h.two
      cases hmember : g.memberKeys with
      | nil =>
        rw [hmember] at htwo
        cases htwo
      | cons key keys => rfl
    unfold pyOr
    rw [if_pos htruthy]
    exact memberKeysFrom_normal h.keys h.distinct (fun k _ => List.not_mem_nil) h.few
  have htitleSame : normalizeHistoryGroupTitle H (pyOr H (.str g.title) .null) = g.title := by
    have hstr : normalizeHistoryGroupTitle H (pyOr H (.str g.title) .null) =
        normalizeHistoryGroupTitle H (.str g.title) := by
      unfold normalizeHistoryGroupTitle
      rw [pyOr_str_null, strOrEmpty_str]
    rw [hstr, h.title]
  unfold normalizeGroup
  rw [hid, hid', htitle, hname, hkeys, hcollapsed, hcreated, hcreatedBy, hupdated, hupdatedBy, hmembers,
    htitleSame, stripOrNone_elim h.createdAt, stripOrNone_elim h.updatedAt, pyOr_str_null, h.groupId.2]
  dsimp only
  rw [if_neg h.groupId.1]
  rfl

lemma normalizeFrom_normal (newId : Nat → Text) {room : Nat} {seen : List Text}
    {groups : List (MergeGroup H.floats.carrier)} (hnormal : ∀ g ∈ groups, NormalGroup H g)
    (hdistinct : (groups.map (·.groupId)).Nodup) (hseen : ∀ g ∈ groups, g.groupId ∉ seen)
    (hroom : groups.length ≤ room) :
    normalizeFrom H newId room seen (groups.map (MergeGroup.toJson H)) = groups := by
  induction groups generalizing room seen with
  | nil => cases room <;> rfl
  | cons g groups ih =>
    rw [List.map_cons, List.nodup_cons] at hdistinct
    have hg := hnormal g List.mem_cons_self
    cases room with
    | zero => cases hroom
    | succ room =>
      have hnew : ¬(g.groupId ∈ seen ∨ g.memberKeys.length < 2) := by
        rw [not_or, not_lt]
        exact ⟨hseen g List.mem_cons_self, hg.two⟩
      have hrest := @ih room (g.groupId :: seen) (fun g' hg' => hnormal g' (List.mem_cons_of_mem _ hg'))
        hdistinct.2 (fun g' hg' hmem => ?_) (Nat.le_of_succ_le_succ hroom)
      · have hfields : MergeGroup.toJson H g = .obj g.fields := rfl
        rw [List.map_cons, hfields, normalizeFrom]
        rw [normalizeGroup_fields hg, if_neg hnew, hrest]
      · obtain heq | hmem := List.mem_cons.mp hmem
        · exact hdistinct.1 (heq ▸ List.mem_map_of_mem hg')
        · exact hseen g' (List.mem_cons_of_mem _ hg') hmem

lemma normalize_normalised (newId : Nat → Text) {groups : List (MergeGroup H.floats.carrier)}
    (h : Normalised H groups) :
    normalizeHistoryMergeGroups H newId (.arr (groups.map (MergeGroup.toJson H))) = groups :=
  normalizeFrom_normal newId h.normal h.distinct (fun _ _ => List.not_mem_nil) h.few

/-! ### What normalization returns -/

/-- A key is left as it is. -/
lemma normalizeHistoryRowKey_key {kind rowId : Text}
    (hkind : kind = "notice".toList ∨ kind = "letter".toList) (hne : rowId ≠ []) (hrow : Stripped rowId) :
    normalizeHistoryRowKey H (.str (kind ++ ':' :: rowId)) = kind ++ ':' :: rowId := by
  have hstrip : pyStrip (kind ++ ':' :: rowId) = kind ++ ':' :: rowId := by
    apply pyStrip_of_stripped
    constructor
    · obtain rfl | rfl := hkind
      · simp [pyIsSpace]
      · simp [pyIsSpace]
    · have hlast : (kind ++ ':' :: rowId).getLast? = rowId.getLast? := by
        rw [List.getLast?_append_cons, List.getLast?_cons_of_ne_nil hne]
      rw [hlast]
      exact hrow.2
  have hhead : (pyStrip ((kind ++ ':' :: rowId).takeWhile (· ≠ ':'))).map asciiLower = kind := by
    obtain rfl | rfl := hkind
    · rfl
    · rfl
  have htail : ((kind ++ ':' :: rowId).dropWhile (· ≠ ':')).drop 1 = rowId := by
    obtain rfl | rfl := hkind
    · rfl
    · rfl
  unfold normalizeHistoryRowKey
  rw [strOrEmpty_str, hstrip]
  dsimp only
  rw [hhead, htail, pyStrip_of_stripped hrow, if_neg (by simp), if_neg]
  rintro (⟨hnotice, hletter⟩ | hnil)
  · exact hkind.elim hnotice hletter
  · exact hne hnil

lemma normalizeHistoryRowKey_twice {raw : Json H.floats.carrier} (h : normalizeHistoryRowKey H raw ≠ []) :
    normalizeHistoryRowKey H (.str (normalizeHistoryRowKey H raw)) = normalizeHistoryRowKey H raw := by
  unfold normalizeHistoryRowKey at h ⊢
  dsimp only at h ⊢
  generalize pyStrip (strOrEmpty H raw) = txt at h ⊢
  generalize (pyStrip (txt.takeWhile (· ≠ ':'))).map asciiLower = kind at h ⊢
  have hrow := stripped_pyStrip ((txt.dropWhile (· ≠ ':')).drop 1)
  generalize pyStrip ((txt.dropWhile (· ≠ ':')).drop 1) = rowId at h hrow ⊢
  split at h
  · cases h rfl
  · next hcolon =>
    split at h
    · cases h rfl
    · next hgood =>
      rw [if_neg hcolon, if_neg hgood]
      rw [not_or, not_and_or, not_not, not_not] at hgood
      exact normalizeHistoryRowKey_key hgood.1 hgood.2 hrow

lemma memberKeysFrom_facts {room : Nat} {seen : List Text} {items : List (Json H.floats.carrier)} :
    (∀ k ∈ memberKeysFrom H room seen items, (k ≠ [] ∧ normalizeHistoryRowKey H (.str k) = k) ∧ k ∉ seen) ∧
      (memberKeysFrom H room seen items).Nodup ∧ (memberKeysFrom H room seen items).length ≤ room := by
  induction items generalizing room seen with
  | nil => cases room <;> simp [memberKeysFrom]
  | cons raw items ih =>
    cases room with
    | zero => simp [memberKeysFrom]
    | succ room =>
      rw [memberKeysFrom]
      split
      · exact ih
      · next hnew =>
        obtain ⟨hkeys, hdistinct, hlength⟩ := @ih room (normalizeHistoryRowKey H raw :: seen)
        rw [not_or] at hnew
        refine ⟨?_, ?_, by simpa using hlength⟩
        · intro k hk
          obtain rfl | hk := List.mem_cons.mp hk
          · exact ⟨⟨hnew.1, normalizeHistoryRowKey_twice hnew.1⟩, hnew.2⟩
          · obtain ⟨hkey, hseen⟩ := hkeys k hk
            exact ⟨hkey, fun hmem => hseen (List.mem_cons_of_mem _ hmem)⟩
        · rw [List.nodup_cons]
          exact ⟨fun hmem => (hkeys _ hmem).2 List.mem_cons_self, hdistinct⟩

/-- The text without the white space at its end. -/
def dropEnd (t : Text) : Text := (t.reverse.dropWhile pyIsSpace).reverse

lemma dropEnd_append (a b : Text) : dropEnd (a ++ b) = if dropEnd b = [] then dropEnd a else a ++ dropEnd b := by
  unfold dropEnd
  rw [List.reverse_append, List.dropWhile_append]
  simp only [List.isEmpty_iff, List.reverse_eq_nil_iff]
  split
  · rfl
  · rw [List.reverse_append, List.reverse_reverse]

lemma dropEnd_token {w : Text} (h : ∀ c ∈ w, pyIsSpace c = false) : dropEnd w = w := by
  unfold dropEnd
  rw [List.dropWhile_eq_self_iff.mpr, List.reverse_reverse]
  intro hpos hspace
  have hmem := List.mem_reverse.mp (List.getElem_mem hpos)
  rw [h _ hmem] at hspace
  cases hspace

/-- The first part of joined words is joined words, up to white space at its end. -/
lemma take_joined {words : List Text} (h : ∀ w ∈ words, IsToken w) (n : Nat) :
    ∃ words', (∀ w ∈ words', IsToken w) ∧
      dropEnd (([' '].intercalate words).take n) = [' '].intercalate words' := by
  have hpart : ∀ w m, IsToken w → ∃ words', (∀ w ∈ words', IsToken w) ∧
      dropEnd (w.take m) = [' '].intercalate words' := by
    intro w m hw
    have hspaces : ∀ c ∈ w.take m, pyIsSpace c = false := fun c hc => hw.2 c (List.mem_of_mem_take hc)
    by_cases hnil : w.take m = []
    · exact ⟨[], by simp, by rw [hnil]; rfl⟩
    · refine ⟨[w.take m], ?_, ?_⟩
      · intro x hx
        rw [List.mem_singleton.mp hx]
        exact ⟨hnil, hspaces⟩
      · rw [dropEnd_token hspaces, List.intercalate_singleton]
  induction words generalizing n with
  | nil => exact ⟨[], by simp, by simp [dropEnd]⟩
  | cons w words ih =>
    have hw := h w List.mem_cons_self
    have hrest : ∀ w ∈ words, IsToken w := fun w hw => h w (List.mem_cons_of_mem _ hw)
    cases words with
    | nil =>
      rw [List.intercalate_singleton]
      exact hpart w n hw
    | cons w' words =>
      rw [List.intercalate_cons_cons, List.append_assoc, List.singleton_append]
      by_cases hlong : n ≤ w.length
      · rw [List.take_append_of_le_length hlong]
        exact hpart w n hw
      · obtain ⟨m, rfl⟩ := Nat.exists_eq_add_of_lt (not_le.mp hlong)
        obtain ⟨words', htokens, hsame⟩ := ih hrest m
        have htake : (w ++ ' ' :: [' '].intercalate (w' :: words)).take (w.length + m + 1) =
            w ++ ([' '] ++ ([' '].intercalate (w' :: words)).take m) := by
          rw [List.take_append, List.take_of_length_le (by omega)]
          have hm : w.length + m + 1 - w.length = m + 1 := by omega
          rw [hm, List.take_succ_cons, List.singleton_append]
        rw [htake, dropEnd_append, dropEnd_append, hsame]
        have hspace : dropEnd [' '] = [] := rfl
        cases words' with
        | nil =>
          refine ⟨[w], fun x hx => List.mem_singleton.mp hx ▸ hw, ?_⟩
          have hnil : [' '].intercalate ([] : List Text) = [] := rfl
          rw [List.intercalate_singleton, hnil, if_pos rfl, hspace, if_pos rfl, dropEnd_token hw.2]
        | cons x words' =>
          have hne : [' '].intercalate (x :: words') ≠ [] := by
            intro hnil
            have hsplit := pySplit_intercalate htokens
            rw [hnil] at hsplit
            cases hsplit
          refine ⟨w :: x :: words', ?_, ?_⟩
          · intro y hy
            obtain rfl | hy := List.mem_cons.mp hy
            · exact hw
            · exact htokens y hy
          · rw [if_neg hne, if_neg (by simp), List.intercalate_cons_cons, List.append_assoc]

lemma stripped_joined {words : List Text} (h : ∀ w ∈ words, IsToken w) :
    pyStrip ([' '].intercalate words) = [' '].intercalate words := by
  have hend : dropEnd ([' '].intercalate words) = [' '].intercalate words := by
    induction words with
    | nil => rfl
    | cons w words ih =>
      have hw := h w List.mem_cons_self
      cases words with
      | nil => rw [List.intercalate_singleton, dropEnd_token hw.2]
      | cons w' words =>
        have hne : [' '].intercalate (w' :: words) ≠ [] := by
          intro hnil
          have hsplit := pySplit_intercalate (fun w hw => h w (List.mem_cons_of_mem _ hw))
          rw [hnil] at hsplit
          cases hsplit
        rw [List.intercalate_cons_cons, dropEnd_append, ih (fun w hw => h w (List.mem_cons_of_mem _ hw)),
          if_neg hne]
  have hstart : ([' '].intercalate words).dropWhile pyIsSpace = [' '].intercalate words := by
    cases words with
    | nil => rfl
    | cons w words =>
      obtain ⟨hne, hspaces⟩ := h w List.mem_cons_self
      obtain ⟨c, w, rfl⟩ := List.exists_cons_of_ne_nil hne
      have hc := hspaces c List.mem_cons_self
      cases words with
      | nil => rw [List.intercalate_singleton, List.dropWhile_cons_of_neg (by simp [hc])]
      | cons w' words =>
        rw [List.intercalate_cons_cons, List.append_assoc, List.cons_append,
          List.dropWhile_cons_of_neg (by simp [hc])]
  unfold pyStrip
  rw [hstart]
  exact hend

/-- A title is left as it is. -/
lemma normalizeHistoryGroupTitle_twice (raw : Json H.floats.carrier) :
    normalizeHistoryGroupTitle H (.str (normalizeHistoryGroupTitle H raw)) =
      normalizeHistoryGroupTitle H raw := by
  have hjoined : ∃ words, (∀ w ∈ words, IsToken w) ∧
      normalizeHistoryGroupTitle H raw = [' '].intercalate words ∧
      ([' '].intercalate words).length ≤ 300 := by
    have htokens := isToken_pySplit (strOrEmpty H raw)
    unfold normalizeHistoryGroupTitle
    generalize pySplit (strOrEmpty H raw) = words at htokens
    rw [stripped_joined htokens]
    dsimp only
    split
    · obtain ⟨words', htokens', hsame⟩ := take_joined htokens 300
      refine ⟨words', htokens', hsame, ?_⟩
      rw [← hsame]
      unfold dropEnd
      rw [List.length_reverse]
      refine (List.dropWhile_suffix _).length_le.trans ?_
      rw [List.length_reverse]
      exact List.length_take_le _ _
    · next hshort => exact ⟨words, htokens, rfl, not_lt.mp hshort⟩
  obtain ⟨words, htokens, hsame, hshort⟩ := hjoined
  rw [hsame]
  unfold normalizeHistoryGroupTitle
  rw [strOrEmpty_str, pySplit_intercalate htokens, stripped_joined htokens]
  exact if_neg (not_lt.mpr hshort)

lemma stripOrNone_facts (raw : Json H.floats.carrier) :
    ∀ t ∈ stripOrNone H raw, t ≠ [] ∧ pyStrip t = t := by
  intro t ht
  unfold stripOrNone at ht
  split at ht
  · cases ht
  · next hne =>
    obtain rfl := Option.some.inj ht
    exact ⟨hne, pyStrip_of_stripped (stripped_pyStrip _)⟩

lemma title_normalizeGroup (newId : Text) (fields : List (Text × Json H.floats.carrier)) :
    (normalizeGroup H newId fields).title =
      normalizeHistoryGroupTitle H (pyOr H (field fields "title".toList) (field fields "name".toList)) := by
  rw [normalizeGroup]

lemma normalizeGroup_normal {newId : Text} (hnew : newId ≠ [] ∧ pyStrip newId = newId)
    (fields : List (Text × Json H.floats.carrier))
    (htwo : 2 ≤ (normalizeGroup H newId fields).memberKeys.length) :
    NormalGroup H (normalizeGroup H newId fields) := by
  have hkeys : ∀ raw : Json H.floats.carrier,
      (∀ k ∈ normalizeHistoryMemberKeys H raw, k ≠ [] ∧ normalizeHistoryRowKey H (.str k) = k) ∧
        (normalizeHistoryMemberKeys H raw).Nodup ∧
        (normalizeHistoryMemberKeys H raw).length ≤ maxHistoryMergeMembers := by
    intro raw
    unfold normalizeHistoryMemberKeys
    split
    · obtain ⟨hall, hdistinct, hlength⟩ := memberKeysFrom_facts
      exact ⟨fun k hk => (hall k hk).1, hdistinct, hlength⟩
    · simp
  have htitle : normalizeHistoryGroupTitle H (.str (normalizeGroup H newId fields).title) =
      (normalizeGroup H newId fields).title := by
    rw [title_normalizeGroup, normalizeHistoryGroupTitle_twice]
  refine ⟨?_, htitle, (hkeys _).1, (hkeys _).2.1, (hkeys _).2.2, htwo,
    stripOrNone_facts _, stripOrNone_facts _⟩
  unfold normalizeGroup
  dsimp only
  split
  · exact hnew
  · next hne => exact ⟨hne, pyStrip_of_stripped (stripped_pyStrip _)⟩

lemma normalizeFrom_facts {newId : Nat → Text} (hnew : ∀ n, newId n ≠ [] ∧ pyStrip (newId n) = newId n)
    {room : Nat} {seen : List Text} {items : List (Json H.floats.carrier)} :
    (∀ g ∈ normalizeFrom H newId room seen items, NormalGroup H g ∧ g.groupId ∉ seen) ∧
      ((normalizeFrom H newId room seen items).map (·.groupId)).Nodup ∧
      (normalizeFrom H newId room seen items).length ≤ room := by
  induction items generalizing room seen with
  | nil => cases room <;> simp [normalizeFrom]
  | cons raw items ih =>
    cases room with
    | zero => simp [normalizeFrom]
    | succ room =>
      cases raw with
      | obj fields =>
        rw [normalizeFrom]
        split
        · exact ih
        · next hkept =>
          obtain ⟨hnormal, hdistinct, hlength⟩ :=
            @ih room ((normalizeGroup H (newId items.length) fields).groupId :: seen)
          rw [not_or, not_lt] at hkept
          refine ⟨?_, ?_, by simpa using hlength⟩
          · intro g hg
            obtain rfl | hg := List.mem_cons.mp hg
            · exact ⟨normalizeGroup_normal (hnew _) fields hkept.2, hkept.1⟩
            · obtain ⟨hg, hseen⟩ := hnormal g hg
              exact ⟨hg, fun hmem => hseen (List.mem_cons_of_mem _ hmem)⟩
          · rw [List.map_cons, List.nodup_cons]
            refine ⟨?_, hdistinct⟩
            intro hmem
            obtain ⟨g, hg, hid⟩ := List.mem_map.mp hmem
            exact (hnormal g hg).2 (hid ▸ List.mem_cons_self)
      | _ => exact ih

/-- What normalization returns is in normal form. -/
theorem normalised_normalize {newId : Nat → Text} (hnew : ∀ n, newId n ≠ [] ∧ pyStrip (newId n) = newId n)
    (raw : Json H.floats.carrier) : Normalised H (normalizeHistoryMergeGroups H newId raw) := by
  unfold normalizeHistoryMergeGroups
  split
  · next items =>
    obtain ⟨hnormal, hdistinct, hlength⟩ :=
      @normalizeFrom_facts _ H newId hnew maxHistoryMergeGroups [] items
    exact ⟨fun g hg => (hnormal g hg).1, hdistinct, hlength⟩
  · exact ⟨fun g hg => absurd hg List.not_mem_nil, List.nodup_nil, Nat.zero_le _⟩

/-- A second normalization changes nothing. -/
theorem normalize_normalize {newId : Nat → Text} (hnew : ∀ n, newId n ≠ [] ∧ pyStrip (newId n) = newId n)
    (raw : Json H.floats.carrier) :
    normalizeHistoryMergeGroups H newId
        (.arr ((normalizeHistoryMergeGroups H newId raw).map (MergeGroup.toJson H))) =
      normalizeHistoryMergeGroups H newId raw :=
  normalize_normalised newId (normalised_normalize hnew raw)

end Normal
end IpDocket.History
