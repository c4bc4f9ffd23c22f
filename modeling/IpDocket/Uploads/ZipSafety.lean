import IpDocket.Lib.Text
import Mathlib.Data.List.FinRange
import Mathlib.Data.List.Perm.Subperm

/-!
# Extraction from archives

`find_files_by_ext` checks the sizes that an archive declares and reads every entry with an extension.
The sizes are summed over the entries, while an entry is read by its name: of entries with one name it
is the last that is read, once for each of them.
-/

namespace IpDocket.Uploads
open IpDocket.Lib

abbrev Bytes := List UInt8

/-- An entry as the directory of the archive lists it. Reading it yields its content, which is not longer
than declared, or raises (`none`). -/
structure ZipEntry where
  filename : Text
  fileSize : Nat
  compressSize : Nat
  content : Option Bytes
  length_le : ∀ b ∈ content, b.length ≤ fileSize

/-- `exceedsRatio` compares the quotient of the two sizes as floats with `max_compression_ratio`; it is
false if that is not positive or the division fails. -/
structure ZipLimits where
  maxEntries : Int := 50
  maxTotalSize : Int := 100 * 1024 * 1024
  maxSingleFile : Int := 20 * 1024 * 1024
  exceedsRatio : (fileSize compressSize : Nat) → Bool

section Extraction

variable (limits : ZipLimits) (archive : List ZipEntry)

/-- `_validate_zip`; `none` where it raises. -/
def validateZip : Option (List ZipEntry) :=
  if limits.maxEntries < archive.length then none
  else if limits.maxTotalSize < (archive.map (·.fileSize)).sum then none
  else if archive.any (fun info => info.fileSize ≠ 0 && info.compressSize ≠ 0 &&
      limits.exceedsRatio info.fileSize info.compressSize) then none
  else some archive

def safeList : Option (List Text) := (validateZip limits archive).map (fun infos => infos.map (·.filename))

/-- The last entry of the name; `none` where there is none. -/
def getInfo (filename : Text) : Option ZipEntry := archive.reverse.find? (fun info => info.filename = filename)

def safeExtractBytes (filename : Text) : Option Bytes := do
  let infos ← validateZip limits archive
  let info ← getInfo infos filename
  if limits.maxSingleFile < info.fileSize then none else info.content

variable (lower : Text → Text) (ext : Text)

/-- `name.lower().endswith(ext.lower())`. -/
def hasExt (name : Text) : Bool := lower ext <:+ lower name

/-- The loop over the names. -/
def extractMatching : List Text → Option (List (Text × Bytes))
  | [] => some []
  | name :: names =>
    if hasExt lower ext name then do
      let content ← safeExtractBytes limits archive name
      let rest ← extractMatching names
      return (name, content) :: rest
    else extractMatching names

/-- `find_files_by_ext`, for the way in which `str.lower` works. -/
def findFilesByExt : Option (List (Text × Bytes)) :=
  (safeList limits archive).bind (extractMatching limits archive lower ext)

/-- The contents keep to the limits, and they are those of pairwise different entries. -/
structure WithinLimits (results : List (Text × Bytes)) : Prop where
  total : (((results.map (fun r => r.2.length)).sum : Nat) : Int) ≤ limits.maxTotalSize
  single : ∀ r ∈ results, (r.2.length : Int) ≤ limits.maxSingleFile
  different : ∃ places : List (Fin archive.length), places.Nodup ∧
    results.map (fun r => (r.1, some r.2)) =
      places.map (fun i => ((archive.get i).filename, (archive.get i).content))

/-- Entries with one name that has the extension have one content. -/
def SameNameSameContent : Prop :=
  ∀ e ∈ archive, ∀ e' ∈ archive, hasExt lower ext e.filename = true → e.filename = e'.filename →
    e.content = e'.content

variable {limits archive lower ext}

lemma validateZip_eq_some {infos : List ZipEntry} (h : validateZip limits archive = some infos) :
    infos = archive ∧ (((archive.map (·.fileSize)).sum : Nat) : Int) ≤ limits.maxTotalSize := by
  unfold validateZip at h
  split at h
  · cases h
  · split at h
    · cases h
    · next htotal =>
      split at h
      · cases h
      · exact ⟨(Option.some_inj.mp h).symm, not_lt.mp htotal⟩

lemma getInfo_mem {name : Text} {info : ZipEntry} (h : getInfo archive name = some info) :
    info ∈ archive ∧ info.filename = name := by
  have hmem := List.mem_of_find?_eq_some h
  have hname := List.find?_some h
  rw [List.mem_reverse] at hmem
  exact ⟨hmem, by simpa using hname⟩

lemma safeExtractBytes_eq_some {name : Text} {b : Bytes} (h : safeExtractBytes limits archive name = some b) :
    ∃ info ∈ archive, info.filename = name ∧ info.content = some b ∧
      (info.fileSize : Int) ≤ limits.maxSingleFile := by
  unfold safeExtractBytes at h
  obtain ⟨infos, hvalid, hrest⟩ := Option.bind_eq_some_iff.mp h
  obtain ⟨info, hinfo, hcontent⟩ := Option.bind_eq_some_iff.mp hrest
  rw [(validateZip_eq_some hvalid).1] at hinfo
  obtain ⟨hmem, hname⟩ := getInfo_mem hinfo
  split at hcontent
  · cases hcontent
  · next hsize => exact ⟨info, hmem, hname, hcontent, not_lt.mp hsize⟩

/-- Every name with the extension is looked up once for each time that it is listed. -/
lemma extractMatching_eq_some {names : List Text} {results : List (Text × Bytes)}
    (h : extractMatching limits archive lower ext names = some results) :
    results.map (fun r => (r.1, some r.2)) =
      (names.filter (hasExt lower ext)).map (fun name => (name, safeExtractBytes limits archive name)) := by
  induction names generalizing results with
  | nil =>
    cases h
    rfl
  | cons name names ih =>
    unfold extractMatching at h
    split at h
    · next hext =>
      obtain ⟨content, hcontent, h⟩ := Option.bind_eq_some_iff.mp h
      obtain ⟨rest, hrest, h⟩ := Option.bind_eq_some_iff.mp h
      rw [← Option.some_inj.mp h, List.filter_cons_of_pos hext, List.map_cons, List.map_cons, ih hrest,
        hcontent]
    · next hext => rw [List.filter_cons_of_neg hext, ih h]

lemma findFilesByExt_eq_some {results : List (Text × Bytes)}
    (h : findFilesByExt limits archive lower ext = some results) :
    (((archive.map (·.fileSize)).sum : Nat) : Int) ≤ limits.maxTotalSize ∧
      results.map (fun r => (r.1, some r.2)) =
        ((archive.map (·.filename)).filter (hasExt lower ext)).map
          (fun name => (name, safeExtractBytes limits archive name)) := by
  unfold findFilesByExt safeList at h
  obtain ⟨names, hnames, h⟩ := Option.bind_eq_some_iff.mp h
  obtain ⟨infos, hvalid, rfl⟩ := Option.map_eq_some_iff.mp hnames
  obtain ⟨hinfos, htotal⟩ := validateZip_eq_some hvalid
  rw [hinfos] at h
  exact ⟨htotal, extractMatching_eq_some h⟩

/-- The places of the entries with the extension, in order. -/
def matchingPlaces (archive : List ZipEntry) (lower : Text → Text) (ext : Text) : List (Fin archive.length) :=
  (List.finRange archive.length).filter (fun i => hasExt lower ext (archive.get i).filename)

lemma map_matchingPlaces {α : Type} (f : ZipEntry → α) :
    (matchingPlaces archive lower ext).map (fun i => f (archive.get i)) =
      (archive.filter (fun e => hasExt lower ext e.filename)).map f := by
  have hall : archive = (List.finRange archive.length).map archive.get := by simp
  unfold matchingPlaces
  conv_rhs => rw [hall]
  rw [List.filter_map, List.map_map]
  rfl

lemma nodup_matchingPlaces : (matchingPlaces archive lower ext).Nodup :=
  (List.nodup_finRange _).filter _

/-- The names and contents that are looked up. -/
lemma looked_up (archive : List ZipEntry) :
    ((archive.map (·.filename)).filter (hasExt lower ext)).map
        (fun name => (name, safeExtractBytes limits archive name)) =
      (archive.filter (fun e => hasExt lower ext e.filename)).map
        (fun e => (e.filename, safeExtractBytes limits archive e.filename)) := by
  rw [List.filter_map, List.map_map]
  rfl

variable {results : List (Text × Bytes)}

/-- What is returned for an entry is what the last entry of its name holds. -/
lemma returned_of_mem (h : findFilesByExt limits archive lower ext = some results) {e : ZipEntry}
    (he : e ∈ archive) (hext : hasExt lower ext e.filename = true) :
    ∃ b, safeExtractBytes limits archive e.filename = some b ∧ (e.filename, b) ∈ results := by
  have hpairs := (findFilesByExt_eq_some h).2
  rw [looked_up] at hpairs
  have hmem : (e.filename, safeExtractBytes limits archive e.filename) ∈
      results.map (fun r => (r.1, some r.2)) := by
    rw [hpairs]
    exact List.mem_map_of_mem (List.mem_filter.mpr ⟨he, hext⟩)
  obtain ⟨⟨name, b⟩, hr, heq⟩ := List.mem_map.mp hmem
  rw [Prod.mk.injEq] at heq
  exact ⟨b, heq.2.symm, heq.1 ▸ hr⟩

/-- No content is longer than a single file may be. -/
lemma single_le (h : findFilesByExt limits archive lower ext = some results) :
    ∀ r ∈ results, (r.2.length : Int) ≤ limits.maxSingleFile := by
  intro r hr
  have hpairs := (findFilesByExt_eq_some h).2
  have hmem : (r.1, some r.2) ∈ results.map (fun r => (r.1, some r.2)) := List.mem_map_of_mem hr
  rw [hpairs] at hmem
  obtain ⟨name, -, heq⟩ := List.mem_map.mp hmem
  rw [Prod.mk.injEq] at heq
  obtain ⟨info, -, -, hcontent, hsize⟩ := safeExtractBytes_eq_some heq.2
  have hle := info.length_le r.2 hcontent
  omega

/-- Where entries of one name have one content, each of them may be taken for what is read. -/
lemma results_eq_contents (h : findFilesByExt limits archive lower ext = some results)
    (hsame : SameNameSameContent archive lower ext) :
    results.map (fun r => (r.1, some r.2)) =
      (archive.filter (fun e => hasExt lower ext e.filename)).map (fun e => (e.filename, e.content)) := by
  rw [(findFilesByExt_eq_some h).2, looked_up]
  apply List.map_congr_left
  intro e he
  rw [List.mem_filter] at he
  obtain ⟨b, hb, -⟩ := returned_of_mem h he.1 he.2
  obtain ⟨info, hinfo, hname, hcontent, -⟩ := safeExtractBytes_eq_some hb
  rw [hb, hsame e he.1 info hinfo he.2 hname.symm, hcontent]

lemma sum_length_le {entries : List ZipEntry} {contents : List Bytes}
    (h : contents.map some = entries.map (·.content)) :
    (contents.map List.length).sum ≤ (entries.map (·.fileSize)).sum := by
  induction entries generalizing contents with
  | nil =>
    rw [List.map_nil, List.map_eq_nil_iff] at h
    rw [h]
    exact Nat.le_refl 0
  | cons e entries ih =>
    cases contents with
    | nil => cases h
    | cons b contents =>
      rw [List.map_cons, List.map_cons, List.cons.injEq] at h
      have hle := e.length_le b h.1.symm
      have hrest := ih h.2
      simp only [List.map_cons, List.sum_cons]
      omega

/-- The sizes of some of the entries are no more than those of all. -/
lemma sum_filter_le (p : ZipEntry → Bool) (entries : List ZipEntry) :
    ((entries.filter p).map (·.fileSize)).sum ≤ (entries.map (·.fileSize)).sum := by
  induction entries with
  | nil => exact Nat.le_refl 0
  | cons e entries ih =>
    rw [List.filter_cons]
    split
    · simp only [List.map_cons, List.sum_cons]
      omega
    · simp only [List.map_cons, List.sum_cons]
      omega

/-- The contents are those of different entries only if the entries of each name have one content: as
many contents are returned for a name as there are entries. -/
lemma sameContent_of_different (h : findFilesByExt limits archive lower ext = some results)
    {places : List (Fin archive.length)} (hnodup : places.Nodup)
    (hplaces : results.map (fun r => (r.1, some r.2)) =
      places.map (fun i => ((archive.get i).filename, (archive.get i).content)))
    {e : ZipEntry} (he : e ∈ archive) (hext : hasExt lower ext e.filename = true) :
    e.content = safeExtractBytes limits archive e.filename := by
  have hpairs := (findFilesByExt_eq_some h).2
  rw [hplaces, looked_up, ← map_matchingPlaces] at hpairs
  -- as many of the places have the name as there are entries with it
  have hnames := congrArg (List.filter (fun pair : Text × Option Bytes => pair.1 = e.filename)) hpairs
  rw [List.filter_map, List.filter_map] at hnames
  have hlength := congrArg List.length hnames
  rw [List.length_map, List.length_map] at hlength
  have hsubset : ∀ i ∈ places.filter (fun i => decide ((archive.get i).filename = e.filename)),
      i ∈ (matchingPlaces archive lower ext).filter
        (fun i => decide ((archive.get i).filename = e.filename)) := by
    intro i hi
    rw [List.mem_filter, decide_eq_true_eq] at hi ⊢
    refine ⟨?_, hi.2⟩
    unfold matchingPlaces
    rw [List.mem_filter, hi.2]
    exact ⟨List.mem_finRange i, hext⟩
  have hperm : (places.filter (fun i => decide ((archive.get i).filename = e.filename))).Perm
      ((matchingPlaces archive lower ext).filter
        (fun i => decide ((archive.get i).filename = e.filename))) :=
    (List.subperm_of_subset (hnodup.filter _) hsubset).perm_of_length_le hlength.ge
  obtain ⟨i, hi⟩ := List.get_of_mem he
  have hmem : i ∈ places.filter (fun i => decide ((archive.get i).filename = e.filename)) := by
    rw [hperm.mem_iff, List.mem_filter]
    unfold matchingPlaces
    rw [List.mem_filter, hi]
    exact ⟨⟨List.mem_finRange i, hext⟩, decide_eq_true rfl⟩
  have hpair : (e.filename, e.content) ∈
      places.map (fun i => ((archive.get i).filename, (archive.get i).content)) := by
    rw [← hi]
    exact List.mem_map_of_mem (List.mem_filter.mp hmem).1
  rw [hpairs, map_matchingPlaces (fun e => (e.filename, safeExtractBytes limits archive e.filename))] at hpair
  obtain ⟨e', -, heq⟩ := List.mem_map.mp hpair
  rw [Prod.mk.injEq] at heq
  rw [← heq.2, heq.1]

/-- What `find_files_by_ext` returns keeps to the limits and comes from different entries exactly if no
name with the extension stands for different contents. -/
theorem within_limits_iff (limits : ZipLimits) (archive : List ZipEntry) (lower : Text → Text) (ext : Text)
    (results : List (Text × Bytes)) (h : findFilesByExt limits archive lower ext = some results) :
    WithinLimits limits archive results ↔ SameNameSameContent archive lower ext := by
  constructor
  · rintro ⟨-, -, places, hnodup, hplaces⟩ e he e' he' hext hname
    have hfirst := sameContent_of_different h hnodup hplaces he hext
    have hsecond := sameContent_of_different h hnodup hplaces he' (hname ▸ hext)
    rw [hfirst, hsecond, hname]
  · intro hsame
    have hcontents := results_eq_contents h hsame
    refine ⟨?_, single_le h, matchingPlaces archive lower ext, nodup_matchingPlaces, ?_⟩
    · have hsome : (results.map Prod.snd).map some =
          (archive.filter (fun e => hasExt lower ext e.filename)).map (·.content) := by
        have hsnd := congrArg (List.map Prod.snd) hcontents
        rw [List.map_map, List.map_map] at hsnd
        rw [List.map_map]
        exact hsnd
      have hlength := sum_length_le hsome
      rw [List.map_map] at hlength
      have hfilter := sum_filter_le (fun e => hasExt lower ext e.filename) archive
      have htotal := (findFilesByExt_eq_some h).1
      have hcomp : (results.map (fun r => r.2.length)).sum = (results.map (List.length ∘ Prod.snd)).sum := rfl
      omega
    · rw [hcontents, map_matchingPlaces (fun e => (e.filename, e.content))]

/-- Two entries with names of their own. -/
theorem within_limits_two_files :
    WithinLimits ⟨50, 4, 2, fun _ _ => false⟩
      [⟨"a.x".toList, 2, 2, some [1, 2], by decide⟩, ⟨"b.x".toList, 2, 2, some [3], by decide⟩]
      [("a.x".toList, [1, 2]), ("b.x".toList, [3])] := by
  apply (within_limits_iff _ _ id ".x".toList _ (by decide)).mpr
  intro e he e' he' hext hname
  simp only [List.mem_cons, List.not_mem_nil, or_false] at he he'
  obtain rfl | rfl := he <;> obtain rfl | rfl := he'
  · rfl
  · exact absurd hname (by decide)
  · exact absurd hname (by decide)
  · rfl

/-- The last of two entries with one name is returned twice, and is over the limit. -/
theorem repeated_name_over_limit :
    findFilesByExt ⟨50, 3, 2, fun _ _ => false⟩
        [⟨"a.x".toList, 1, 1, some [1], by decide⟩, ⟨"a.x".toList, 2, 2, some [2, 3], by decide⟩] id ".x".toList =
        some [("a.x".toList, [2, 3]), ("a.x".toList, [2, 3])] ∧
      ¬WithinLimits ⟨50, 3, 2, fun _ _ => false⟩
        [⟨"a.x".toList, 1, 1, some [1], by decide⟩, ⟨"a.x".toList, 2, 2, some [2, 3], by decide⟩]
        [("a.x".toList, [2, 3]), ("a.x".toList, [2, 3])] := by
  refine ⟨by decide, fun h => ?_⟩
  have htotal := h.total
  revert htotal
  decide

end Extraction
end IpDocket.Uploads
