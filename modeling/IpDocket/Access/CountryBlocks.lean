import IpDocket.Lib.Ranges
import IpDocket.Lib.Text

/-!
# Blocked countries

The zone file of a country lists networks, one on each line. Its addresses are kept as the merged ranges
of these networks, in which an address is found by bisection. Whatever order, overlaps and repetitions the
file has, the index depends on the addresses that it lists only, and finds exactly these.
-/

namespace IpDocket.Access
open IpDocket.Lib

/-- The addresses of a network as numbers. -/
structure IpNetwork where
  version : ℕ
  range : Range

structure IpAddress where
  version : ℕ
  value : ℕ

/-- A file as it was last read: `lines` is `none` if it cannot be read, the time is 0 if it is not there. -/
structure ZoneFile where
  mtime : ℤ
  lines : Option (List Text)

/-- The library that reads addresses and networks, and the zone files. -/
structure ZoneHost where
  ipAddress : Text → Option IpAddress
  ipNetwork : Text → Option IpNetwork
  zoneFile : Text → ZoneFile

structure RangeIndex where
  starts : List ℕ
  ends : List ℕ

section Index

variable (H : ZoneHost)

/-- The range of a line, unless it is blank, a comment or no network of version 4. -/
def lineRange (rawLine : Text) : Option Range :=
  let line := pyStrip rawLine
  if line = [] ∨ line.head? = some '#' then none
  else (H.ipNetwork line).bind (fun net => if net.version = 4 then some net.range else none)

def zoneRanges (lines : List Text) : List Range := lines.filterMap (lineRange H)

def mergedRanges (ranges : List Range) : List Range :=
  ((ranges.mergeSort (fun r q => r.first ≤ q.first)).foldl Range.mergeStep []).reverse

def rangeIndex (ranges : List Range) : RangeIndex where
  starts := (mergedRanges ranges).map Range.first
  ends := (mergedRanges ranges).map Range.last

def loadIpv4RangeIndexFromZoneFile (file : ZoneFile) : RangeIndex :=
  match file.lines with
  | none => ⟨[], []⟩
  | some lines => if (zoneRanges H lines).isEmpty then ⟨[], []⟩ else rangeIndex (zoneRanges H lines)

def ipv4InIndex (ipInt : ℕ) (index : RangeIndex) : Bool :=
  if index.starts.isEmpty then false
  else
    let i : ℤ := bisectRight index.starts ipInt - 1
    if i < 0 then false else ipInt ≤ index.ends.getD i.toNat 0

def isBlockedByCountryCidrs (ip : Text) (blockedCodes : List Text) : Bool :=
  if blockedCodes.isEmpty then false
  else
    match H.ipAddress ip with
    | none => false
    | some address =>
      if address.version ≠ 4 then false
      else blockedCodes.any (fun code =>
        if (H.zoneFile code).mtime ≤ 0 then false
        else ipv4InIndex address.value (loadIpv4RangeIndexFromZoneFile H (H.zoneFile code)))

end Index

section Facts

variable {H : ZoneHost} {ranges : List Range} {n : ℕ}

lemma mergedRanges_spec (ranges : List Range) :
    Range.Separated (mergedRanges ranges) ∧ ∀ n, Range.Covers (mergedRanges ranges) n ↔ Range.Covers ranges n := by
  have hsorted : (ranges.mergeSort (fun r q => r.first ≤ q.first)).Pairwise (fun r q => r.first ≤ q.first) := by
    apply (List.pairwise_mergeSort _ _ ranges).imp
    · exact fun h => of_decide_eq_true h
    · intro r q p hrq hqp
      exact decide_eq_true ((of_decide_eq_true hrq).trans (of_decide_eq_true hqp))
    · intro r q
      simpa using Nat.le_total r.first q.first
  obtain ⟨hseparated, hcovers⟩ := Range.merged_spec hsorted
  refine ⟨hseparated, fun n => (hcovers n).trans ?_⟩
  unfold Range.Covers
  simp only [List.mem_mergeSort]

lemma mergedRanges_nil : mergedRanges [] = [] := by
  simp [mergedRanges]

/-- An empty file needs no case of its own. -/
lemma loadIndex_eq (file : ZoneFile) : loadIpv4RangeIndexFromZoneFile H file =
    rangeIndex ((file.lines.map (zoneRanges H)).getD []) := by
  unfold loadIpv4RangeIndexFromZoneFile
  cases hlines : file.lines with
  | none => simp [rangeIndex, mergedRanges_nil]
  | some lines =>
    dsimp only [Option.map_some, Option.getD_some]
    by_cases hempty : zoneRanges H lines = []
    · simp [hempty, rangeIndex, mergedRanges_nil]
    · rw [if_neg (by simpa using hempty)]

/-- An address is in the index exactly if a range of the file covers it. -/
lemma ipv4InIndex_iff : ipv4InIndex n (rangeIndex ranges) = true ↔ Range.Covers ranges n := by
  obtain ⟨hseparated, hcovers⟩ := mergedRanges_spec ranges
  rw [← hcovers, Range.covers_iff_bisectRight hseparated]
  unfold ipv4InIndex rangeIndex
  dsimp only
  by_cases hempty : mergedRanges ranges = []
  · simp [hempty, bisectRight, bisectLoop]
  · rw [if_neg (by simpa using hempty)]
    by_cases hzero : bisectRight ((mergedRanges ranges).map Range.first) n = 0
    · simp [hzero]
    · have hplace : ((bisectRight ((mergedRanges ranges).map Range.first) n : ℤ) - 1).toNat =
          bisectRight ((mergedRanges ranges).map Range.first) n - 1 := by omega
      rw [if_neg (by omega), hplace, decide_eq_true_eq]
      exact (and_iff_right (Nat.pos_of_ne_zero hzero)).symm

/-- Two files have the same index exactly if they list the same addresses. -/
theorem index_eq_iff (H : ZoneHost) (file file' : ZoneFile) :
    loadIpv4RangeIndexFromZoneFile H file = loadIpv4RangeIndexFromZoneFile H file' ↔
      ∀ n, Range.Covers ((file.lines.map (zoneRanges H)).getD []) n ↔
        Range.Covers ((file'.lines.map (zoneRanges H)).getD []) n := by
  rw [loadIndex_eq, loadIndex_eq]
  constructor
  · intro h n
    rw [← ipv4InIndex_iff, h, ipv4InIndex_iff]
  · intro h
    have hmerged : mergedRanges ((file.lines.map (zoneRanges H)).getD []) =
        mergedRanges ((file'.lines.map (zoneRanges H)).getD []) := by
      apply Range.eq_of_covers (mergedRanges_spec _).1 (mergedRanges_spec _).1
      intro n
      rw [(mergedRanges_spec _).2, (mergedRanges_spec _).2]
      exact h n
    unfold rangeIndex
    rw [hmerged]

/-- A line lists the address. -/
def Lists (H : ZoneHost) (rawLine : Text) (n : ℕ) : Prop :=
  ∃ r, lineRange H rawLine = some r ∧ r.first ≤ n ∧ n ≤ r.last

lemma covers_zoneRanges {lines : List Text} :
    Range.Covers (zoneRanges H lines) n ↔ ∃ rawLine ∈ lines, Lists H rawLine n := by
  unfold Range.Covers zoneRanges Lists
  simp only [List.mem_filterMap]
  constructor
  · rintro ⟨r, ⟨rawLine, hline, hr⟩, hn⟩
    exact ⟨rawLine, hline, r, hr, hn⟩
  · rintro ⟨rawLine, hline, r, hr, hn⟩
    exact ⟨r, ⟨rawLine, hline, hr⟩, hn⟩

/-- An address is blocked exactly if it is one of version 4 that a line of the zone file of a blocked
country lists. -/
theorem blocked_iff_listed (H : ZoneHost) (ip : Text) (blockedCodes : List Text) :
    isBlockedByCountryCidrs H ip blockedCodes = true ↔
      ∃ n, H.ipAddress ip = some ⟨4, n⟩ ∧ ∃ code ∈ blockedCodes, 0 < (H.zoneFile code).mtime ∧
        ∃ lines, (H.zoneFile code).lines = some lines ∧ ∃ rawLine ∈ lines, Lists H rawLine n := by
  have hfile : ∀ file n, ipv4InIndex n (loadIpv4RangeIndexFromZoneFile H file) = true ↔
      ∃ lines, file.lines = some lines ∧ ∃ rawLine ∈ lines, Lists H rawLine n := by
    intro file n
    rw [loadIndex_eq, ipv4InIndex_iff]
    cases hlines : file.lines with
    | none => simp
    | some lines => simp [covers_zoneRanges]
  have hcode : ∀ code n, (if (H.zoneFile code).mtime ≤ 0 then false
      else ipv4InIndex n (loadIpv4RangeIndexFromZoneFile H (H.zoneFile code))) = true ↔
      0 < (H.zoneFile code).mtime ∧ ∃ lines, (H.zoneFile code).lines = some lines ∧
        ∃ rawLine ∈ lines, Lists H rawLine n := by
    intro code n
    rw [← hfile]
    split
    · next hold => simp [hold]
    · next hnew => simp [Int.not_le.mp hnew]
  unfold isBlockedByCountryCidrs
  split
  · next hnone =>
    have hnil : blockedCodes = [] := by simpa using hnone
    simp [hnil]
  · split
    · next haddress => simp [haddress]
    · next address haddress =>
      obtain ⟨version, value⟩ := address
      by_cases hversion : version = 4
      · subst hversion
        simp only [ne_eq, not_true_eq_false, if_false, List.any_eq_true, hcode, haddress]
        constructor
        · intro h
          exact ⟨value, rfl, h⟩
        · rintro ⟨n, hn, h⟩
          cases hn
          exact h
      · simp only [ne_eq, hversion, not_false_eq_true, if_true, Bool.false_eq_true, false_iff, haddress]
        rintro ⟨n, hn, -⟩
        cases hn
        exact hversion rfl

end Facts

end IpDocket.Access
