import IpDocket.Lib.Table
import IpDocket.Lib.Decimal
import Mathlib.Data.List.Nodup
import Mathlib.Data.List.TakeWhile

/-!
# Attachment files in a merge of clients

`_move_invoice_client_attachment_files` copies the file of each attachment of a source client into
the directory of the target, removes it from that of the source, and lets the rows of the source
point to the target. The files are moved at once, the rows change in the transaction of the merge.

A statement that fails aborts the transaction on PostgreSQL, so that the merge fails at its next
statement even where `_merge_invoice_side` swallows the exception: the rows are then as before.
-/

namespace IpDocket.Clients
open IpDocket.Lib

/-- A row of `client_attachments`. -/
structure Attachment where
  id : Nat
  clientId : Nat
  storedName : Text
  deriving DecidableEq

/-- A file: the base directory, the client of the directory `client_<id>`, and the name. The first
base directory is `CLIENT_ATTACHMENTS_DIR`. -/
structure Place where
  base : Nat
  client : Nat
  name : Text
  deriving DecidableEq

abbrev Files (C : Type) := Place → Option C

/-- `os.path.basename`. -/
def basename (t : Text) : Text := (t.reverse.takeWhile (· ≠ '/')).reverse

/-- `os.path.splitext` of a name without `/`. -/
def splitext (t : Text) : Text × Text :=
  let ext := (t.reverse.takeWhile (· ≠ '.')).reverse
  let stem := t.take (t.length - ext.length - 1)
  if '.' ∈ t ∧ stem.any (· ≠ '.') then (stem, '.' :: ext) else (t, [])

/-- `_safe_stored_basename`. -/
def safeStoredBasename (raw : Text) : Option Text :=
  let name := pyStrip raw
  if name = [] ∨ basename name ≠ name then none else some name

/-- `resolve_client_attachment_file_path` over `bases` base directories. -/
def resolvePath {C : Type} (bases : Nat) (files : Files C) (a : Attachment) : Option C :=
  (safeStoredBasename a.storedName).bind (fun stored =>
    (List.range bases).findSome? (fun base => files ⟨base, a.clientId, stored⟩))

/-- The names that `_unique_filename` tries. -/
def candidateNames (filename : Text) : List Text :=
  let (stem, ext) := splitext (basename filename)
  let stem := if stem = [] then "file".toList else stem
  (stem ++ ext) :: (List.range' 1 499).map (fun i => stem ++ " (".toList ++ pyDigits i ++ ')' :: ext)

/-- `_unique_filename`. -/
def uniqueFilename (taken : Text → Bool) (stamp filename : Text) : Text :=
  let (stem, ext) := splitext (basename filename)
  let stem := if stem = [] then "file".toList else stem
  ((candidateNames filename).find? (!taken ·)).getD (stem ++ "__".toList ++ stamp ++ ext)

/-- What becomes of the file of an attachment that is there: its real path may lead out of the
directory, the copy may fail (the clean-up can leave something behind), and so may the removal. -/
inductive FileOutcome (C : Type)
  | leadsOut
  | copyFails (left : Option C)
  | removeFails
  | moved

/-- How `merge_clients` ends: an exception after some of the files is followed by a rollback. -/
inductive Ending
  | committed
  | raised (done : Nat)

/-- A call of `merge_clients`. `selected` are the rows of the sources as the `SELECT` gives them;
`stamp` is the time of day. -/
structure MergeCall (C : Type) where
  target : Nat
  sources : List Nat
  selected : List Attachment
  dirMade : Bool := true
  outcome : Nat → FileOutcome C
  stamp : Nat → Text
  ending : Ending

/-- The files and `renamed_map`. -/
structure MoveState (C : Type) where
  files : Files C
  renamed : List (Nat × Text) := []

/-- The file that the move of an attachment looks for. -/
def Attachment.src (a : Attachment) : Place := ⟨0, a.clientId, basename a.storedName⟩

section Move

variable {C : Type} (call : MergeCall C)

/-- The name in the directory of the target. -/
def dstName (files : Files C) (a : Attachment) : Text :=
  let storedName := basename a.storedName
  let taken := fun name => (files ⟨0, call.target, name⟩).isSome
  if taken storedName then uniqueFilename taken (call.stamp a.id) storedName else storedName

/-- `renamed_map[att_id] = dst_name`. -/
def noteRenamed (a : Attachment) (dst : Text) (renamed : List (Nat × Text)) : List (Nat × Text) :=
  if dst = basename a.storedName then renamed else renamed ++ [(a.id, dst)]

def moveFile (s : MoveState C) (a : Attachment) : MoveState C :=
  let dst := dstName call s.files a
  if basename a.storedName = [] then s
  else
    match s.files a.src with
    | none => s
    | some content =>
      match call.outcome a.id with
      | .leadsOut => s
      | .copyFails left => { s with files := Function.update s.files ⟨0, call.target, dst⟩ left }
      | .removeFails => {
          files := Function.update s.files ⟨0, call.target, dst⟩ (some content)
          renamed := noteRenamed a dst s.renamed }
      | .moved => {
          files := Function.update
            (Function.update s.files ⟨0, call.target, dst⟩ (some content)) a.src none
          renamed := noteRenamed a dst s.renamed }

def byClient (selected : List Attachment) : List (Nat × List Attachment) :=
  ((selected.map Attachment.clientId).foldl (keepFirst id) []).map (fun sid =>
    (sid, selected.filter (fun a => a.clientId = sid)))

/-- The attachments in the order in which their files are moved. -/
def moveOrder (selected : List Attachment) : List Attachment := (byClient selected).flatMap Prod.snd

def repointRow (sid : Nat) (a : Attachment) : Attachment :=
  onRows (fun a => a.clientId = sid) (fun a => { a with clientId := call.target }) a

def renameRow (a : Attachment) (entry : Nat × Text) : Attachment :=
  onRows (fun a => a.id = entry.1) (fun a => { a with storedName := entry.2 }) a

lemma id_repointRow (sid : Nat) (a : Attachment) : (repointRow call sid a).id = a.id :=
  key_onRows (f := fun a => { a with clientId := call.target }) (fun _ => rfl) a

lemma id_renameRow (entry : Nat × Text) (a : Attachment) : (renameRow a entry).id = a.id :=
  key_onRows (f := fun a => { a with storedName := entry.2 }) (fun _ => rfl) a

def repoint (rows : Table Attachment.id) (sid : Nat) : Table Attachment.id :=
  rows.update (repointRow call sid) (id_repointRow call sid)

def rename (rows : Table Attachment.id) (entry : Nat × Text) : Table Attachment.id :=
  rows.update (renameRow · entry) (id_renameRow entry)

def moveClient (s : MoveState C × Table Attachment.id) (client : Nat × List Attachment) :
    MoveState C × Table Attachment.id :=
  (client.2.foldl (moveFile call) s.1, repoint call s.2 client.1)

/-- `_move_invoice_client_attachment_files`. -/
def moveAttachmentFiles (files : Files C) (rows : Table Attachment.id) :
    Files C × Table Attachment.id :=
  if call.dirMade then
    let s := (byClient call.selected).foldl (moveClient call) ({ files := files }, rows)
    (s.1.files, s.1.renamed.foldl rename s.2)
  else (files, rows)

/-- The files and the rows after `merge_clients`. -/
def mergeFiles (files : Files C) (rows : Table Attachment.id) : Files C × Table Attachment.id :=
  match call.ending with
  | .committed => moveAttachmentFiles call files rows
  | .raised done =>
    if call.dirMade then
      ((((moveOrder call.selected).take done).foldl (moveFile call) { files := files }).files, rows)
    else (files, rows)

end Move

section Names

variable {t name : Text}

lemma basename_of_not_mem (h : '/' ∉ t) : basename t = t := by
  have hall : ∀ c ∈ t.reverse, decide (c ≠ '/') = true := by
    intro c hc
    have hne : c ≠ '/' := by
      rintro rfl
      exact h (List.mem_reverse.mp hc)
    exact decide_eq_true hne
  rw [basename, List.takeWhile_eq_self_iff.mpr hall, List.reverse_reverse]

lemma not_mem_basename (t : Text) : '/' ∉ basename t := by
  intro h
  have hne := List.mem_takeWhile_imp (List.mem_reverse.mp h)
  simp at hne

/-- The text up to its last dot, and what is behind. -/
lemma split_last_dot (h : '.' ∈ t) :
    ∃ stem, t = stem ++ '.' :: (t.reverse.takeWhile (· ≠ '.')).reverse := by
  have hsplit := List.takeWhile_append_dropWhile (p := fun c => decide (c ≠ '.')) (l := t.reverse)
  cases hdrop : t.reverse.dropWhile (fun c => decide (c ≠ '.')) with
  | nil =>
    have hall := List.dropWhile_eq_nil_iff.mp hdrop '.' (List.mem_reverse.mpr h)
    simp at hall
  | cons c rest =>
    have hc : c = '.' := by
      have hhead := List.head_dropWhile_not (l := t.reverse) (fun c => decide (c ≠ '.'))
        (by rw [hdrop]; exact List.cons_ne_nil c rest)
      simp only [hdrop, List.head_cons] at hhead
      simpa using hhead
    rw [hdrop, hc] at hsplit
    have hreverse := congrArg List.reverse hsplit
    rw [List.reverse_reverse, List.reverse_append, List.reverse_cons, List.append_assoc,
      List.singleton_append] at hreverse
    exact ⟨rest.reverse, hreverse.symm⟩

lemma splitext_append (t : Text) : (splitext t).1 ++ (splitext t).2 = t := by
  unfold splitext
  dsimp only
  split
  · next h =>
    obtain ⟨stem, hstem⟩ := split_last_dot h.1
    have htake : t.take (t.length - (t.reverse.takeWhile (· ≠ '.')).reverse.length - 1) = stem := by
      have hlength := congrArg List.length hstem
      rw [List.length_append, List.length_cons] at hlength
      have hcut : t.length - (t.reverse.takeWhile (· ≠ '.')).reverse.length - 1 = stem.length := by
        omega
      rw [hcut]
      conv_lhs => rw [hstem]
      exact List.take_left
    dsimp only
    rw [htake]
    exact hstem.symm
  · exact List.append_nil t

lemma stem_ne_nil (h : t ≠ []) : (splitext t).1 ≠ [] := by
  unfold splitext
  dsimp only
  split
  · next hdot =>
    intro hnil
    dsimp only at hnil
    rw [hnil] at hdot
    simp at hdot
  · exact h

/-- The stem and the extension of a name. -/
lemma candidateNames_eq (hne : name ≠ []) (hslash : '/' ∉ name) : candidateNames name =
    name :: (List.range' 1 499).map (fun i =>
      (splitext name).1 ++ " (".toList ++ pyDigits i ++ ')' :: (splitext name).2) := by
  unfold candidateNames
  rw [basename_of_not_mem hslash]
  dsimp only
  rw [if_neg (stem_ne_nil hne), splitext_append]

lemma nodup_candidateNames (hne : name ≠ []) (hslash : '/' ∉ name) :
    (candidateNames name).Nodup := by
  rw [candidateNames_eq hne hslash, List.nodup_cons]
  constructor
  · intro hmem
    obtain ⟨i, -, hi⟩ := List.mem_map.mp hmem
    have hlength := congrArg List.length hi
    have hname := congrArg List.length (splitext_append name)
    rw [List.length_append] at hname
    simp only [List.length_append, List.length_cons] at hlength
    omega
  · refine List.Nodup.map (fun i j hij => ?_) List.nodup_range'
    have hpart := List.append_cancel_right_eq _ _ _ ▸ hij
    have hdigits := List.append_cancel_left hpart
    exact pyDigits_inj hdigits

/-- A further name is the stem, a number in brackets, and the extension. -/
lemma candidate_cases (hne : name ≠ []) (hslash : '/' ∉ name) {d : Text}
    (hd : d ∈ candidateNames name) : d = name ∨ ∃ i, d =
      (splitext name).1 ++ (" (".toList ++ (pyDigits i ++ ')' :: (splitext name).2)) := by
  rw [candidateNames_eq hne hslash] at hd
  rcases List.mem_cons.mp hd with rfl | hd
  · exact .inl rfl
  · obtain ⟨i, -, rfl⟩ := List.mem_map.mp hd
    exact .inr ⟨i, by simp only [List.append_assoc]⟩

lemma mem_candidate (hne : name ≠ []) (hslash : '/' ∉ name) {d : Text}
    (hd : d ∈ candidateNames name) : '/' ∉ d ∧ d ≠ [] := by
  rcases candidate_cases hne hslash hd with rfl | ⟨i, rfl⟩
  · exact ⟨hslash, hne⟩
  · have hparts := hslash
    rw [← splitext_append name, List.mem_append, not_or] at hparts
    constructor
    · intro hmem
      rcases List.mem_append.mp hmem with hmem | hmem
      · exact hparts.1 hmem
      · rcases List.mem_append.mp hmem with hmem | hmem
        · revert hmem
          decide
        · rcases List.mem_append.mp hmem with hmem | hmem
          · exact absurd (isDigit_pyDigits i _ hmem) (by decide)
          · rcases List.mem_cons.mp hmem with heq | hmem
            · revert heq
              decide
            · exact hparts.2 hmem
    · exact List.append_ne_nil_of_left_ne_nil (stem_ne_nil hne) _

lemma stripped_candidate (hne : name ≠ []) (hslash : '/' ∉ name) (hname : Stripped name) {d : Text}
    (hd : d ∈ candidateNames name) : Stripped d := by
  rcases candidate_cases hne hslash hd with rfl | ⟨i, rfl⟩
  · exact hname
  · have hstem := stem_ne_nil hne
    have happend := splitext_append name
    constructor
    · intro c hc
      apply hname.1 c
      rw [← happend]
      rw [List.head?_append_of_ne_nil _ hstem] at hc ⊢
      exact hc
    · intro c hc
      rw [List.getLast?_append_of_ne_nil _ (by simp), List.getLast?_append_of_ne_nil _ (by simp),
        List.getLast?_append_of_ne_nil _ (by simp)] at hc
      cases hext : (splitext name).2 with
      | nil =>
        rw [hext] at hc
        obtain rfl : ')' = c := Option.some_inj.mp hc
        decide
      | cons e ext =>
        rw [hext, List.getLast?_cons_cons] at hc
        apply hname.2 c
        rw [← happend, hext, List.getLast?_append_of_ne_nil _ (List.cons_ne_nil e ext)]
        exact hc

lemma safeStoredBasename_eq_some {stored : Text} (h : safeStoredBasename stored = some stored) :
    basename stored = stored ∧ stored ≠ [] ∧ Stripped stored := by
  unfold safeStoredBasename at h
  dsimp only at h
  split at h
  · cases h
  · next hnot =>
    have hstrip := Option.some_inj.mp h
    rw [hstrip, not_or, not_not] at hnot
    refine ⟨hnot.2, hnot.1, ?_⟩
    rw [← hstrip]
    exact stripped_pyStrip stored

lemma safeStoredBasename_candidate {stored d : Text} (hne : stored ≠ [])
    (hbase : basename stored = stored) (hstripped : Stripped stored)
    (hd : d ∈ candidateNames (basename stored)) : safeStoredBasename d = some d := by
  rw [hbase] at hd
  have hslash : '/' ∉ stored := by
    rw [← hbase]
    exact not_mem_basename stored
  obtain ⟨hdslash, hdne⟩ := mem_candidate hne hslash hd
  have hstrip := pyStrip_of_stripped (stripped_candidate hne hslash hstripped hd)
  unfold safeStoredBasename
  dsimp only
  rw [hstrip, if_neg]
  exact not_or.mpr ⟨hdne, not_not.mpr (basename_of_not_mem hdslash)⟩

end Names

end IpDocket.Clients
