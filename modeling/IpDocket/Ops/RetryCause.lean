import IpDocket.Ops.DurableQueue

/-!
# The visible cause of a retry

Two recoveries and the manual retry append a marker to `last_error`, and `_visible_retry_cause`
shows the first line that is no marker. The recoveries put their marker on a line of its own; the
manual retry appends a backslash and an `n` in place of the line break.
-/

namespace IpDocket.Ops
open IpDocket.Lib

/-- The lines of `raw.replace("\r", "\n").split("\n")`. -/
def splitBreaks : Text → List Text
  | [] => [[]]
  | c :: t =>
    if c = '\n' ∨ c = '\r' then [] :: splitBreaks t
    else match splitBreaks t with
      | line :: rest => (c :: line) :: rest
      | [] => [[c]]

def markerLabels : List (Text × Text) :=
  [("[manual retry]".toList, "manual retry".toList),
    ("[recovered stale lock]".toList, "stale lock recovered".toList),
    ("[recovered worker startup lock]".toList, "worker startup lock recovered".toList)]

/-- `marker_labels.get(text_value)`. -/
def markerLabel (line : Text) : Option Text := markerLabels.lookup line

def cutCause (line : Text) : Text :=
  if 300 < line.length then ((line.take 299).reverse.dropWhile pyIsSpace).reverse ++ "...".toList else line

/-- The loop over the lines. -/
def visibleRest (seenMarkers : List Text) : List Text → Text
  | [] => (", ".toList).intercalate seenMarkers
  | line :: lines =>
    let textValue := pyStrip line
    if textValue = [] then visibleRest seenMarkers lines
    else match markerLabel textValue with
      | some marker => visibleRest (seenMarkers ++ [marker]) lines
      | none => cutCause textValue

def visibleRetryCause (lastError : Option String) : Text :=
  let raw := pyStrip (lastError.getD "").toList
  if raw = [] then [] else visibleRest [] (splitBreaks raw)

/-- The operations that append a marker. -/
inductive Recovery
  | staleLock
  | startupLock
  | manualRetry
  deriving DecidableEq

def Recovery.apply (now : Time) : Recovery → DurableJob → DurableJob
  | .staleLock => requeueStale now
  | .startupLock => requeueStartup now
  | .manualRetry => retryJob now

def Recovery.label : Recovery → Text
  | .staleLock => "stale lock recovered".toList
  | .startupLock => "worker startup lock recovered".toList
  | .manualRetry => "manual retry".toList

/-- The job after operations at some times. -/
def recoverJob (ops : List (Recovery × Time)) (job : DurableJob) : DurableJob :=
  ops.foldl (fun job op => op.1.apply op.2 job) job

/-- The lines with a text, stripped. -/
def textLines (lines : List Text) : List Text := (lines.map pyStrip).filter (· ≠ [])

def isErrorLine (line : Text) : Bool := (markerLabel line).isNone

def firstErrorLine (lines : List Text) : Option Text := (textLines lines).find? isErrorLine

def errorText (job : DurableJob) : Text := (job.lastError.getD "").toList

/-- The first real line of the error, or what has been recovered. -/
def expectedCause (job : DurableJob) (ops : List (Recovery × Time)) : Text :=
  match firstErrorLine (splitBreaks (errorText job)) with
  | some line => cutCause line
  | none => (", ".toList).intercalate
      ((textLines (splitBreaks (errorText job))).filterMap markerLabel ++ ops.map (·.1.label))

/-- No marker of a manual retry comes near the line that is shown: there is none, or the line is
cut before it, or the line is not the last one when the first such marker is appended. -/
def CauseApart (job : DurableJob) (ops : List (Recovery × Time)) : Prop :=
  (∀ op ∈ ops, op.1 ≠ .manualRetry) ∨
    ∃ line, firstErrorLine (splitBreaks (errorText job)) = some line ∧
      (300 < line.length ∨ (firstErrorLine (splitBreaks (errorText job)).dropLast).isSome ∨
        (ops.head?.map Prod.fst) ≠ some .manualRetry)

example : visibleRetryCause (some "\n[recovered stale lock]\nValueError: x\n[manual retry]") =
    "ValueError: x".toList := by decide +kernel

lemma splitBreaks_ne_nil (t : Text) : splitBreaks t ≠ [] := by
  cases t with
  | nil => exact List.cons_ne_nil _ _
  | cons c t =>
    unfold splitBreaks
    split
    · exact List.cons_ne_nil _ _
    · split <;> exact List.cons_ne_nil _ _

def lastLine (t : Text) : Text := (splitBreaks t).getLast (splitBreaks_ne_nil t)

lemma splitBreaks_eq (t : Text) : splitBreaks t = (splitBreaks t).dropLast ++ [lastLine t] :=
  (List.dropLast_append_getLast (splitBreaks_ne_nil t)).symm

/-- The last line of a text goes on with the first line of the text that is appended. -/
lemma splitBreaks_append (t : Text) {u line : Text} {rest : List Text}
    (hu : splitBreaks u = line :: rest) :
    splitBreaks (t ++ u) = (splitBreaks t).dropLast ++ (lastLine t ++ line) :: rest := by
  induction t with
  | nil =>
    rw [List.nil_append, hu]
    rfl
  | cons c t ih =>
    have hsplit := splitBreaks_eq t
    by_cases hc : c = '\n' ∨ c = '\r'
    · have hlines : ∀ v : Text, splitBreaks (c :: v) = [] :: splitBreaks v := by
        intro v
        rw [splitBreaks, if_pos hc]
      have hlast : lastLine (c :: t) = lastLine t := by
        unfold lastLine
        simp only [hlines t]
        exact List.getLast_cons (splitBreaks_ne_nil t)
      rw [List.cons_append, hlines, ih, hlines, hlast, List.dropLast_cons_of_ne_nil (splitBreaks_ne_nil t),
        List.cons_append]
    · have hlines : ∀ {v first : Text} {others : List Text}, splitBreaks v = first :: others →
          splitBreaks (c :: v) = (c :: first) :: others := by
        intro v first others h
        rw [splitBreaks, if_neg hc, h]
      cases hearly : (splitBreaks t).dropLast with
      | nil =>
        rw [hearly, List.nil_append] at hsplit ih
        have hlast : lastLine (c :: t) = c :: lastLine t := by
          unfold lastLine
          simp only [hlines hsplit]
          rfl
        rw [List.cons_append, hlines ih, hlast, hlines hsplit]
        rfl
      | cons first others =>
        rw [hearly, List.cons_append] at hsplit ih
        have hlast : lastLine (c :: t) = lastLine t := by
          unfold lastLine
          simp only [hlines hsplit]
          simp [lastLine]
        have hdrop : ((c :: first) :: (others ++ [lastLine t])).dropLast = (c :: first) :: others := by
          rw [← List.cons_append, List.dropLast_concat]
        rw [List.cons_append, hlines ih, hlast, hlines hsplit, hdrop, List.cons_append]

lemma splitBreaks_of_noBreak {t : Text} (h : ∀ c ∈ t, c ≠ '\n' ∧ c ≠ '\r') : splitBreaks t = [t] := by
  induction t with
  | nil => rfl
  | cons c t ih =>
    have hc := h c List.mem_cons_self
    rw [splitBreaks, if_neg (by simp [hc]), ih (fun d hd => h d (List.mem_cons_of_mem c hd))]

/-- A line that is appended with a line break before it. -/
lemma splitBreaks_concat (t : Text) {line : Text} (h : ∀ c ∈ line, c ≠ '\n' ∧ c ≠ '\r') :
    splitBreaks (t ++ '\n' :: line) = splitBreaks t ++ [line] := by
  have hu : splitBreaks ('\n' :: line) = [] :: [line] := by
    rw [splitBreaks, if_pos (.inl rfl), splitBreaks_of_noBreak h]
  rw [splitBreaks_append t hu, List.append_nil, splitBreaks_eq t]
  simp

lemma pyStrip_cons_space {c : Char} (hc : pyIsSpace c = true) (t : Text) : pyStrip (c :: t) = pyStrip t := by
  unfold pyStrip
  rw [List.dropWhile_cons_of_pos hc]

lemma pyStrip_concat_space {c : Char} (hc : pyIsSpace c = true) (t : Text) :
    pyStrip (t ++ [c]) = pyStrip t := by
  induction t with
  | nil => simp [pyStrip, hc]
  | cons d t ih =>
    by_cases hd : pyIsSpace d = true
    · rw [List.cons_append, pyStrip_cons_space hd, pyStrip_cons_space hd, ih]
    · unfold pyStrip
      rw [List.cons_append, List.dropWhile_cons_of_neg hd, List.dropWhile_cons_of_neg hd,
        ← List.cons_append, List.reverse_append, List.reverse_singleton, List.singleton_append,
        List.dropWhile_cons_of_pos hc]

lemma textLines_cons_space {c : Char} (hc : pyIsSpace c = true) (t : Text) :
    textLines (splitBreaks (c :: t)) = textLines (splitBreaks t) := by
  rw [splitBreaks]
  split
  · simp [textLines, pyStrip]
  · cases hlines : splitBreaks t with
    | nil => exact absurd hlines (splitBreaks_ne_nil t)
    | cons line rest => simp [textLines, pyStrip_cons_space hc]

lemma textLines_concat_space {c : Char} (hc : pyIsSpace c = true) (t : Text) :
    textLines (splitBreaks (t ++ [c])) = textLines (splitBreaks t) := by
  have hboth : textLines (splitBreaks t) = textLines ((splitBreaks t).dropLast ++ [lastLine t]) := by
    rw [← splitBreaks_eq t]
  rw [hboth]
  by_cases hbreak : c = '\n' ∨ c = '\r'
  · have hu : splitBreaks [c] = [] :: [[]] := by
      rw [splitBreaks, if_pos hbreak]
      rfl
    have hempty : pyStrip [] = [] := rfl
    rw [splitBreaks_append t hu, List.append_nil]
    simp [textLines, hempty, List.filter_cons]
  · have hu : splitBreaks [c] = [c] :: [] := by
      rw [splitBreaks, if_neg hbreak]
      rfl
    rw [splitBreaks_append t hu]
    simp [textLines, pyStrip_concat_space hc]

/-- Stripping the text does not change its lines. -/
lemma textLines_pyStrip (t : Text) : textLines (splitBreaks (pyStrip t)) = textLines (splitBreaks t) := by
  have hfront : ∀ u : Text, textLines (splitBreaks (u.dropWhile pyIsSpace)) = textLines (splitBreaks u) := by
    intro u
    induction u with
    | nil => rfl
    | cons c u ih =>
      by_cases hc : pyIsSpace c = true
      · rw [List.dropWhile_cons_of_pos hc, ih, textLines_cons_space hc]
      · rw [List.dropWhile_cons_of_neg hc]
  have hback : ∀ u : Text,
      textLines (splitBreaks (u.dropWhile pyIsSpace).reverse) = textLines (splitBreaks u.reverse) := by
    intro u
    induction u with
    | nil => rfl
    | cons c u ih =>
      by_cases hc : pyIsSpace c = true
      · rw [List.dropWhile_cons_of_pos hc, ih, List.reverse_cons, textLines_concat_space hc]
      · rw [List.dropWhile_cons_of_neg hc]
  unfold pyStrip
  rw [hback, List.reverse_reverse, hfront]

lemma visibleRest_eq (seenMarkers lines : List Text) :
    visibleRest seenMarkers lines =
      match firstErrorLine lines with
      | some line => cutCause line
      | none => (", ".toList).intercalate (seenMarkers ++ (textLines lines).filterMap markerLabel) := by
  induction lines generalizing seenMarkers with
  | nil => simp [visibleRest, firstErrorLine, textLines]
  | cons line lines ih =>
    by_cases hempty : pyStrip line = []
    · have hlines : textLines (line :: lines) = textLines lines := by simp [textLines, hempty]
      simp only [visibleRest, if_pos hempty, ih, firstErrorLine, hlines]
    · have hlines : textLines (line :: lines) = pyStrip line :: textLines lines := by simp [textLines, hempty]
      cases hlabel : markerLabel (pyStrip line) with
      | none => simp [visibleRest, hempty, hlabel, firstErrorLine, hlines, isErrorLine]
      | some marker =>
        simp only [visibleRest, if_neg hempty, hlabel, ih, firstErrorLine, hlines]
        simp [isErrorLine, hlabel]

lemma visibleRetryCause_eq (lastError : Option String) :
    visibleRetryCause lastError =
      match firstErrorLine (splitBreaks (lastError.getD "").toList) with
      | some line => cutCause line
      | none => (", ".toList).intercalate
          ((textLines (splitBreaks (lastError.getD "").toList)).filterMap markerLabel) := by
  have hstrip := textLines_pyStrip (lastError.getD "").toList
  unfold visibleRetryCause firstErrorLine
  dsimp only
  split
  · next hraw =>
    rw [hraw] at hstrip
    rw [← hstrip]
    rfl
  · rw [visibleRest_eq, firstErrorLine, hstrip, List.nil_append]

lemma textLines_append (a b : List Text) : textLines (a ++ b) = textLines a ++ textLines b := by
  unfold textLines
  rw [List.map_append, List.filter_append]

lemma firstErrorLine_append (a b : List Text) :
    firstErrorLine (a ++ b) = (firstErrorLine a).or (firstErrorLine b) := by
  unfold firstErrorLine
  rw [textLines_append, List.find?_append]

def Recovery.line : Recovery → Text
  | .staleLock => "[recovered stale lock]".toList
  | .startupLock => "[recovered worker startup lock]".toList
  | .manualRetry => "[manual retry]".toList

/-- What an operation appends. -/
def Recovery.text : Recovery → Text
  | .manualRetry => '\\' :: 'n' :: Recovery.manualRetry.line
  | op => '\n' :: op.line

lemma errorText_apply (now : Time) (op : Recovery) (job : DurableJob) :
    errorText (op.apply now job) = errorText job ++ op.text := by
  cases op <;> exact String.toList_append

lemma errorText_recoverJob (ops : List (Recovery × Time)) (job : DurableJob) :
    errorText (recoverJob ops job) = errorText job ++ ops.flatMap (·.1.text) := by
  induction ops generalizing job with
  | nil => simp [recoverJob]
  | cons op ops ih =>
    have hrest := ih (op.1.apply op.2 job)
    rw [errorText_apply, List.append_assoc] at hrest
    exact hrest

lemma line_facts (op : Recovery) : (∀ c ∈ op.line, c ≠ '\n' ∧ c ≠ '\r') ∧
    pyStrip op.line = op.line ∧ op.line ≠ [] ∧ markerLabel op.line = some op.label := by
  cases op <;> decide

/-- Without a manual retry each operation has added a line. -/
lemma splitBreaks_recovered {ops : List (Recovery × Time)} (h : ∀ op ∈ ops, op.1 ≠ .manualRetry) (t : Text) :
    splitBreaks (t ++ ops.flatMap (·.1.text)) = splitBreaks t ++ ops.map (·.1.line) := by
  induction ops generalizing t with
  | nil => simp
  | cons op ops ih =>
    have htext : op.1.text = '\n' :: op.1.line := by
      have hop := h op List.mem_cons_self
      generalize op.1 = r at hop
      cases r
      · rfl
      · rfl
      · exact absurd rfl hop
    have hrest := ih (fun o ho => h o (List.mem_cons_of_mem op ho)) (t ++ op.1.text)
    rw [List.append_assoc] at hrest
    rw [List.flatMap_cons, hrest, htext, splitBreaks_concat t (line_facts op.1).1, List.map_cons,
      List.append_assoc, List.singleton_append]

lemma textLines_lines (ops : List (Recovery × Time)) :
    textLines (ops.map (·.1.line)) = ops.map (·.1.line) := by
  induction ops with
  | nil => rfl
  | cons op ops ih =>
    have hop := line_facts op.1
    have hcons : textLines (op.1.line :: ops.map (·.1.line)) = op.1.line :: textLines (ops.map (·.1.line)) := by
      simp [textLines, hop.2.1, hop.2.2.1]
    rw [List.map_cons, hcons, ih]

lemma firstErrorLine_lines (ops : List (Recovery × Time)) : firstErrorLine (ops.map (·.1.line)) = none := by
  unfold firstErrorLine
  rw [textLines_lines, List.find?_eq_none]
  intro line hline
  obtain ⟨op, hop, rfl⟩ := List.mem_map.mp hline
  simp [isErrorLine, (line_facts op.1).2.2.2]

lemma labels_lines (ops : List (Recovery × Time)) :
    (textLines (ops.map (·.1.line))).filterMap markerLabel = ops.map (·.1.label) := by
  rw [textLines_lines, List.filterMap_map]
  induction ops with
  | nil => rfl
  | cons op ops ih =>
    have hop : (markerLabel ∘ fun x : Recovery × Time => x.1.line) op = some op.1.label :=
      (line_facts op.1).2.2.2
    rw [List.filterMap_cons_some hop, ih, List.map_cons]

lemma visible_of_recovered {ops : List (Recovery × Time)} (h : ∀ op ∈ ops, op.1 ≠ .manualRetry)
    (job : DurableJob) :
    visibleRetryCause (recoverJob ops job).lastError = expectedCause job ops := by
  have htext : ((recoverJob ops job).lastError.getD "").toList =
      errorText job ++ ops.flatMap (·.1.text) := errorText_recoverJob ops job
  rw [visibleRetryCause_eq, htext, splitBreaks_recovered h, firstErrorLine_append, firstErrorLine_lines,
    Option.or_none, textLines_append, List.filterMap_append, labels_lines]
  rfl

/-! ### A manual retry -/

lemma dropWhile_append_cons {c : Char} (hc : pyIsSpace c = false) (a b : Text) :
    (a ++ c :: b).dropWhile pyIsSpace = a.dropWhile pyIsSpace ++ c :: b := by
  induction a with
  | nil => exact List.dropWhile_cons_of_neg (by simp [hc])
  | cons d a ih =>
    by_cases hd : pyIsSpace d = true
    · rw [List.cons_append, List.dropWhile_cons_of_pos hd, List.dropWhile_cons_of_pos hd, ih]
    · rw [List.cons_append, List.dropWhile_cons_of_neg hd, List.dropWhile_cons_of_neg hd, List.cons_append]

lemma rstrip_append_cons {c : Char} (hc : pyIsSpace c = false) (a b : Text) :
    ((a ++ c :: b).reverse.dropWhile pyIsSpace).reverse =
      a ++ c :: (b.reverse.dropWhile pyIsSpace).reverse := by
  rw [List.reverse_append, List.reverse_cons, List.append_assoc, List.singleton_append,
    dropWhile_append_cons hc]
  simp

lemma pyStrip_append_cons {c : Char} (hc : pyIsSpace c = false) (a b : Text) :
    pyStrip (a ++ c :: b) = a.dropWhile pyIsSpace ++ c :: (b.reverse.dropWhile pyIsSpace).reverse := by
  unfold pyStrip
  rw [dropWhile_append_cons hc, rstrip_append_cons hc]

/-- What is dropped at the end of a line. -/
lemma dropWhile_eq_pyStrip_append (a : Text) :
    ∃ w, a.dropWhile pyIsSpace = pyStrip a ++ w := by
  refine ⟨((a.dropWhile pyIsSpace).reverse.takeWhile pyIsSpace).reverse, ?_⟩
  unfold pyStrip
  rw [← List.reverse_append, List.takeWhile_append_dropWhile, List.reverse_reverse]

/-- What is shown of a line to which the marker of a manual retry has been appended. -/
lemma pyStrip_retried (a b : Text) :
    ∃ q, pyStrip (a ++ '\\' :: b) = pyStrip a ++ q ∧ '\\' ∈ q ∧
      pyStrip (a ++ '\\' :: b) = a.dropWhile pyIsSpace ++ '\\' :: (b.reverse.dropWhile pyIsSpace).reverse := by
  have hwhole := pyStrip_append_cons (by decide : pyIsSpace '\\' = false) a b
  obtain ⟨w, hw⟩ := dropWhile_eq_pyStrip_append a
  refine ⟨w ++ '\\' :: (b.reverse.dropWhile pyIsSpace).reverse, ?_, by simp, hwhole⟩
  rw [hwhole, hw, List.append_assoc]

lemma isErrorLine_of_backslash {line : Text} (h : '\\' ∈ line) : isErrorLine line = true := by
  have hplain : ∀ m ∈ markerLabels, '\\' ∉ m.1 := by decide
  unfold isErrorLine markerLabel
  rw [Option.isNone_iff_eq_none, List.lookup_eq_none_iff]
  intro m hm
  have hne : line ≠ m.1 := by
    intro heq
    exact hplain m hm (heq ▸ h)
  simpa using hne

/-- The line is shown as it is, or cut before the marker. -/
lemma cutCause_append_iff {line q : Text} (hq : q ≠ []) :
    cutCause (line ++ q) = cutCause line ↔ 300 < line.length := by
  have hpos : 0 < q.length := List.length_pos_of_ne_nil hq
  constructor
  · intro h
    by_contra hshort
    have hline : cutCause line = line := if_neg hshort
    rw [hline] at h
    by_cases hlong : 300 < (line ++ q).length
    · rw [cutCause, if_pos hlong] at h
      generalize hcut : (((line ++ q).take 299).reverse.dropWhile pyIsSpace).reverse = cut at h
      -- the first dot of the ellipsis is still among the characters that were kept
      have hlength : cut.length + 3 = line.length := by
        rw [← h, List.length_append]
        rfl
      have hkept : (line ++ q).take 299 =
          cut ++ '.' :: ('.' :: '.' :: q).take (298 - cut.length) := by
        rw [← h, List.append_assoc, List.take_append, List.take_of_length_le (by omega)]
        have hroom : 299 - cut.length = (298 - cut.length) + 1 := by omega
        rw [hroom]
        rfl
      have hdot := rstrip_append_cons (by decide : pyIsSpace '.' = false) cut
        (('.' :: '.' :: q).take (298 - cut.length))
      rw [← hkept, hcut] at hdot
      have hcontra := congrArg List.length hdot
      simp only [List.length_append, List.length_cons] at hcontra
      omega
    · rw [cutCause, if_neg hlong] at h
      have hcontra := congrArg List.length h
      rw [List.length_append] at hcontra
      omega
  · intro hlong
    have htake : (line ++ q).take 299 = line.take 299 := by
      rw [List.take_append_of_le_length (by omega)]
    have hlength : 300 < (line ++ q).length := by
      rw [List.length_append]
      omega
    rw [cutCause, if_pos hlength, cutCause, if_pos hlong, htake]

lemma head?_cutCause {c : Char} (hc : pyIsSpace c = false) (t : Text) :
    (cutCause (c :: t)).head? = some c := by
  unfold cutCause
  split
  · have h := rstrip_append_cons hc [] (t.take 298)
    rw [List.nil_append] at h
    rw [List.take_succ_cons, h]
    rfl
  · rfl

lemma head?_labels (labels : List Text) (h : ∀ l ∈ labels, ∃ m ∈ markerLabels, l = m.2) :
    ∀ c ∈ ((", ".toList).intercalate labels).head?, c ≠ '\\' ∧ c ≠ '[' := by
  have hlabels : ∀ m ∈ markerLabels, m.2 ≠ [] ∧ ∀ c ∈ m.2.head?, c ≠ '\\' ∧ c ≠ '[' := by decide
  cases labels with
  | nil => simp
  | cons l labels =>
    obtain ⟨m, hm, rfl⟩ := h l List.mem_cons_self
    have hhead : ((", ".toList).intercalate (m.2 :: labels)).head? = m.2.head? := by
      cases labels with
      | nil => simp
      | cons l' labels =>
        simp only [List.intercalate_cons_cons, List.append_assoc]
        exact List.head?_append_of_ne_nil _ (hlabels m hm).1
    rw [hhead]
    exact (hlabels m hm).2

lemma mem_of_markerLabel {line label : Text} (h : markerLabel line = some label) :
    (line, label) ∈ markerLabels := by
  obtain ⟨before, after, heq, -⟩ := List.lookup_eq_some_iff.mp h
  rw [heq]
  exact List.mem_append_right before List.mem_cons_self

/-- A marker that a manual retry has spoiled is not among the labels. -/
lemma cutCause_ne_labels {a : Text} (b : Text) (ha : pyStrip a = [] ∨ isErrorLine (pyStrip a) = false)
    {labels : List Text} (hlabels : ∀ l ∈ labels, ∃ m ∈ markerLabels, l = m.2) :
    cutCause (pyStrip (a ++ '\\' :: b)) ≠ (", ".toList).intercalate labels := by
  obtain ⟨q, hq, -, hwhole⟩ := pyStrip_retried a b
  have hhead : ∃ c t, pyStrip (a ++ '\\' :: b) = c :: t ∧ (c = '\\' ∨ c = '[') := by
    rcases ha with hblank | hmarker
    · have hdrop : a.dropWhile pyIsSpace = [] := by
        cases hd : a.dropWhile pyIsSpace with
        | nil => rfl
        | cons c t =>
          have hc : pyIsSpace c = false := by
            have hnot := List.head?_dropWhile_not pyIsSpace a
            rw [hd] at hnot
            simpa using hnot
          have hstrip := rstrip_append_cons hc [] t
          rw [List.nil_append, ← hd] at hstrip
          rw [pyStrip, hstrip] at hblank
          exact absurd hblank (List.cons_ne_nil _ _)
      rw [hdrop, List.nil_append] at hwhole
      exact ⟨_, _, hwhole, .inl rfl⟩
    · obtain ⟨label, hlabel⟩ : ∃ label, markerLabel (pyStrip a) = some label := by
        rw [isErrorLine, Option.isNone_eq_false_iff] at hmarker
        exact Option.isSome_iff_exists.mp hmarker
      have hbracket : ∀ m ∈ markerLabels, m.1.head? = some '[' := by decide
      have hfirst := hbracket _ (mem_of_markerLabel hlabel)
      obtain ⟨t, ht⟩ := List.head?_eq_some_iff.mp hfirst
      rw [hq]
      exact ⟨'[', t ++ q, by rw [show pyStrip a = '[' :: t from ht, List.cons_append], .inr rfl⟩
  obtain ⟨c, t, hct, hc⟩ := hhead
  have hspace : pyIsSpace c = false := by
    rcases hc with rfl | rfl <;> decide
  intro heq
  rw [hct] at heq
  have hmem := head?_cutCause hspace t
  rw [heq] at hmem
  have hne := head?_labels labels hlabels c hmem
  rcases hc with rfl | rfl
  · exact hne.1 rfl
  · exact hne.2 rfl

lemma splitBreaks_retried (t u : Text) :
    ∃ line rest, splitBreaks (t ++ (Recovery.manualRetry.text ++ u)) =
      (splitBreaks t).dropLast ++ (lastLine t ++ '\\' :: line) :: rest := by
  cases hu : splitBreaks u with
  | nil => exact absurd hu (splitBreaks_ne_nil u)
  | cons line rest =>
    have hsingle : splitBreaks Recovery.manualRetry.text = [Recovery.manualRetry.text] := by decide
    have hmarker := splitBreaks_append Recovery.manualRetry.text hu
    rw [hsingle, List.dropLast_singleton, List.nil_append] at hmarker
    have hlast : lastLine Recovery.manualRetry.text = Recovery.manualRetry.text := by decide
    rw [hlast] at hmarker
    exact ⟨_, rest, splitBreaks_append t hmarker⟩

lemma exists_first_retry {ops : List (Recovery × Time)} (h : ¬∀ op ∈ ops, op.1 ≠ .manualRetry) :
    ∃ (before : List (Recovery × Time)) (now : Time) (after : List (Recovery × Time)),
      ops = before ++ (.manualRetry, now) :: after ∧ ∀ op ∈ before, op.1 ≠ .manualRetry := by
  induction ops with
  | nil => exact absurd (fun op hop => absurd hop List.not_mem_nil) h
  | cons op ops ih =>
    obtain ⟨r, now⟩ := op
    by_cases hr : r = .manualRetry
    · subst hr
      exact ⟨[], now, ops, rfl, fun op hop => absurd hop List.not_mem_nil⟩
    · have hrest : ¬∀ op ∈ ops, op.1 ≠ .manualRetry := by
        intro hall
        apply h
        intro o ho
        obtain rfl | ho := List.mem_cons.mp ho
        · exact hr
        · exact hall o ho
      obtain ⟨before, now', after, rfl, hbefore⟩ := ih hrest
      refine ⟨(r, now) :: before, now', after, rfl, ?_⟩
      intro o ho
      obtain rfl | ho := List.mem_cons.mp ho
      · exact hr
      · exact hbefore o ho

lemma expected_labels (job : DurableJob) (ops : List (Recovery × Time)) :
    ∀ l ∈ (textLines (splitBreaks (errorText job))).filterMap markerLabel ++ ops.map (·.1.label),
      ∃ m ∈ markerLabels, l = m.2 := by
  intro l hl
  obtain hl | hl := List.mem_append.mp hl
  · obtain ⟨line, -, hlabel⟩ := List.mem_filterMap.mp hl
    exact ⟨_, mem_of_markerLabel hlabel, rfl⟩
  · obtain ⟨op, -, rfl⟩ := List.mem_map.mp hl
    exact ⟨_, mem_of_markerLabel (line_facts op.1).2.2.2, rfl⟩

/-- What is shown after a manual retry: an error line before the last line, or else the last line
with the marker. -/
lemma visible_of_retried {before after : List (Recovery × Time)} (now : Time)
    (hbefore : ∀ op ∈ before, op.1 ≠ .manualRetry) (job : DurableJob) :
    ∃ line, visibleRetryCause (recoverJob (before ++ (.manualRetry, now) :: after) job).lastError =
      match firstErrorLine (splitBreaks (errorText job) ++ before.map (·.1.line)).dropLast with
      | some first => cutCause first
      | none => cutCause (pyStrip ((splitBreaks (errorText job) ++ before.map (·.1.line)).getLast
          (List.append_ne_nil_of_left_ne_nil (splitBreaks_ne_nil _) _) ++ '\\' :: line)) := by
  have hrecovered := splitBreaks_recovered hbefore (errorText job)
  obtain ⟨line, rest, hlines⟩ := splitBreaks_retried (errorText job ++ before.flatMap (·.1.text))
    (after.flatMap (·.1.text))
  refine ⟨line, ?_⟩
  have htext : ((recoverJob (before ++ (.manualRetry, now) :: after) job).lastError.getD "").toList =
      errorText job ++ before.flatMap (·.1.text) ++
        (Recovery.manualRetry.text ++ after.flatMap (·.1.text)) := by
    have h := errorText_recoverJob (before ++ (.manualRetry, now) :: after) job
    rw [List.flatMap_append, List.flatMap_cons, ← List.append_assoc] at h
    exact h
  have hlast : lastLine (errorText job ++ before.flatMap (·.1.text)) =
      (splitBreaks (errorText job) ++ before.map (·.1.line)).getLast
        (List.append_ne_nil_of_left_ne_nil (splitBreaks_ne_nil _) _) := by
    unfold lastLine
    simp only [hrecovered]
  rw [hrecovered, hlast] at hlines
  rw [visibleRetryCause_eq, htext, hlines, firstErrorLine_append]
  generalize (splitBreaks (errorText job) ++ before.map (·.1.line)).getLast _ = last
  cases firstErrorLine (splitBreaks (errorText job) ++ before.map (·.1.line)).dropLast with
  | some first => rfl
  | none =>
    -- the line with the marker is neither blank nor a marker
    obtain ⟨q, hq, hmem, -⟩ := pyStrip_retried last line
    have hbackslash : '\\' ∈ pyStrip (last ++ '\\' :: line) := by
      rw [hq]
      exact List.mem_append_right _ hmem
    have hreal := isErrorLine_of_backslash hbackslash
    have hfirst : firstErrorLine ((last ++ '\\' :: line) :: rest) = some (pyStrip (last ++ '\\' :: line)) := by
      unfold firstErrorLine textLines
      rw [List.map_cons, List.filter_cons_of_pos (by simpa using List.ne_nil_of_mem hbackslash),
        List.find?_cons_of_pos hreal]
    rw [Option.none_or, hfirst]

/-- The first real line of the error is shown, or else the labels of the recoveries, exactly if no
marker of a manual retry comes near the line that is shown. -/
theorem visible_retry_cause_iff (job : DurableJob) (ops : List (Recovery × Time)) :
    visibleRetryCause (recoverJob ops job).lastError = expectedCause job ops ↔ CauseApart job ops := by
  by_cases hops : ∀ op ∈ ops, op.1 ≠ .manualRetry
  · exact iff_of_true (visible_of_recovered hops job) (.inl hops)
  obtain ⟨before, now, after, rfl, hbefore⟩ := exists_first_retry hops
  obtain ⟨line, hvisible⟩ := @visible_of_retried before after now hbefore job
  rw [hvisible, CauseApart, or_iff_right hops]
  have hlabels := expected_labels job (before ++ (.manualRetry, now) :: after)
  cases before with
  | nil =>
    have hhead : (([] ++ (Recovery.manualRetry, now) :: after).head?.map Prod.fst ≠ some .manualRetry) ↔
        False := by simp
    simp only [List.map_nil, List.append_nil, hhead, or_false]
    have hwhole : firstErrorLine (splitBreaks (errorText job)) =
        (firstErrorLine (splitBreaks (errorText job)).dropLast).or
          (firstErrorLine [lastLine (errorText job)]) := by
      rw [← firstErrorLine_append, ← splitBreaks_eq]
    cases hearly : firstErrorLine (splitBreaks (errorText job)).dropLast with
    | some first =>
      rw [hearly, Option.some_or] at hwhole
      simp [expectedCause, hwhole]
    | none =>
      rw [hearly, Option.none_or] at hwhole
      change cutCause (pyStrip (lastLine (errorText job) ++ '\\' :: line)) = _ ↔ _
      by_cases hlast : pyStrip (lastLine (errorText job)) = [] ∨
          isErrorLine (pyStrip (lastLine (errorText job))) = false
      · have hnone : firstErrorLine (splitBreaks (errorText job)) = none := by
          rw [hwhole]
          unfold firstErrorLine textLines
          rcases hlast with h | h
          · simp [h]
          · by_cases hblank : pyStrip (lastLine (errorText job)) = [] <;> simp [hblank, h]
        simp only [expectedCause, hnone]
        exact iff_of_false (cutCause_ne_labels line hlast hlabels) (by simp)
      · obtain ⟨hblank, hreal⟩ := not_or.mp hlast
        have hsome : firstErrorLine (splitBreaks (errorText job)) =
            some (pyStrip (lastLine (errorText job))) := by
          rw [hwhole]
          unfold firstErrorLine textLines
          simp [hblank, Bool.eq_true_of_not_eq_false hreal]
        obtain ⟨q, hq, hmem, -⟩ := pyStrip_retried (lastLine (errorText job)) line
        simp only [expectedCause, hsome]
        rw [hq, cutCause_append_iff (List.ne_nil_of_mem hmem)]
        simp
  | cons op before =>
    have hhead : ((op :: before ++ (Recovery.manualRetry, now) :: after).head?.map Prod.fst ≠
        some .manualRetry) ↔ True := by
      simpa using hbefore op List.mem_cons_self
    simp only [hhead, or_true, and_true]
    have hdrop : (splitBreaks (errorText job) ++ (op :: before).map (·.1.line)).dropLast =
        splitBreaks (errorText job) ++ ((op :: before).dropLast).map (·.1.line) := by
      rw [List.dropLast_append_of_ne_nil (by simp), List.map_dropLast]
    have hfirst : firstErrorLine (splitBreaks (errorText job) ++ (op :: before).map (·.1.line)).dropLast =
        firstErrorLine (splitBreaks (errorText job)) := by
      rw [hdrop, firstErrorLine_append, firstErrorLine_lines, Option.or_none]
    rw [hfirst]
    cases hline : firstErrorLine (splitBreaks (errorText job)) with
    | some first => simp [expectedCause, hline]
    | none =>
      have hlast : ∃ o : Recovery × Time, (splitBreaks (errorText job) ++ (op :: before).map (·.1.line)).getLast
          (List.append_ne_nil_of_left_ne_nil (splitBreaks_ne_nil _) _) = o.1.line := by
        rw [List.getLast_append_of_ne_nil _ (by simp), List.getLast_map]
        exact ⟨_, rfl⟩
      obtain ⟨o, ho⟩ := hlast
      have hmarker := (line_facts o.1).2
      simp only [expectedCause, hline]
      refine iff_of_false ?_ (by simp)
      rw [ho]
      exact cutCause_ne_labels line (.inr (by rw [hmarker.1, isErrorLine, hmarker.2.2]; rfl)) hlabels

/-- A job whose last run has failed with a message of one line. -/
def failedJob : DurableJob :=
  { ({ task := "mail.send" } : EnqueueRequest).job 0 1 with lastError := some "ValueError: no address" }

/-- One manual retry: the marker is shown behind the message. -/
theorem visible_retry_cause_retried :
    visibleRetryCause (recoverJob [(.manualRetry, 60)] failedJob).lastError =
      "ValueError: no address\\n[manual retry]".toList ∧
      visibleRetryCause (recoverJob [(.manualRetry, 60)] failedJob).lastError ≠
        expectedCause failedJob [(.manualRetry, 60)] := by
  decide +kernel

end IpDocket.Ops
