import Mathlib
import IpDocket.Lib.Calendar
import IpDocket.Lib.Text

/-!
# Calendar files

`build_calendar` writes events as lines of properties. Its texts are escaped, so that none of them can end
its line. A reader that unescapes the values gets all events back, with each line break as one `\n`.
-/

namespace IpDocket.Calendars
open IpDocket.Lib

/-- `str.replace` of one character. -/
def replaceChar (old : Char) (new : Text) (s : Text) : Text := s.flatMap (fun c => if c = old then new else [c])

/-- `str.replace` of a carriage return with its line feed. -/
def replaceCrLf (new : Text) : Text → Text
  | [] => []
  | [c] => [c]
  | c :: d :: t => if c = '\r' ∧ d = '\n' then new ++ replaceCrLf new t else c :: replaceCrLf new (d :: t)

def icsEscape (s : Text) : Text :=
  let s := replaceChar '\\' ['\\', '\\'] s
  let s := replaceChar ',' ['\\', ','] (replaceChar ';' ['\\', ';'] s)
  replaceChar '\r' ['\\', 'n'] (replaceChar '\n' ['\\', 'n'] (replaceCrLf ['\\', 'n'] s))

/-- Reading a value back. -/
def icsUnescape : Text → Text
  | [] => []
  | [c] => [c]
  | c :: d :: t =>
    if c = '\\' then (if d = 'n' ∨ d = 'N' then '\n' else d) :: icsUnescape t else c :: icsUnescape (d :: t)

/-- Each line break as one line feed. -/
def oneBreak : Text → Text
  | [] => []
  | [c] => [if c = '\r' then '\n' else c]
  | c :: d :: t =>
    if c = '\r' ∧ d = '\n' then '\n' :: oneBreak t else (if c = '\r' then '\n' else c) :: oneBreak (d :: t)

def escapeChar (c : Char) : Text :=
  if c = '\\' then ['\\', '\\'] else if c = ';' then ['\\', ';'] else if c = ',' then ['\\', ',']
  else if c = '\r' ∨ c = '\n' then ['\\', 'n'] else [c]

/-- A text whose first replacements are done. -/
def specials (s : Text) : Text :=
  replaceChar ',' ['\\', ','] (replaceChar ';' ['\\', ';'] (replaceChar '\\' ['\\', '\\'] s))

def breaks (s : Text) : Text := replaceChar '\r' ['\\', 'n'] (replaceChar '\n' ['\\', 'n'] s)

section Escape

variable {c d : Char} {s t : Text}

lemma icsEscape_eq (s : Text) : icsEscape s = breaks (replaceCrLf ['\\', 'n'] (specials s)) := rfl

lemma replaceChar_cons (old : Char) (new : Text) : replaceChar old new (c :: t) =
    (if c = old then new else [c]) ++ replaceChar old new t := rfl

lemma mem_replaceChar {old : Char} {new : Text} (h : c ∈ replaceChar old new t) : c ∈ new ∨ c ∈ t ∧ c ≠ old := by
  obtain ⟨d, hd, hc⟩ := List.mem_flatMap.mp h
  split at hc
  · exact .inl hc
  · next hne =>
    obtain rfl := List.mem_singleton.mp hc
    exact .inr ⟨hd, hne⟩

lemma replaceCrLf_cons {new : Text} (h : ¬(c = '\r' ∧ t.head? = some '\n')) :
    replaceCrLf new (c :: t) = c :: replaceCrLf new t := by
  cases t with
  | nil => rfl
  | cons d t =>
    rw [replaceCrLf, if_neg]
    rintro ⟨hc, rfl⟩
    exact h ⟨hc, rfl⟩

lemma specials_cons (c : Char) (t : Text) : specials (c :: t) =
    (if c = '\\' ∨ c = ';' ∨ c = ',' then ['\\', c] else [c]) ++ specials t := by
  unfold specials
  by_cases hslash : c = '\\'
  · subst hslash
    simp [replaceChar_cons]
  · by_cases hsemicolon : c = ';'
    · subst hsemicolon
      simp [replaceChar_cons]
    · by_cases hcomma : c = ','
      · subst hcomma
        simp [replaceChar_cons]
      · simp [replaceChar_cons, hslash, hsemicolon, hcomma]

lemma head?_specials (h : (specials t).head? = some '\n') : t.head? = some '\n' := by
  cases t with
  | nil => exact h
  | cons c t =>
    rw [specials_cons] at h
    split at h
    · simp at h
    · simpa using h

lemma breaks_cons (c : Char) (t : Text) : breaks (c :: t) =
    (if c = '\r' ∨ c = '\n' then ['\\', 'n'] else [c]) ++ breaks t := by
  unfold breaks
  by_cases hreturn : c = '\r'
  · subst hreturn
    simp [replaceChar_cons]
  · by_cases hfeed : c = '\n'
    · subst hfeed
      simp [replaceChar_cons]
    · simp [replaceChar_cons, hreturn, hfeed]

/-- Escaping goes from one end of the text to the other. -/
lemma icsEscape_crlf (t : Text) : icsEscape ('\r' :: '\n' :: t) = '\\' :: 'n' :: icsEscape t := by
  have hspecials : specials ('\r' :: '\n' :: t) = '\r' :: '\n' :: specials t := by
    simp [specials_cons]
  rw [icsEscape_eq, hspecials, replaceCrLf, if_pos ⟨rfl, rfl⟩]
  simp [breaks_cons, icsEscape_eq]

lemma icsEscape_cons (h : ¬(c = '\r' ∧ t.head? = some '\n')) : icsEscape (c :: t) = escapeChar c ++ icsEscape t := by
  rw [icsEscape_eq, specials_cons, icsEscape_eq]
  by_cases hspecial : c = '\\' ∨ c = ';' ∨ c = ','
  · have hreturn : c ≠ '\r' := by
      rintro rfl
      simp at hspecial
    have hfeed : c ≠ '\n' := by
      rintro rfl
      simp at hspecial
    rw [if_pos hspecial, List.cons_append, List.singleton_append, replaceCrLf_cons (by simp),
      replaceCrLf_cons (by simp [hreturn]), breaks_cons, breaks_cons]
    rcases hspecial with rfl | rfl | rfl
    · simp [escapeChar]
    · simp [escapeChar]
    · simp [escapeChar]
  · rw [if_neg hspecial, List.singleton_append, replaceCrLf_cons (fun hb => h ⟨hb.1, head?_specials hb.2⟩), breaks_cons]
    rw [not_or, not_or] at hspecial
    simp [escapeChar, hspecial]

lemma icsUnescape_plain (h : c ≠ '\\') : icsUnescape (c :: t) = c :: icsUnescape t := by
  cases t with
  | nil => rfl
  | cons d t => rw [icsUnescape, if_neg h]

lemma icsUnescape_escapeChar (c : Char) (t : Text) :
    icsUnescape (escapeChar c ++ t) = (if c = '\r' then '\n' else c) :: icsUnescape t := by
  unfold escapeChar
  split
  · next h =>
    subst h
    simp [icsUnescape]
  · next hslash =>
    split
    · next h =>
      subst h
      simp [icsUnescape]
    · split
      · next h =>
        subst h
        simp [icsUnescape]
      · split
        · next h =>
          rcases h with rfl | rfl
          · simp [icsUnescape]
          · simp [icsUnescape]
        · next hbreak =>
          rw [not_or] at hbreak
          rw [List.singleton_append, icsUnescape_plain hslash, if_neg hbreak.1]

/-- A value that is read back has one line feed for each line break, and is the same otherwise. -/
lemma icsUnescape_icsEscape (s : Text) : icsUnescape (icsEscape s) = oneBreak s := by
  induction s using oneBreak.induct with
  | case1 => rfl
  | case2 c =>
    rw [icsEscape_cons (by simp), icsUnescape_escapeChar]
    rfl
  | case3 c d t h ih =>
    obtain ⟨rfl, rfl⟩ := h
    rw [icsEscape_crlf, oneBreak, if_pos ⟨rfl, rfl⟩, ← ih]
    simp [icsUnescape]
  | case4 c d t h ih =>
    rw [icsEscape_cons (by simpa using h), icsUnescape_escapeChar, oneBreak, if_neg h, ih]

/-- A value does not end its line. -/
lemma icsEscape_noBreak {c : Char} (h : c ∈ icsEscape s) : c ≠ '\r' ∧ c ≠ '\n' := by
  rw [icsEscape_eq, breaks] at h
  have hescape : ∀ c ∈ (['\\', 'n'] : Text), c ≠ '\r' ∧ c ≠ '\n' := by decide
  rcases mem_replaceChar h with h | ⟨h, hreturn⟩
  · exact hescape c h
  · rcases mem_replaceChar h with h | ⟨-, hfeed⟩
    · exact hescape c h
    · exact ⟨hreturn, hfeed⟩

end Escape

def fmtDate (d : PyDate) : Text :=
  pyDigits d.year ++ padLeft '0' 2 (pyDigits d.month) ++ padLeft '0' 2 (pyDigits d.day)

structure ICSEvent where
  uid : Text
  summary : Text
  start : PyDate
  description : Text
  url : Option Text

/-- The line of a property. -/
def property (name value : Text) : Text := name ++ ':' :: value

def eventLines (e : ICSEvent) : List Text :=
  [property "BEGIN".toList "VEVENT".toList, property "UID".toList (icsEscape e.uid),
    property "SUMMARY".toList (icsEscape e.summary), property "DTSTART;VALUE=DATE".toList (fmtDate e.start)] ++
  (if e.description = [] then [] else [property "DESCRIPTION".toList (icsEscape e.description)]) ++
  (if e.url.getD [] = [] then [] else [property "URL".toList (icsEscape (e.url.getD []))]) ++
  [property "END".toList "VEVENT".toList]

def calendarLines (events : List ICSEvent) (calName : Text) : List Text :=
  [property "BEGIN".toList "VCALENDAR".toList, property "VERSION".toList "2.0".toList,
    property "PRODID".toList "-//IPDocket//IPM//EN".toList, property "CALSCALE".toList "GREGORIAN".toList,
    property "X-WR-CALNAME".toList (icsEscape calName)] ++
  events.flatMap eventLines ++ [property "END".toList "VCALENDAR".toList]

def crlf : Text := ['\r', '\n']

def buildCalendar (events : List ICSEvent) (calName : Text) : Text :=
  crlf.intercalate (calendarLines events calName) ++ crlf

/-! ### Reading a calendar -/

/-- A date, whose last four digits are its month and its day. -/
def readDate (t : Text) : Option PyDate := do
  let (year, t) ← PyDate.digitField (t.length - 4) t
  let (month, t) ← PyDate.digitField 2 t
  let (day, _) ← PyDate.digitField 2 t
  PyDate.make year month day

structure ReadEvent where
  uid : Text := []
  summary : Text := []
  start : Option PyDate := none
  description : Text := []
  url : Option Text := none

structure ReadState where
  name : Text := []
  current : Option ReadEvent := none
  events : List ReadEvent := []

/-- The lines of a file, which end with a carriage return and a line feed. -/
def splitCrLf : Text → List Text
  | [] => [[]]
  | [c] => [[c]]
  | c :: d :: t =>
    if c = '\r' ∧ d = '\n' then [] :: splitCrLf t
    else (c :: (splitCrLf (d :: t)).headD []) :: (splitCrLf (d :: t)).tail

/-- What stands before the first colon, and what after it. -/
def splitProperty : Text → Option (Text × Text)
  | [] => none
  | c :: t => if c = ':' then some ([], t) else (splitProperty t).map (fun p => (c :: p.1, p.2))

def readProperty (s : ReadState) (name value : Text) : ReadState :=
  if name = "BEGIN".toList then (if value = "VEVENT".toList then { s with current := some {} } else s)
  else if name = "END".toList then
    (if value = "VEVENT".toList then { s with current := none, events := s.events ++ s.current.toList } else s)
  else if name = "X-WR-CALNAME".toList then { s with name := icsUnescape value }
  else if name = "UID".toList then { s with current := s.current.map ({ · with uid := icsUnescape value }) }
  else if name = "SUMMARY".toList then { s with current := s.current.map ({ · with summary := icsUnescape value }) }
  else if name = "DTSTART;VALUE=DATE".toList then { s with current := s.current.map ({ · with start := readDate value }) }
  else if name = "DESCRIPTION".toList then
    { s with current := s.current.map ({ · with description := icsUnescape value }) }
  else if name = "URL".toList then { s with current := s.current.map ({ · with url := some (icsUnescape value) }) }
  else s

def readLine (s : ReadState) (line : Text) : ReadState :=
  match splitProperty line with
  | none => s
  | some (name, value) => readProperty s name value

def readCalendar (file : Text) : Text × List ReadEvent :=
  let s := (splitCrLf file).foldl readLine {}
  (s.name, s.events)

/-- What a reader should get of an event. -/
def ICSEvent.shown (e : ICSEvent) : ReadEvent where
  uid := oneBreak e.uid
  summary := oneBreak e.summary
  start := some e.start
  description := oneBreak e.description
  url := if e.url.getD [] = [] then none else some (oneBreak (e.url.getD []))

section Read

variable {s : ReadState} {name value line : Text} {lines : List Text}

lemma splitProperty_property (h : ':' ∉ name) : splitProperty (property name value) = some (name, value) := by
  unfold property
  induction name with
  | nil => rfl
  | cons c name ih =>
    rw [List.mem_cons, not_or] at h
    rw [List.cons_append, splitProperty, if_neg (Ne.symm h.1), ih h.2]
    rfl

lemma readLine_property (h : ':' ∉ name) : readLine s (property name value) = readProperty s name value := by
  unfold readLine
  rw [splitProperty_property h]

/-- A line without line breaks is read as one. -/
lemma splitCrLf_line (h : ∀ c ∈ line, c ≠ '\r') (t : Text) : splitCrLf (line ++ crlf ++ t) = line :: splitCrLf t := by
  induction line with
  | nil => rfl
  | cons c line ih =>
    have hc := h c List.mem_cons_self
    have hrest := ih (fun d hd => h d (List.mem_cons_of_mem c hd))
    obtain ⟨d, u, hu⟩ : ∃ d u, line ++ crlf ++ t = d :: u := by
      cases line with
      | nil => exact ⟨_, _, rfl⟩
      | cons d line => exact ⟨_, _, rfl⟩
    rw [hu] at hrest
    rw [List.cons_append, List.cons_append, hu, splitCrLf, if_neg (fun hb => hc hb.1), hrest]
    rfl

lemma splitCrLf_lines (h : ∀ line ∈ lines, ∀ c ∈ line, c ≠ '\r') (hne : lines ≠ []) :
    splitCrLf (crlf.intercalate lines ++ crlf) = lines ++ [[]] := by
  have hjoined : ∀ lines : List Text, lines ≠ [] → crlf.intercalate lines ++ crlf = lines.flatMap (· ++ crlf) := by
    intro lines hlines
    induction lines with
    | nil => exact absurd rfl hlines
    | cons line lines ih =>
      cases lines with
      | nil => simp
      | cons next lines =>
        rw [List.intercalate_cons_cons, List.append_assoc, List.append_assoc, ih (List.cons_ne_nil _ _)]
        simp
  rw [hjoined lines hne]
  clear hne
  induction lines with
  | nil => rfl
  | cons line lines ih =>
    rw [List.flatMap_cons, splitCrLf_line (h line List.mem_cons_self),
      ih (fun l hl => h l (List.mem_cons_of_mem line hl))]
    rfl

lemma read_begin : readLine s (property "BEGIN".toList "VEVENT".toList) = { s with current := some {} } := by
  rw [readLine_property (by decide)]
  rfl

lemma read_end : readLine s (property "END".toList "VEVENT".toList) =
    { s with current := none, events := s.events ++ s.current.toList } := by
  rw [readLine_property (by decide)]
  rfl

lemma read_name (v : Text) : readLine s (property "X-WR-CALNAME".toList v) = { s with name := icsUnescape v } := by
  rw [readLine_property (by decide)]
  rfl

lemma read_uid (v : Text) : readLine s (property "UID".toList v) =
    { s with current := s.current.map ({ · with uid := icsUnescape v }) } := by
  rw [readLine_property (by decide)]
  rfl

lemma read_summary (v : Text) : readLine s (property "SUMMARY".toList v) =
    { s with current := s.current.map ({ · with summary := icsUnescape v }) } := by
  rw [readLine_property (by decide)]
  rfl

lemma read_start (v : Text) : readLine s (property "DTSTART;VALUE=DATE".toList v) =
    { s with current := s.current.map ({ · with start := readDate v }) } := by
  rw [readLine_property (by decide)]
  rfl

lemma read_description (v : Text) : readLine s (property "DESCRIPTION".toList v) =
    { s with current := s.current.map ({ · with description := icsUnescape v }) } := by
  rw [readLine_property (by decide)]
  rfl

lemma read_url (v : Text) : readLine s (property "URL".toList v) =
    { s with current := s.current.map ({ · with url := some (icsUnescape v) }) } := by
  rw [readLine_property (by decide)]
  rfl

/-- Of the first lines only the name is kept. -/
lemma foldl_header (v : Text) :
    [property "BEGIN".toList "VCALENDAR".toList, property "VERSION".toList "2.0".toList,
      property "PRODID".toList "-//IPDocket//IPM//EN".toList, property "CALSCALE".toList "GREGORIAN".toList,
      property "X-WR-CALNAME".toList v].foldl readLine s = { s with name := icsUnescape v } := by
  simp only [List.foldl_cons, List.foldl_nil]
  rw [read_name, readLine_property (by decide), readLine_property (by decide), readLine_property (by decide),
    readLine_property (by decide)]
  rfl

lemma read_endCalendar : readLine s (property "END".toList "VCALENDAR".toList) = s := by
  rw [readLine_property (by decide)]
  rfl

lemma digitField_pyDigits (n : Nat) (rest : Text) :
    PyDate.digitField (pyDigits n).length (pyDigits n ++ rest) = some (n, rest) := by
  have hwidth : 0 < (pyDigits n).length := List.length_pos_iff.mpr Nat.toDigits_ne_nil
  have hn : n < 10 ^ (pyDigits n).length := (Nat.length_toDigits_le_iff (by decide) hwidth).mp le_rfl
  have hpad : padLeft '0' (pyDigits n).length (pyDigits n) = pyDigits n := by
    simp [padLeft]
  have hread := PyDate.digitField_padLeft hwidth hn rest
  rwa [hpad] at hread

/-- A date that is written is read back. -/
lemma readDate_fmtDate (d : PyDate) : readDate (fmtDate d) = some d := by
  have hmonth : d.month < 10 ^ 2 := by
    have h := d.month_range
    omega
  have hday := d.day_lt
  have hlength : (fmtDate d).length - 4 = (pyDigits d.year).length := by
    unfold fmtDate
    rw [List.length_append, List.length_append, PyDate.length_padLeft_of_lt (by decide) hmonth,
      PyDate.length_padLeft_of_lt (by decide) hday]
    omega
  have hlast := PyDate.digitField_padLeft (by decide) hday []
  rw [List.append_nil] at hlast
  unfold readDate
  rw [hlength]
  unfold fmtDate
  rw [List.append_assoc, digitField_pyDigits]
  simp only [Option.bind_eq_bind, Option.bind_some]
  rw [PyDate.digitField_padLeft (by decide) hmonth]
  simp only [Option.bind_some]
  rw [hlast]
  exact PyDate.make_eq d

lemma foldl_optional (skip : Prop) [Decidable skip] :
    (if skip then [] else [line]).foldl readLine s = if skip then s else readLine s line := by
  split
  · rfl
  · rfl

/-- The lines of an event are read as that event. -/
lemma foldl_eventLines (e : ICSEvent) (hs : s.current = none) :
    (eventLines e).foldl readLine s = { s with events := s.events ++ [e.shown] } := by
  unfold eventLines ICSEvent.shown
  rw [List.foldl_append, List.foldl_append, List.foldl_append, foldl_optional, foldl_optional, read_description,
    read_url]
  simp only [List.foldl_cons, List.foldl_nil, read_begin, read_uid, read_summary, read_start, read_end,
    icsUnescape_icsEscape, readDate_fmtDate]
  by_cases hdescription : e.description = []
  · by_cases hurl : e.url.getD [] = []
    · simp [hdescription, hurl, hs, oneBreak]
    · simp [hdescription, hurl, hs, oneBreak]
  · by_cases hurl : e.url.getD [] = []
    · simp [hdescription, hurl, hs]
    · simp [hdescription, hurl, hs]

lemma foldl_events (events : List ICSEvent) (hs : s.current = none) :
    (events.flatMap eventLines).foldl readLine s = { s with events := s.events ++ events.map ICSEvent.shown } := by
  induction events generalizing s with
  | nil => simp
  | cons e events ih =>
    rw [List.flatMap_cons, List.foldl_append, foldl_eventLines e hs, @ih { s with events := s.events ++ [e.shown] } hs]
    simp

/-- No carriage return in the text. -/
abbrev InLine (t : Text) : Prop := ∀ c ∈ t, c ≠ '\r'

lemma inLine_property (hname : InLine name) (hvalue : InLine value) : InLine (property name value) := by
  intro c hc
  rcases List.mem_append.mp hc with hc | hc
  · exact hname c hc
  · rcases List.mem_cons.mp hc with rfl | hc
    · decide
    · exact hvalue c hc

lemma inLine_icsEscape (t : Text) : InLine (icsEscape t) := fun _ hc => (icsEscape_noBreak hc).1

lemma inLine_of_isDigit {t : Text} (h : ∀ c ∈ t, c.isDigit = true) : InLine t := by
  rintro c hc rfl
  exact absurd (h _ hc) (by decide)

lemma isDigit_pyDigits {n : Nat} {c : Char} (h : c ∈ pyDigits n) : c.isDigit = true :=
  Nat.isDigit_of_mem_toDigits (by decide) (by decide) h

lemma inLine_fmtDate (d : PyDate) : InLine (fmtDate d) := by
  apply inLine_of_isDigit
  intro c hc
  unfold fmtDate at hc
  simp only [List.mem_append] at hc
  rcases hc with (hc | hc) | hc
  · exact isDigit_pyDigits hc
  · exact isDigit_padLeft_zero 2 d.month c hc
  · exact isDigit_padLeft_zero 2 d.day c hc

lemma inLine_optional (skip : Prop) [Decidable skip] (h : InLine line) :
    ∀ l ∈ (if skip then [] else [line]), InLine l := by
  split
  · intro l hl
    cases hl
  · intro l hl
    rw [List.mem_singleton.mp hl]
    exact h

lemma inLine_eventLines (e : ICSEvent) : ∀ l ∈ eventLines e, InLine l := by
  unfold eventLines
  simp only [List.forall_mem_append, List.forall_mem_cons, List.not_mem_nil, false_imp_iff, implies_true, and_true]
  refine ⟨⟨⟨⟨?_, ?_, ?_, ?_⟩, ?_⟩, ?_⟩, ?_⟩
  · exact inLine_property (by decide) (by decide)
  · exact inLine_property (by decide) (inLine_icsEscape e.uid)
  · exact inLine_property (by decide) (inLine_icsEscape e.summary)
  · exact inLine_property (by decide) (inLine_fmtDate e.start)
  · exact inLine_optional _ (inLine_property (by decide) (inLine_icsEscape e.description))
  · exact inLine_optional _ (inLine_property (by decide) (inLine_icsEscape (e.url.getD [])))
  · exact inLine_property (by decide) (by decide)

lemma inLine_calendarLines (events : List ICSEvent) (calName : Text) :
    ∀ l ∈ calendarLines events calName, InLine l := by
  unfold calendarLines
  simp only [List.forall_mem_append, List.forall_mem_cons, List.not_mem_nil, false_imp_iff, implies_true, and_true]
  refine ⟨⟨⟨?_, ?_, ?_, ?_, ?_⟩, ?_⟩, ?_⟩
  · exact inLine_property (by decide) (by decide)
  · exact inLine_property (by decide) (by decide)
  · exact inLine_property (by decide) (by decide)
  · exact inLine_property (by decide) (by decide)
  · exact inLine_property (by decide) (inLine_icsEscape calName)
  · intro l hl
    obtain ⟨e, -, hl⟩ := List.mem_flatMap.mp hl
    exact inLine_eventLines e l hl
  · exact inLine_property (by decide) (by decide)

/-- A calendar that is written and read gives back its name and all of its events, in their order. -/
theorem readCalendar_buildCalendar (events : List ICSEvent) (calName : Text) :
    readCalendar (buildCalendar events calName) = (oneBreak calName, events.map ICSEvent.shown) := by
  unfold readCalendar buildCalendar
  rw [splitCrLf_lines (inLine_calendarLines events calName) (by simp [calendarLines])]
  unfold calendarLines
  rw [List.foldl_append, List.foldl_append, List.foldl_append]
  have hblank : ∀ s, readLine s [] = s := fun s => rfl
  rw [foldl_header, foldl_events events rfl, List.foldl_cons, List.foldl_nil, hblank, List.foldl_cons, List.foldl_nil,
    read_endCalendar, icsUnescape_icsEscape]
  rfl

end Read

end IpDocket.Calendars
