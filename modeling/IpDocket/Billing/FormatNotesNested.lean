import IpDocket.Billing.FormatNotesLines

/-!
# Notes that are safe in a page

The notes are rendered as escaped text and fixed tags. The tags are properly nested just if no emphasised
passage of a line reaches into a strong one or out of it.
-/

namespace IpDocket.Billing.Notes
open IpDocket.Lib

/-- The pieces that are no characters of the text. -/
def fixedPieces : List Piece :=
  [.entity .amp, .entity .lt, .entity .gt, .entity .quot, .entity .apos, .entity .nbsp,
    .opening .strong, .opening .em, .opening .ul, .opening .ol, .opening .li,
    .closing .strong, .closing .em, .closing .ul, .closing .ol, .closing .li, .lineBreak]

lemma mem_fixedPieces (p : Piece) : (∃ c, p = .char c) ∨ p ∈ fixedPieces := by
  cases p with
  | char c => exact .inl ⟨c, rfl⟩
  | entity e =>
    right
    cases e <;> decide
  | opening t =>
    right
    cases t <;> decide
  | closing t =>
    right
    cases t <;> decide
  | lineBreak =>
    right
    decide

lemma code_prefix_free : ∀ p ∈ fixedPieces, ∀ q ∈ fixedPieces, p.code <+: q.code → p = q := by
  decide

/-- A fixed piece begins with a character that escaped text does not have. -/
lemma head_fixedPieces : ∀ p ∈ fixedPieces, ∃ c ∈ ['<', '&'], p.code.head? = some c := by
  decide

lemma stripped_fixedPieces : ∀ p ∈ fixedPieces, (∀ c ∈ p.code.head?, pyIsSpace c = false) ∧
    ∀ c ∈ p.code.getLast?, pyIsSpace c = false := by
  decide

/-- The first piece is known by what is rendered. -/
lemma eq_of_code_append {p q : Piece} {s t : Text} (hp : p.Plain) (hq : q.Plain)
    (h : p.code ++ s = q.code ++ t) : p = q := by
  have hchar : ∀ c : Char, ∀ r ∈ fixedPieces, ∀ s t : Text, (Piece.char c).Plain →
      (Piece.char c).code ++ s ≠ r.code ++ t := by
    intro c r hr s t hc heq
    obtain ⟨d, hd, hhead⟩ := head_fixedPieces r hr
    have hspecial : ∀ x ∈ ['<', '&'], x ∈ specials := by decide
    cases hcode : r.code with
    | nil =>
      rw [hcode] at hhead
      cases hhead
    | cons d' w =>
      rw [hcode] at hhead heq
      obtain rfl := Option.some.inj hhead
      obtain rfl : c = d' := (List.cons.inj heq).1
      exact hc (hspecial c hd)
  obtain ⟨c, rfl⟩ | hpf := mem_fixedPieces p
  · obtain ⟨d, rfl⟩ | hqf := mem_fixedPieces q
    · exact congrArg Piece.char (List.cons.inj h).1
    · exact absurd h (hchar c q hqf s t hp)
  · obtain ⟨d, rfl⟩ | hqf := mem_fixedPieces q
    · exact absurd h.symm (hchar d p hpf t s hq)
    · have hleft : p.code <+: q.code ++ t := ⟨s, h⟩
      obtain hpre | hpre := List.prefix_or_prefix_of_prefix hleft (List.prefix_append q.code t)
      · exact code_prefix_free p hpf q hqf hpre
      · exact (code_prefix_free q hqf p hpf hpre).symm

lemma render_injective {ps qs : List Piece} (hps : ∀ p ∈ ps, p.Plain) (hqs : ∀ q ∈ qs, q.Plain)
    (h : render ps = render qs) : ps = qs := by
  have hne : ∀ (p : Piece) (t : Text), p.code ++ t ≠ [] := by
    intro p t hnil
    exact markCode.nonempty p (List.append_eq_nil_iff.mp hnil).1
  induction ps generalizing qs with
  | nil =>
    cases qs with
    | nil => rfl
    | cons q qs => exact absurd h.symm (hne q _)
  | cons p ps ih =>
    cases qs with
    | nil => exact absurd h (hne p _)
    | cons q qs =>
      rw [List.forall_mem_cons] at hps hqs
      rw [render_cons, render_cons] at h
      obtain rfl := eq_of_code_append hps.1 hqs.1 h
      rw [ih hps.2 hqs.2 (List.append_cancel_left h)]

/-- The text is escaped text and fixed tags that are properly nested. -/
def SafeHtml (out : Text) : Prop :=
  ∃ ps, (∀ p ∈ ps, p.Plain) ∧ out = render ps ∧ nest [] ps = some []

/-! ### Lines -/

/-- The line is made of pieces that are nested just if `ok` holds. -/
def RendersLine (ok : Prop) (t : Text) : Prop :=
  ∃ ps, (∀ p ∈ ps, p.Inline) ∧ t = render ps ∧ (ok → nest [] ps = some []) ∧ (¬ok → nest [] ps = none)

/-- An emphasised passage of the line is not nested in itself: a strong passage begins or ends in it. -/
def Crosses (line : Text) : Prop :=
  ∃ passage ∈ emphasised (strongPieces (escapePieces line)), nest [] passage ≠ some []

lemma rendersLine_marks (line : Text) :
    RendersLine (¬Crosses line) (emMarks (strongMarks (htmlEscape line))) := by
  have halternates := alternates_strongPieces (textual_escapePieces line)
  obtain ⟨hclosed, hcrossed⟩ := nest_emPieces halternates
  refine ⟨emPieces (strongPieces (escapePieces line)), ?_, ?_, ?_, ?_⟩
  · intro p hp
    have hwrap : ∀ passage, ∀ x ∈ Tag.em.wrapPieces passage, x ∈ passage ∨ x = .opening .em ∨ x = .closing .em := by
      intro passage x hx
      unfold Tag.wrapPieces at hx
      rw [List.mem_append, List.mem_cons, List.mem_singleton] at hx
      grind
    obtain hp | rfl | rfl := mem_lazyReplace hwrap hp
    · exact alternates_inline halternates p hp
    · exact .inr rfl
    · exact .inr rfl
  · rw [htmlEscape_eq, strongMarks_render, emMarks_render]
  · intro hnot
    apply hclosed
    intro passage hpassage
    by_contra hopen
    exact hnot ⟨passage, hpassage, hopen⟩
  · intro hcross
    rw [not_not] at hcross
    exact hcrossed hcross

/-- Without the white space at its ends. -/
lemma strip_render (ps : List Piece) (hps : ∀ p ∈ ps, p.Inline) :
    ∃ ps', (∀ p ∈ ps', p.Inline) ∧ pyStrip (render ps) = render ps' ∧ nest [] ps' = nest [] ps := by
  have hspaces : ∀ c, pyIsSpace c = true → ∀ d ∈ [c], pyIsSpace d = true := by
    intro c hc d hd
    rwa [List.mem_singleton.mp hd]
  have hfixed : ∀ p : Piece, (∀ c, p = .char c → pyIsSpace c = false) → Stripped p.code := by
    intro p hp
    obtain ⟨c, rfl⟩ | hfixed := mem_fixedPieces p
    · exact ⟨by simpa [Piece.code] using hp c rfl, by simpa [Piece.code] using hp c rfl⟩
    · exact stripped_fixedPieces p hfixed
  induction hn : ps.length using Nat.strong_induction_on generalizing ps with
  | _ n ih =>
    by_cases hhead : ∃ c rest, ps = .char c :: rest ∧ pyIsSpace c = true
    · obtain ⟨c, rest, rfl, hc⟩ := hhead
      rw [List.length_cons] at hn
      have hdrop := pyStrip_append_spaces (hspaces c hc) (by simp : ∀ d ∈ ([] : Text), pyIsSpace d = true)
        (render rest)
      rw [List.append_nil] at hdrop
      obtain ⟨ps', hinline, hrender, hnest⟩ :=
        ih rest.length (by omega) rest (fun p hp => hps p (List.mem_cons_of_mem _ hp)) rfl
      refine ⟨ps', hinline, ?_, by rw [nest_char, hnest]⟩
      rw [render_cons, ← hrender]
      exact hdrop
    · by_cases hlast : ∃ front c, ps = front ++ [Piece.char c] ∧ pyIsSpace c = true
      · obtain ⟨front, c, rfl, hc⟩ := hlast
        rw [List.length_append, List.length_singleton] at hn
        have hdrop := pyStrip_append_spaces (by simp : ∀ d ∈ ([] : Text), pyIsSpace d = true) (hspaces c hc)
          (render front)
        rw [List.nil_append] at hdrop
        obtain ⟨ps', hinline, hrender, hnest⟩ :=
          ih front.length (by omega) front (fun p hp => hps p (List.mem_append_left _ hp)) rfl
        refine ⟨ps', hinline, ?_, ?_⟩
        · rw [render_append, ← hrender]
          exact hdrop
        · rw [hnest, nest_append]
          cases nest [] front with
          | none => rfl
          | some stack => exact (nest_char stack c []).symm
      · refine ⟨ps, hps, ?_, rfl⟩
        apply pyStrip_of_stripped
        constructor
        · cases ps with
          | nil => simp
          | cons p rest =>
            have hp := hfixed p (fun c hc => by
              by_contra hspace
              exact hhead ⟨c, rest, by rw [hc], by simpa using hspace⟩)
            rw [render_cons, List.head?_append_of_ne_nil _ (markCode.nonempty p)]
            exact hp.1
        · cases ps using List.reverseRecOn with
          | nil => simp
          | append_singleton front p =>
            have hp := hfixed p (fun c hc => by
              by_contra hspace
              exact hlast ⟨front, c, by rw [hc], by simpa using hspace⟩)
            rw [render_append, render_cons, render_nil, List.append_nil,
              List.getLast?_append_of_ne_nil _ (markCode.nonempty p)]
            exact hp.2

/-- A character that begins a line is a piece. -/
lemma exists_char {ps : List Piece} {c : Char} {t : Text} (h : render ps = c :: t) (hc : c ≠ '<' ∧ c ≠ '&') :
    ∃ ps', ps = .char c :: ps' ∧ render ps' = t := by
  cases ps with
  | nil => cases h
  | cons p ps' =>
    obtain ⟨d, rfl⟩ | hfixed := mem_fixedPieces p
    · obtain ⟨rfl, rfl⟩ := List.cons.inj h
      exact ⟨ps', rfl, rfl⟩
    · obtain ⟨d, hd, hhead⟩ := head_fixedPieces p hfixed
      cases hcode : p.code with
      | nil =>
        rw [hcode] at hhead
        cases hhead
      | cons d' w =>
        rw [hcode] at hhead
        rw [render_cons, hcode] at h
        obtain rfl := Option.some.inj hhead
        obtain rfl : d' = c := (List.cons.inj h).1
        simp only [List.mem_cons, List.not_mem_nil, or_false] at hd
        obtain rfl | rfl := hd
        · exact absurd rfl hc.1
        · exact absurd rfl hc.2

lemma second_fixedPieces : ∀ p ∈ fixedPieces, ∀ c ∈ p.code[1]?, c ≠ ')' ∧ c ≠ '.' := by
  decide

lemma long_fixedPieces : ∀ p ∈ fixedPieces, 2 ≤ p.code.length := by
  decide

variable {isDigit : Char → Bool}

/-- The text of an item is a part of the line without a tag left out. -/
lemma listItem_render {ps : List Piece} (hps : ∀ p ∈ ps, p.Inline) {list : Tag} {item : Text}
    (h : listItem isDigit (render ps) = some (list, item)) :
    (list = .ul ∨ list = .ol) ∧
      ∃ ps', (∀ p ∈ ps', p.Inline) ∧ item = render ps' ∧ nest [] ps' = nest [] ps := by
  unfold listItem at h
  split at h
  · next rest heq =>
    obtain ⟨rfl, rfl⟩ := Prod.mk.inj (Option.some.inj h)
    obtain ⟨ps₁, rfl, hrest⟩ := exists_char heq (by decide)
    obtain ⟨ps₂, rfl, rfl⟩ := exists_char hrest (by decide)
    refine ⟨.inl rfl, ps₂, ?_, rfl, by rw [nest_char, nest_char]⟩
    exact fun p hp => hps p (List.mem_cons_of_mem _ (List.mem_cons_of_mem _ hp))
  · next c mark rest _ heq =>
    split at h
    · next hmark =>
      obtain ⟨rfl, rfl⟩ := Prod.mk.inj (Option.some.inj h)
      have hmark' : mark = ')' ∨ mark = '.' := by simpa using hmark.2
      -- the second character of a tag or of a character reference is another one
      have hfirst : ∃ ps', ps = .char c :: ps' ∧ render ps' = mark :: ' ' :: rest := by
        cases ps with
        | nil => cases heq
        | cons p ps' =>
          obtain ⟨d, rfl⟩ | hfixed := mem_fixedPieces p
          · obtain ⟨rfl, hrest⟩ := List.cons.inj heq
            exact ⟨ps', rfl, hrest⟩
          · have hlong := long_fixedPieces p hfixed
            have hsecond := second_fixedPieces p hfixed
            rw [render_cons] at heq
            obtain ⟨a, b, w, hcode⟩ : ∃ a b w, p.code = a :: b :: w := by
              obtain ⟨a, l, hl⟩ := List.exists_cons_of_length_pos (show 0 < p.code.length by omega)
              rw [hl, List.length_cons] at hlong
              obtain ⟨b, w, hw⟩ := List.exists_cons_of_length_pos (show 0 < l.length by omega)
              exact ⟨a, b, w, by rw [hl, hw]⟩
            rw [hcode] at heq hsecond
            obtain rfl : b = mark := (List.cons.inj (List.cons.inj heq).2).1
            obtain ⟨hbracket, hdot⟩ := hsecond b rfl
            exact absurd hmark' (not_or.mpr ⟨hbracket, hdot⟩)
      have hplain : mark ≠ '<' ∧ mark ≠ '&' := by
        obtain rfl | rfl := hmark'
        · decide
        · decide
      obtain ⟨ps₁, rfl, hafter⟩ := hfirst
      obtain ⟨ps₂, rfl, hspace⟩ := exists_char hafter hplain
      obtain ⟨ps₃, rfl, rfl⟩ := exists_char hspace (by decide)
      refine ⟨.inr rfl, ps₃, ?_, rfl, by rw [nest_char, nest_char, nest_char]⟩
      exact fun p hp =>
        hps p (List.mem_cons_of_mem _ (List.mem_cons_of_mem _ (List.mem_cons_of_mem _ hp)))
    · cases h
  · cases h

lemma space_inline : ∀ p ∈ fixedPieces, p ≠ .opening .ul → p ≠ .opening .ol → ' ' ∉ p.code := by
  decide

lemma nbspSpaces_render (ps : List Piece) (hps : ∀ p ∈ ps, p.Inline) :
    ∃ ps', (∀ p ∈ ps', p.Inline) ∧ nbspSpaces (render ps) = render ps' ∧ ∀ stack, nest stack ps' = nest stack ps := by
  have hcode : ∀ w : Text, ' ' ∉ w → nbspSpaces w = w := by
    intro w hw
    unfold nbspSpaces
    induction w with
    | nil => rfl
    | cons c w ih =>
      rw [List.mem_cons, not_or] at hw
      rw [List.flatMap_cons, if_neg (Ne.symm hw.1), ih hw.2]
      rfl
  have happend : ∀ s t, nbspSpaces (s ++ t) = nbspSpaces s ++ nbspSpaces t := fun s t => List.flatMap_append
  induction ps with
  | nil => exact ⟨[], hps, rfl, fun _ => rfl⟩
  | cons p ps ih =>
    rw [List.forall_mem_cons] at hps
    obtain ⟨ps', hinline, hrender, hnest⟩ := ih hps.2
    by_cases hspace : p = .char ' '
    · refine ⟨.entity .nbsp :: .entity .nbsp :: ps', ?_, ?_, ?_⟩
      · rw [List.forall_mem_cons, List.forall_mem_cons]
        exact ⟨trivial, trivial, hinline⟩
      · rw [render_cons, happend, hrender, hspace]
        rfl
      · intro stack
        rw [nest_entity, nest_entity, hnest, hspace, nest_char]
    · have hfree : ' ' ∉ p.code := by
        obtain ⟨c, rfl⟩ | hfixed := mem_fixedPieces p
        · intro hmem
          exact hspace (congrArg Piece.char (List.mem_singleton.mp hmem).symm)
        · apply space_inline p hfixed
          · rintro rfl
            obtain h | h := hps.1
            · cases h
            · cases h
          · rintro rfl
            obtain h | h := hps.1
            · cases h
            · cases h
      refine ⟨p :: ps', ?_, ?_, ?_⟩
      · rw [List.forall_mem_cons]
        exact ⟨hps.1, hinline⟩
      · rw [render_cons, happend, hrender, hcode p.code hfree, render_cons]
      · intro stack
        rw [nest, nest]
        congr 1
        funext stack'
        exact hnest stack'

lemma plain_of_inline {ps : List Piece} (h : ∀ p ∈ ps, p.Inline) : ∀ p ∈ ps, p.Plain := by
  intro p hp
  have hinline := h p hp
  cases p with
  | char c => exact hinline
  | entity e => trivial
  | opening t => trivial
  | closing t => trivial
  | lineBreak => trivial

/-- The stack is empty or holds a list. -/
def ListStack (stack : Option Tag) : Prop := ∀ t ∈ stack, t = .ul ∨ t = .ol

/-- A line within the open tags: nothing is changed, or nothing is nested any more. -/
lemma nest_line {ps : List Piece} (hps : ∀ p ∈ ps, p.Inline) {stack : List Tag}
    (hstack : stack.head? ≠ some .strong ∧ stack.head? ≠ some .em) {ok : Prop}
    (hok : ok → nest [] ps = some []) (hbad : ¬ok → nest [] ps = none) (rest : List Piece) :
    (ok → nest stack (ps ++ rest) = nest stack rest) ∧ (¬ok → nest stack (ps ++ rest) = none) := by
  constructor
  · intro h
    have hframe := nest_frame hps (hok h) stack
    rw [nest_append, ← List.nil_append stack, hframe]
    rfl
  · intro h
    have hnone := nest_none hps hstack (hbad h)
    rw [nest_append, ← List.nil_append stack, hnone]
    rfl

/-- What closes the open list, as pieces. -/
def closePieces : Option Tag → List (List Piece)
  | none => []
  | some t => [[.closing t]]

lemma closeList_eq (stack : Option Tag) : closeList stack = (closePieces stack).map render := by
  cases stack with
  | none => rfl
  | some t =>
    change [t.closing] = [t.closing ++ []]
    rw [List.append_nil]

lemma plain_closePieces (stack : Option Tag) : ∀ ps ∈ closePieces stack, ∀ p ∈ ps, p.Plain := by
  cases stack with
  | none => simp [closePieces]
  | some t =>
    intro ps hps p hp
    rw [List.mem_singleton.mp hps] at hp
    rw [List.mem_singleton.mp hp]
    trivial

lemma nest_closePieces (stack : Option Tag) (rest : List Piece) :
    nest stack.toList ((closePieces stack).flatten ++ rest) = nest [] rest := by
  cases stack with
  | none => rfl
  | some t => exact nest_closing t [] rest

/-- What opens the list of an item: nothing where it is open already. -/
lemma openList_nested {list : Tag} (hlist : list = .ul ∨ list = .ol) (stack : Option Tag) :
    ∃ front : List (List Piece),
      (if stack = some list then [] else closeList stack ++ [list.opening]) = front.map render ∧
      (∀ ps ∈ front, ∀ p ∈ ps, p.Plain) ∧
      ∀ rest, nest stack.toList (front.flatten ++ rest) = nest [list] rest := by
  by_cases hsame : stack = some list
  · rw [if_pos hsame, hsame]
    exact ⟨[], rfl, fun ps hps => absurd hps List.not_mem_nil, fun rest => rfl⟩
  · rw [if_neg hsame]
    refine ⟨closePieces stack ++ [[Piece.opening list]], ?_, ?_, ?_⟩
    · rw [closeList_eq, List.map_append]
      change _ = _ ++ [list.opening ++ []]
      rw [List.append_nil]
    · intro qs hqs
      obtain hqs | hqs := List.mem_append.mp hqs
      · exact plain_closePieces stack qs hqs
      · intro p hp
        rw [List.mem_singleton.mp hqs] at hp
        rw [List.mem_singleton.mp hp]
        trivial
    · intro rest
      have hne : list ≠ .li := by
        obtain rfl | rfl := hlist
        · decide
        · decide
      rw [List.flatten_append, List.append_assoc, nest_closePieces]
      exact nest_opening hne [] rest

/-- An item lies directly in its list. -/
lemma nest_item {list : Tag} (hlist : list = .ul ∨ list = .ol) (ps rest : List Piece) :
    nest [list] (Tag.li.wrapPieces ps ++ rest) = nest [.li, list] (ps ++ .closing .li :: rest) := by
  have hstep : Piece.step [list] (.opening .li) = some [.li, list] := by
    obtain rfl | rfl := hlist
    · rfl
    · rfl
  unfold Tag.wrapPieces
  rw [List.append_assoc, List.cons_append, nest, hstep]
  rfl

lemma plain_item {ps : List Piece} (hps : ∀ p ∈ ps, p.Inline) :
    ∀ p ∈ Tag.li.wrapPieces ps, p.Plain := by
  intro p hp
  unfold Tag.wrapPieces at hp
  rw [List.cons_append, List.mem_cons, List.mem_append, List.mem_singleton] at hp
  obtain rfl | hp | rfl := hp
  · trivial
  · exact plain_of_inline hps p hp
  · trivial

/-- The lines are rendered as pieces, and these are nested just if those of each line are. -/
lemma noteLines_nested {oks : List Prop} {lines : List Text} (hlines : List.Forall₂ RendersLine oks lines)
    {stack : Option Tag} (hstack : ListStack stack) :
    ∃ outs : List (List Piece), noteLines isDigit stack lines = outs.map render ∧
      (∀ ps ∈ outs, ∀ p ∈ ps, p.Plain) ∧
      ((∀ ok ∈ oks, ok) → nest stack.toList outs.flatten = some []) ∧
      ((∃ ok ∈ oks, ¬ok) → nest stack.toList outs.flatten = none) := by
  induction hlines generalizing stack with
  | nil =>
    refine ⟨closePieces stack, closeList_eq stack, plain_closePieces stack, ?_, ?_⟩
    · intro _
      have hclosed := nest_closePieces stack []
      rwa [List.append_nil] at hclosed
    · rintro ⟨ok, hok, -⟩
      cases hok
  | @cons ok line oks lines hline _ ih =>
    obtain ⟨ps, hps, rfl, hok, hbad⟩ := hline
    obtain ⟨ps', hps', hstrip, hnest⟩ := strip_render ps hps
    simp only [List.forall_mem_cons, List.exists_mem_cons_iff]
    rw [noteLines, hstrip]
    rw [← hnest] at hok hbad
    cases hitem : listItem isDigit (render ps') with
    | none =>
      obtain ⟨ps'', hps'', hspaces, hnest''⟩ := nbspSpaces_render ps' hps'
      obtain ⟨outs, houts, hplain, hall, hsome⟩ := @ih none (fun t ht => by cases ht)
      rw [← hnest''] at hok hbad
      obtain ⟨hgood, hnone⟩ := @nest_line ps'' hps'' [] (by simp) ok hok hbad outs.flatten
      refine ⟨closePieces stack ++ ps'' :: outs, ?_, ?_, ?_, ?_⟩
      · dsimp only
        rw [houts, closeList_eq, hspaces, List.map_append, List.map_cons]
      · intro qs hqs
        rw [List.mem_append, List.mem_cons] at hqs
        obtain hqs | rfl | hqs := hqs
        · exact plain_closePieces stack qs hqs
        · exact plain_of_inline hps''
        · exact hplain qs hqs
      · rintro ⟨hfirst, hothers⟩
        rw [List.flatten_append, List.flatten_cons, nest_closePieces, hgood hfirst]
        exact hall hothers
      · intro hbadLine
        rw [List.flatten_append, List.flatten_cons, nest_closePieces]
        by_cases hfirst : ok
        · rw [hgood hfirst]
          exact hsome (hbadLine.resolve_left (not_not.mpr hfirst))
        · exact hnone hfirst
    | some found =>
      obtain ⟨list, item⟩ := found
      obtain ⟨hlist, ps'', hps'', rfl, hnest''⟩ := listItem_render hps' hitem
      have hnext : ListStack (some list) := by
        intro t ht
        obtain rfl := Option.some.inj ht
        exact hlist
      obtain ⟨outs, houts, hplain, hall, hsome⟩ := @ih (some list) hnext
      rw [← hnest''] at hok hbad
      have hli : [Tag.li, list].head? ≠ some .strong ∧ [Tag.li, list].head? ≠ some .em := by
        constructor
        · intro h
          cases h
        · intro h
          cases h
      obtain ⟨hgood, hnone⟩ := nest_line hps'' hli hok hbad (.closing .li :: outs.flatten)
      obtain ⟨front, hfront, hfrontPlain, hfrontNest⟩ := openList_nested hlist stack
      refine ⟨front ++ Tag.li.wrapPieces ps'' :: outs, ?_, ?_, ?_, ?_⟩
      · dsimp only
        rw [hfront, houts, wrap_render, List.map_append, List.map_cons]
      · intro qs hqs
        rw [List.mem_append, List.mem_cons] at hqs
        obtain hqs | rfl | hqs := hqs
        · exact hfrontPlain qs hqs
        · exact plain_item hps''
        · exact hplain qs hqs
      · rintro ⟨hfirst, hothers⟩
        rw [List.flatten_append, List.flatten_cons, hfrontNest, nest_item hlist, hgood hfirst, nest_closing]
        exact hall hothers
      · intro hbadLine
        rw [List.flatten_append, List.flatten_cons, hfrontNest, nest_item hlist]
        by_cases hfirst : ok
        · rw [hgood hfirst, nest_closing]
          exact hsome (hbadLine.resolve_left (not_not.mpr hfirst))
        · exact hnone hfirst

/-- Line breaks between the parts do not matter. -/
lemma nest_lineBreaks (stack : List Tag) (outs : List (List Piece)) :
    nest stack ([.lineBreak].intercalate outs) = nest stack outs.flatten := by
  induction outs generalizing stack with
  | nil => rfl
  | cons ps outs ih =>
    cases outs with
    | nil =>
      rw [List.intercalate_singleton, List.flatten_cons, List.flatten_nil, List.append_nil]
    | cons qs outs =>
      rw [List.intercalate_cons_cons, List.flatten_cons, List.append_assoc, List.singleton_append, nest_append,
        nest_append]
      congr 1
      funext stack'
      rw [nest_lineBreak, ih]

lemma intercalate_render (outs : List (List Piece)) :
    "<br>".toList.intercalate (outs.map render) = render ([.lineBreak].intercalate outs) := by
  induction outs with
  | nil => rfl
  | cons ps outs ih =>
    cases outs with
    | nil => rw [List.map_singleton, List.intercalate_singleton, List.intercalate_singleton]
    | cons qs outs =>
      rw [List.map_cons] at ih ⊢
      rw [List.map_cons, List.intercalate_cons_cons, ih, List.intercalate_cons_cons, render_append, render_append]
      rfl

/-- The marks of each line are replaced on their own. -/
lemma splitOn_marks (text : Text) : (emMarks (strongMarks (htmlEscape text))).splitOn '\n' =
    (text.splitOn '\n').map (fun line => emMarks (strongMarks (htmlEscape line))) := by
  have hclean : ∀ line : Text, '\n' ∉ line → '\n' ∉ emMarks (strongMarks (htmlEscape line)) := by
    intro line hline
    have hescape : '\n' ∉ htmlEscape line := by
      intro hmem
      rw [htmlEscape_eq] at hmem
      obtain ⟨p, hp, hcode⟩ := List.mem_flatMap.mp hmem
      by_cases hbreak : p = .char '\n'
      · rw [hbreak] at hp
        obtain ⟨c, hc, heq⟩ := List.mem_map.mp hp
        split_ifs at heq
        obtain rfl : c = '\n' := Piece.char.inj heq
        exact hline hc
      · exact markCode.stop_notMem p hbreak hcode
    have hwrap : ∀ t : Tag, ∀ passage, ∀ x ∈ t.wrap passage, x ∈ passage ∨ x ≠ '\n' := by
      intro t passage x hx
      have htag : '\n' ∉ t.opening ∧ '\n' ∉ t.closing := by
        cases t <;> decide
      unfold Tag.wrap at hx
      rw [List.mem_append, List.mem_append] at hx
      obtain (hx | hx) | hx := hx
      · exact .inr (fun heq => htag.1 (heq ▸ hx))
      · exact .inl hx
      · exact .inr (fun heq => htag.2 (heq ▸ hx))
    intro hmem
    obtain hmem | hne := mem_lazyReplace (hwrap .em) hmem
    · obtain hmem | hne := mem_lazyReplace (hwrap .strong) hmem
      · exact hescape hmem
      · exact hne rfl
    · exact hne rfl
  have happend : ∀ a b : Text, emMarks (strongMarks (htmlEscape (a ++ '\n' :: b))) =
      emMarks (strongMarks (htmlEscape a)) ++ '\n' :: emMarks (strongMarks (htmlEscape b)) := by
    intro a b
    have hescape : htmlEscape (a ++ '\n' :: b) = htmlEscape a ++ '\n' :: htmlEscape b := by
      unfold htmlEscape
      rw [List.flatMap_append, List.flatMap_cons]
      rfl
    unfold emMarks strongMarks
    rw [hescape, lazyReplace_line (by decide) (by decide), lazyReplace_line (by decide) (by decide)]
  induction hn : text.length using Nat.strong_induction_on generalizing text with
  | _ n ih =>
    by_cases hbreak : '\n' ∈ text
    · obtain ⟨a, b, rfl, ha⟩ := List.eq_append_cons_of_mem hbreak
      rw [List.length_append, List.length_cons] at hn
      rw [happend, List.splitOn_append_cons_self, List.splitOn_append_cons_self, List.map_append,
        List.splitOn_eq_singleton (hclean a ha), List.splitOn_eq_singleton ha, ih b.length (by omega) b rfl]
      rfl
    · rw [List.splitOn_eq_singleton (hclean text hbreak), List.splitOn_eq_singleton hbreak]
      rfl

/-- The notes are rendered safely just if no emphasised passage crosses a strong one. -/
theorem safeHtml_formatNotes_iff (text : Text) :
    SafeHtml (formatNotes isDigit text) ↔ ∀ line ∈ text.splitOn '\n', ¬Crosses line := by
  have hlines : List.Forall₂ RendersLine ((text.splitOn '\n').map (fun line => ¬Crosses line))
      ((text.splitOn '\n').map (fun line => emMarks (strongMarks (htmlEscape line)))) := by
    rw [List.forall₂_map_left_iff, List.forall₂_map_right_iff, List.forall₂_same]
    exact fun line _ => rendersLine_marks line
  obtain ⟨outs, houts, hplain, hall, hsome⟩ :=
    @noteLines_nested isDigit _ _ hlines none (fun t ht => nomatch ht)
  have hnil : nest (Option.toList (none : Option Tag)) = nest [] := rfl
  rw [hnil, ← nest_lineBreaks, List.forall_mem_map] at hall
  rw [hnil, ← nest_lineBreaks] at hsome
  have hflat : ∀ p ∈ [Piece.lineBreak].intercalate outs, p.Plain := by
    clear houts hall hsome hlines
    induction outs with
    | nil => exact fun p hp => absurd hp List.not_mem_nil
    | cons ps outs ih =>
      rw [List.forall_mem_cons] at hplain
      cases outs with
      | nil =>
        rw [List.intercalate_singleton]
        exact hplain.1
      | cons qs outs =>
        intro p hp
        rw [List.intercalate_cons_cons, List.mem_append, List.mem_append, List.mem_singleton] at hp
        obtain (hp | rfl) | hp := hp
        · exact hplain.1 p hp
        · trivial
        · exact ih hplain.2 p hp
  by_cases hempty : text = []
  · -- the empty text is returned as it is, and has no mark
    subst hempty
    constructor
    · rintro - line hline ⟨passage, hpassage, -⟩
      rw [List.splitOn_nil, List.mem_singleton] at hline
      rw [hline] at hpassage
      cases hpassage
    · exact fun _ => ⟨[], fun p hp => absurd hp List.not_mem_nil, rfl, rfl⟩
  · have hout : formatNotes isDigit text = render ([.lineBreak].intercalate outs) := by
      unfold formatNotes
      rw [if_neg hempty, splitOn_marks, houts, intercalate_render]
    rw [hout]
    constructor
    · rintro ⟨ps, hps, hsame, hnest⟩ line hline hcross
      rw [← render_injective hflat hps hsame, hsome ⟨¬Crosses line, List.mem_map_of_mem hline,
        not_not.mpr hcross⟩] at hnest
      cases hnest
    · exact fun hlines => ⟨_, hflat, rfl, hall hlines⟩

/-- Three stars on both sides: the tags are written crosswise. -/
theorem three_stars_cross :
    formatNotes (fun c => c.isDigit) "***a***".toList = "<strong><em>a</strong></em>".toList ∧
      ¬SafeHtml (formatNotes (fun c => c.isDigit) "***a***".toList) := by
  have hout : formatNotes (fun c => c.isDigit) "***a***".toList = "<strong><em>a</strong></em>".toList := by
    decide
  refine ⟨hout, ?_⟩
  rw [hout]
  rintro ⟨ps, hps, hsame, hnest⟩
  have hpieces : "<strong><em>a</strong></em>".toList =
      render [.opening .strong, .opening .em, .char 'a', .closing .strong, .closing .em] := by
    decide
  rw [hpieces] at hsame
  have hplain : ∀ p ∈ [Piece.opening .strong, .opening .em, .char 'a', .closing .strong, .closing .em],
      p.Plain := by
    intro p hp
    simp only [List.mem_cons, List.not_mem_nil, or_false] at hp
    obtain rfl | rfl | rfl | rfl | rfl := hp
    · trivial
    · trivial
    · change 'a' ∉ specials
      decide
    · trivial
    · trivial
  rw [← render_injective hplain hps hsame] at hnest
  cases hnest

end IpDocket.Billing.Notes
