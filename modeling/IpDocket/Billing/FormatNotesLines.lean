import IpDocket.Billing.FormatNotes
import IpDocket.Lib.Numerals

/-!
# The tags of a line

A line is read as a list of pieces: characters, character references and tags. The stack of the open tags says
whether the pieces are properly nested. The `<strong>` tags of a line always are; with the `<em>` tags they
are nested just if no emphasised passage reaches into a strong one or out of it.
-/

namespace IpDocket.Billing.Notes
open IpDocket.Lib

inductive Entity
  | amp
  | lt
  | gt
  | quot
  | apos
  | nbsp
  deriving DecidableEq

def Entity.code : Entity → Text
  | .amp => "&amp;".toList
  | .lt => "&lt;".toList
  | .gt => "&gt;".toList
  | .quot => "&quot;".toList
  | .apos => "&#x27;".toList
  | .nbsp => "&nbsp;".toList

inductive Piece
  | char (c : Char)
  | entity (e : Entity)
  | opening (t : Tag)
  | closing (t : Tag)
  | lineBreak
  deriving DecidableEq

def Piece.code : Piece → Text
  | .char c => [c]
  | .entity e => e.code
  | .opening t => t.opening
  | .closing t => t.closing
  | .lineBreak => "<br>".toList

def render (ps : List Piece) : Text := ps.flatMap Piece.code

@[simp] lemma render_nil : render [] = [] := rfl

@[simp] lemma render_cons (p : Piece) (ps : List Piece) : render (p :: ps) = p.code ++ render ps := rfl

@[simp] lemma render_append (ps qs : List Piece) : render (ps ++ qs) = render ps ++ render qs :=
  List.flatMap_append

/-- The characters that HTML text holds as references only. -/
def specials : List Char := ['<', '>', '&', '"', '\'']

/-- A character of escaped text, or a piece that is written as a whole. -/
def Piece.Plain : Piece → Prop
  | .char c => c ∉ specials
  | _ => True

/-- A piece that may stand within a line. -/
def Piece.Inline : Piece → Prop
  | .char c => c ∉ specials
  | .entity _ => True
  | .opening t => t = .strong ∨ t = .em
  | .closing t => t = .strong ∨ t = .em
  | .lineBreak => False

/-- The open tags after a piece, if it may stand there. -/
def Piece.step : List Tag → Piece → Option (List Tag)
  | stack, .opening t =>
    if t = .li ∧ stack.head? ≠ some .ul ∧ stack.head? ≠ some .ol then none else some (t :: stack)
  | [], .closing _ => none
  | t' :: stack, .closing t => if t = t' then some stack else none
  | stack, _ => some stack

/-- The open tags after some pieces, if these are properly nested. -/
def nest : List Tag → List Piece → Option (List Tag)
  | stack, [] => some stack
  | stack, p :: ps => (p.step stack).bind (fun stack => nest stack ps)

@[simp] lemma nest_char (stack : List Tag) (c : Char) (ps : List Piece) :
    nest stack (.char c :: ps) = nest stack ps := by
  cases stack <;> rfl

@[simp] lemma nest_entity (stack : List Tag) (e : Entity) (ps : List Piece) :
    nest stack (.entity e :: ps) = nest stack ps := by
  cases stack <;> rfl

@[simp] lemma nest_lineBreak (stack : List Tag) (ps : List Piece) :
    nest stack (.lineBreak :: ps) = nest stack ps := by
  cases stack <;> rfl

lemma nest_opening {t : Tag} (ht : t ≠ .li) (stack : List Tag) (ps : List Piece) :
    nest stack (.opening t :: ps) = nest (t :: stack) ps := by
  have hstep : Piece.step stack (.opening t) = some (t :: stack) := by
    unfold Piece.step
    exact if_neg (fun h => ht h.1)
  rw [nest, hstep]
  rfl

@[simp] lemma nest_closing (t : Tag) (stack : List Tag) (ps : List Piece) :
    nest (t :: stack) (.closing t :: ps) = nest stack ps := by
  have hstep : Piece.step (t :: stack) (.closing t) = some stack := if_pos rfl
  rw [nest, hstep]
  rfl

lemma nest_closing_ne {t : Tag} {stack : List Tag} (h : stack.head? ≠ some t) (ps : List Piece) :
    nest stack (.closing t :: ps) = none := by
  cases stack with
  | nil => rfl
  | cons t' stack =>
    have hne : t ≠ t' := fun heq => h (heq ▸ rfl)
    have hstep : Piece.step (t' :: stack) (.closing t) = none := if_neg hne
    rw [nest, hstep]
    rfl

lemma nest_append (stack : List Tag) (ps qs : List Piece) :
    nest stack (ps ++ qs) = (nest stack ps).bind (fun stack => nest stack qs) := by
  induction ps generalizing stack with
  | nil => rfl
  | cons p ps ih =>
    rw [List.cons_append, nest, nest, Option.bind_assoc]
    congr 1
    funext stack'
    exact ih stack'

/-- Nested pieces of a line are nested within other tags. -/
lemma nest_frame {ps : List Piece} (hps : ∀ p ∈ ps, p.Inline) {inner inner' : List Tag}
    (h : nest inner ps = some inner') (stack : List Tag) :
    nest (inner ++ stack) ps = some (inner' ++ stack) := by
  induction ps generalizing inner with
  | nil =>
    obtain rfl := Option.some.inj h
    rfl
  | cons p ps ih =>
    rw [List.forall_mem_cons] at hps
    cases p with
    | char c =>
      rw [nest_char] at h ⊢
      exact ih hps.2 h
    | entity e =>
      rw [nest_entity] at h ⊢
      exact ih hps.2 h
    | opening t =>
      have ht : t ≠ .li := by
        rintro rfl
        obtain h | h := hps.1
        · cases h
        · cases h
      rw [nest_opening ht] at h ⊢
      exact ih hps.2 h
    | closing t =>
      cases inner with
      | nil => cases h
      | cons t' inner =>
        by_cases heq : t = t'
        · rw [heq, nest_closing] at h
          rw [heq, List.cons_append, nest_closing]
          exact ih hps.2 h
        · have hhead : (t' :: inner).head? ≠ some t := fun h => heq (Option.some.inj h).symm
          rw [nest_closing_ne hhead] at h
          cases h
    | lineBreak => cases hps.1

/-- Pieces of a line that are not nested in themselves are not nested within tags of the list. -/
lemma nest_none {ps : List Piece} (hps : ∀ p ∈ ps, p.Inline) {inner stack : List Tag}
    (hstack : stack.head? ≠ some .strong ∧ stack.head? ≠ some .em) (h : nest inner ps = none) :
    nest (inner ++ stack) ps = none := by
  induction ps generalizing inner with
  | nil => cases h
  | cons p ps ih =>
    rw [List.forall_mem_cons] at hps
    cases p with
    | char c =>
      rw [nest_char] at h ⊢
      exact ih hps.2 h
    | entity e =>
      rw [nest_entity] at h ⊢
      exact ih hps.2 h
    | opening t =>
      have ht : t ≠ .li := by
        rintro rfl
        obtain h | h := hps.1
        · cases h
        · cases h
      rw [nest_opening ht] at h ⊢
      exact ih hps.2 h
    | closing t =>
      cases inner with
      | nil =>
        obtain rfl | rfl := hps.1
        · exact nest_closing_ne hstack.1 ps
        · exact nest_closing_ne hstack.2 ps
      | cons t' inner =>
        by_cases heq : t = t'
        · rw [heq, nest_closing] at h
          rw [heq, List.cons_append, nest_closing]
          exact ih hps.2 h
        · have hhead : (t' :: (inner ++ stack)).head? ≠ some t := fun h => heq (Option.some.inj h).symm
          exact nest_closing_ne hhead ps
    | lineBreak => cases hps.1

/-- The escaped text as pieces. -/
def escapePieces (t : Text) : List Piece :=
  t.map (fun c =>
    if c = '&' then .entity .amp
    else if c = '<' then .entity .lt
    else if c = '>' then .entity .gt
    else if c = '"' then .entity .quot
    else if c = '\'' then .entity .apos
    else .char c)

def Tag.wrapPieces (t : Tag) (content : List Piece) : List Piece := .opening t :: content ++ [Piece.closing t]

/-- The pieces with the tags of the strong passages. -/
def strongPieces (ps : List Piece) : List Piece :=
  lazyReplace (.char '\n') [.char '*', .char '*'] Tag.strong.wrapPieces ps

def emPieces (ps : List Piece) : List Piece :=
  lazyReplace (.char '\n') [.char '*'] Tag.em.wrapPieces ps

/-- The passages that are emphasised. -/
def emphasised (ps : List Piece) : List (List Piece) := lazyPassages (.char '\n') [.char '*'] ps

lemma htmlEscape_eq (t : Text) : htmlEscape t = render (escapePieces t) := by
  unfold htmlEscape escapePieces render
  rw [List.flatMap_map]
  congr 1
  funext c
  split_ifs <;> rfl

lemma markCode : MarkCode Piece.code '*' '\n' (.char '*') (.char '\n') := by
  have hfixed : ∀ x ∈ ['*', '\n'], (∀ e : Entity, x ∉ e.code) ∧ (∀ t : Tag, x ∉ t.opening) ∧
      (∀ t : Tag, x ∉ t.closing) ∧ x ∉ "<br>".toList := by
    intro x hx
    refine ⟨?_, ?_, ?_, ?_⟩
    · intro e
      cases e <;> revert x <;> decide
    · intro t
      cases t <;> revert x <;> decide
    · intro t
      cases t <;> revert x <;> decide
    · revert x
      decide
  have hnot : ∀ x ∈ ['*', '\n'], ∀ p : Piece, p ≠ .char x → x ∉ p.code := by
    intro x hx p hp
    obtain ⟨hentity, hopening, hclosing, hbreak⟩ := hfixed x hx
    cases p with
    | char c => exact fun hmem => hp (congrArg Piece.char (List.mem_singleton.mp hmem).symm)
    | entity e => exact hentity e
    | opening t => exact hopening t
    | closing t => exact hclosing t
    | lineBreak => exact hbreak
  refine ⟨rfl, rfl, by decide, ?_, hnot '*' (by simp), hnot '\n' (by simp)⟩
  intro p
  cases p with
  | char c => exact List.cons_ne_nil _ _
  | entity e => cases e <;> exact List.cons_ne_nil _ _
  | opening t => cases t <;> exact List.cons_ne_nil _ _
  | closing t => cases t <;> exact List.cons_ne_nil _ _
  | lineBreak => exact List.cons_ne_nil _ _

lemma wrap_render (t : Tag) (ps : List Piece) : t.wrap (render ps) = render (t.wrapPieces ps) := by
  unfold Tag.wrap Tag.wrapPieces
  rw [render_append, render_cons, render_cons, render_nil, List.append_nil]
  rfl

lemma strongMarks_render (ps : List Piece) : strongMarks (render ps) = render (strongPieces ps) :=
  lazyReplace_flatMap markCode (show 0 < 2 by omega) (wrap_render .strong) ps

lemma emMarks_render (ps : List Piece) : emMarks (render ps) = render (emPieces ps) :=
  lazyReplace_flatMap markCode (show 0 < 1 by omega) (wrap_render .em) ps

/-- A piece of escaped text. -/
def Piece.Textual : Piece → Prop
  | .char c => c ∉ specials
  | .entity _ => True
  | _ => False

lemma textual_escapePieces (t : Text) : ∀ p ∈ escapePieces t, p.Textual := by
  intro p hp
  obtain ⟨c, -, rfl⟩ := List.mem_map.mp hp
  split_ifs with hamp hlt hgt hquot hapos
  · trivial
  · trivial
  · trivial
  · trivial
  · trivial
  · change c ∉ specials
    simp [specials, hamp, hlt, hgt, hquot, hapos]

/-- Strong tags in turn, and nothing else than text between them. -/
def Alternates : Bool → List Piece → Prop
  | inside, [] => inside = false
  | inside, .char c :: ps => c ∉ specials ∧ Alternates inside ps
  | inside, .entity _ :: ps => Alternates inside ps
  | inside, .opening t :: ps => inside = false ∧ t = .strong ∧ Alternates true ps
  | inside, .closing t :: ps => inside = true ∧ t = .strong ∧ Alternates false ps
  | _, .lineBreak :: _ => False

lemma alternates_textual {ps : List Piece} (hps : ∀ p ∈ ps, p.Textual) (inside : Bool) (qs : List Piece) :
    Alternates inside (ps ++ qs) ↔ Alternates inside qs := by
  induction ps with
  | nil => rfl
  | cons p ps ih =>
    rw [List.forall_mem_cons] at hps
    cases p with
    | char c => exact (and_iff_right hps.1).trans (ih hps.2)
    | entity e => exact ih hps.2
    | opening t => cases hps.1
    | closing t => cases hps.1
    | lineBreak => cases hps.1

lemma alternates_strongPieces {ps : List Piece} (hps : ∀ p ∈ ps, p.Textual) :
    Alternates false (strongPieces ps) := by
  unfold strongPieces
  induction hn : ps.length using Nat.strong_induction_on generalizing ps with
  | _ n ih =>
    cases ps with
    | nil => exact rfl
    | cons p ps =>
      rw [List.length_cons] at hn
      obtain ⟨passage, rest, hp, hfound⟩ | hskip :=
        @lazy_cases _ _ (Piece.char '\n') [.char '*', .char '*'] p ps
      · obtain ⟨hsplit, -, -⟩ := lazyPassage_eq_some hfound
        have hlength := length_rest_lt hfound
        have hmem : ∀ q, q ∈ passage ∨ q ∈ rest → q.Textual := by
          intro q hq
          have hdrop : q ∈ (p :: ps).drop [Piece.char '*', .char '*'].length := by
            rw [hsplit, List.mem_append, List.mem_append]
            exact hq.imp_left .inl
          exact hps q (List.mem_of_mem_drop hdrop)
        rw [lazyReplace_found hp hfound]
        unfold Tag.wrapPieces
        rw [List.append_assoc, List.cons_append]
        refine ⟨rfl, rfl, ?_⟩
        rw [alternates_textual (fun q hq => hmem q (.inl hq))]
        exact ⟨rfl, rfl, ih rest.length (by omega) (fun q hq => hmem q (.inr hq)) rfl⟩
      · have hrest := ih ps.length (by omega) (fun q hq => hps q (List.mem_cons_of_mem p hq)) rfl
        rw [lazyReplace_skip hskip]
        have hone := @alternates_textual [p] (by simpa using hps p List.mem_cons_self) false
          (lazyReplace (.char '\n') [.char '*', .char '*'] Tag.strong.wrapPieces ps)
        exact hone.mpr hrest

/-! ### Emphasised passages -/

/-- The tags that are open inside of a strong passage. -/
def strongStack (inside : Bool) : List Tag := if inside then [.strong] else []

lemma alternates_inline {inside : Bool} {ps : List Piece} (h : Alternates inside ps) : ∀ p ∈ ps, p.Inline := by
  induction ps generalizing inside with
  | nil => exact fun p hp => absurd hp List.not_mem_nil
  | cons p ps ih =>
    rw [List.forall_mem_cons]
    cases p with
    | char c => exact ⟨h.1, ih h.2⟩
    | entity e => exact ⟨trivial, ih h⟩
    | opening t => exact ⟨.inl h.2.1, ih h.2.2⟩
    | closing t => exact ⟨.inl h.2.1, ih h.2.2⟩
    | lineBreak => cases h

/-- The first part of alternating tags ends inside of a strong passage or outside of all. -/
lemma alternates_append {inside : Bool} {ps qs : List Piece} (h : Alternates inside (ps ++ qs)) :
    ∃ inside', nest (strongStack inside) ps = some (strongStack inside') ∧ Alternates inside' qs := by
  induction ps generalizing inside with
  | nil => exact ⟨inside, rfl, h⟩
  | cons p ps ih =>
    rw [List.cons_append] at h
    cases p with
    | char c =>
      rw [nest_char]
      exact ih h.2
    | entity e =>
      rw [nest_entity]
      exact ih h
    | opening t =>
      obtain ⟨rfl, rfl, hrest⟩ := h
      rw [nest_opening (by decide)]
      exact ih hrest
    | closing t =>
      obtain ⟨rfl, rfl, hrest⟩ := h
      have hstack : strongStack true = [.strong] := rfl
      rw [hstack, nest_closing]
      exact ih hrest
    | lineBreak => cases h

/-- A passage inside of a strong one is closed, or its first tag closes the strong one. -/
lemma nest_em_strong {ps qs : List Piece} (h : Alternates true (ps ++ qs)) (hopen : nest [] ps ≠ some []) :
    nest [.em, .strong] ps = none := by
  induction ps with
  | nil => exact absurd rfl hopen
  | cons p ps ih =>
    rw [List.cons_append] at h
    cases p with
    | char c =>
      rw [nest_char] at hopen ⊢
      exact ih h.2 hopen
    | entity e =>
      rw [nest_entity] at hopen ⊢
      exact ih h hopen
    | opening t => cases h.1
    | closing t =>
      obtain ⟨-, rfl, -⟩ := h
      exact nest_closing_ne (by decide) ps
    | lineBreak => cases h

/-- The tags around a passage fit just if the passage is nested in itself. -/
lemma nest_wrapped {inside inside' : Bool} {passage rest qs : List Piece}
    (halternates : Alternates inside (passage ++ qs))
    (hpassage : nest (strongStack inside) passage = some (strongStack inside')) :
    (nest [] passage = some [] → nest (strongStack inside) (Tag.em.wrapPieces passage ++ rest) =
      nest (strongStack inside') rest) ∧
    (nest [] passage ≠ some [] → nest (strongStack inside) (Tag.em.wrapPieces passage ++ rest) = none) := by
  have hinline : ∀ p ∈ passage, p.Inline :=
    fun p hp => alternates_inline halternates p (List.mem_append_left qs hp)
  have hwrap : nest (strongStack inside) (Tag.em.wrapPieces passage ++ rest) =
      (nest (.em :: strongStack inside) passage).bind (fun stack => nest stack (.closing .em :: rest)) := by
    unfold Tag.wrapPieces
    rw [List.append_assoc, List.cons_append, nest_opening (by decide), nest_append]
    rfl
  constructor
  · intro hclosed
    have hframe : ∀ stack, nest stack passage = some stack := fun stack => nest_frame hinline hclosed stack
    have hsame : strongStack inside' = strongStack inside := by
      rw [hframe] at hpassage
      exact (Option.some.inj hpassage).symm
    rw [hwrap, hframe, Option.bind_some, nest_closing, hsame]
  · intro hopen
    rw [hwrap]
    cases inside with
    | false =>
      have hstrong : strongStack inside' = [.strong] := by
        cases inside' with
        | false => exact absurd hpassage hopen
        | true => rfl
      rw [hstrong] at hpassage
      have hem : nest (.em :: strongStack false) passage = some [.strong, .em] :=
        nest_frame hinline hpassage [.em]
      have hhead : [Tag.strong, Tag.em].head? ≠ some .em := by decide
      rw [hem]
      exact nest_closing_ne hhead rest
    | true =>
      have hnone : nest (.em :: strongStack true) passage = none := nest_em_strong halternates hopen
      rw [hnone]
      rfl

/-- With the tags of the emphasised passages the pieces are nested just if each of these passages is. -/
lemma nest_emPieces {inside : Bool} {ps : List Piece} (h : Alternates inside ps) :
    ((∀ passage ∈ emphasised ps, nest [] passage = some []) →
      nest (strongStack inside) (emPieces ps) = some []) ∧
    ((∃ passage ∈ emphasised ps, nest [] passage ≠ some []) →
      nest (strongStack inside) (emPieces ps) = none) := by
  unfold emphasised emPieces
  induction hn : ps.length using Nat.strong_induction_on generalizing inside ps with
  | _ n ih =>
    cases ps with
    | nil =>
      obtain rfl : inside = false := h
      exact ⟨fun _ => rfl, fun ⟨_, hmem, _⟩ => absurd hmem List.not_mem_nil⟩
    | cons p ps =>
      rw [List.length_cons] at hn
      obtain ⟨passage, rest, hp, hfound⟩ | hskip := @lazy_cases _ _ (Piece.char '\n') [.char '*'] p ps
      · obtain ⟨hsplit, -, -⟩ := lazyPassage_eq_some hfound
        have hlength := length_rest_lt hfound
        have hstar : p = .char '*' := by
          obtain ⟨tail, htail⟩ := List.isPrefixOf_iff_prefix.mp hp
          exact (List.cons.inj htail).1.symm
        subst hstar
        rw [List.length_singleton, List.drop_succ_cons, List.drop_zero, List.append_assoc] at hsplit
        have halternates : Alternates inside (passage ++ ([Piece.char '*'] ++ rest)) := by
          have htail := h.2
          rw [hsplit] at htail
          exact htail
        obtain ⟨inside', hpassage, hrest⟩ := alternates_append halternates
        have hafter : Alternates inside' rest := hrest.2
        obtain ⟨hclosed, hopen⟩ := ih rest.length (by omega) hafter rfl
        obtain ⟨hwrapped, hcrossed⟩ := @nest_wrapped inside inside' passage
          (lazyReplace (.char '\n') [.char '*'] Tag.em.wrapPieces rest) _ halternates hpassage
        rw [lazyReplace_found hp hfound, lazyPassages_found hp hfound]
        simp only [List.forall_mem_cons, List.exists_mem_cons_iff]
        constructor
        · rintro ⟨hfirst, hothers⟩
          rw [hwrapped hfirst, hclosed hothers]
        · rintro (hfirst | hothers)
          · exact hcrossed hfirst
          · by_cases hfirst : nest [] passage = some []
            · rw [hwrapped hfirst, hopen hothers]
            · exact hcrossed hfirst
      · rw [lazyReplace_skip hskip, lazyPassages_skip hskip]
        obtain ⟨inside', hstep, hrest⟩ := @alternates_append inside [p] ps h
        have hnext : ∀ qs, nest (strongStack inside) (p :: qs) = nest (strongStack inside') qs := by
          intro qs
          have happend := nest_append (strongStack inside) [p] qs
          rw [hstep] at happend
          exact happend
        rw [hnext]
        exact ih ps.length (by omega) hrest rfl

end IpDocket.Billing.Notes
