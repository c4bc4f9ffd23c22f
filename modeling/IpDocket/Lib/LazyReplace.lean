import Mathlib.Data.List.Infix
import Mathlib.Order.Basic

/-!
# Lazy replacement

A regular expression of a mark, a lazy passage of at least one element, and the mark again finds the leftmost
shortest passages of a line. Replacing them works on each line alone, and on the codes of a list just as on
the list.
-/

namespace IpDocket.Lib

section Replace

variable {α : Type} [DecidableEq α] (stop : α) (mark : List α)

/-- The shortest passage before the next mark, and what follows this mark. -/
def lazyPassage : List α → Option (List α × List α)
  | [] => none
  | x :: t =>
    if x = stop then none
    else if mark.isPrefixOf t then some ([x], t.drop mark.length)
    else (lazyPassage t).map (fun found => (x :: found.1, found.2))

/-- Each passage between two marks is replaced, together with the marks. -/
def lazyReplaceFrom (wrap : List α → List α) : Nat → List α → List α
  | 0, t => t
  | _, [] => []
  | fuel + 1, x :: t =>
    if mark.isPrefixOf (x :: t) then
      match lazyPassage stop mark ((x :: t).drop mark.length) with
      | some (passage, rest) => wrap passage ++ lazyReplaceFrom wrap fuel rest
      | none => x :: lazyReplaceFrom wrap fuel t
    else x :: lazyReplaceFrom wrap fuel t

def lazyReplace (wrap : List α → List α) (t : List α) : List α := lazyReplaceFrom stop mark wrap t.length t

/-- The passages that are replaced. -/
def lazyPassagesFrom : Nat → List α → List (List α)
  | 0, _ => []
  | _, [] => []
  | fuel + 1, x :: t =>
    if mark.isPrefixOf (x :: t) then
      match lazyPassage stop mark ((x :: t).drop mark.length) with
      | some (passage, rest) => passage :: lazyPassagesFrom fuel rest
      | none => lazyPassagesFrom fuel t
    else lazyPassagesFrom fuel t

def lazyPassages (t : List α) : List (List α) := lazyPassagesFrom stop mark t.length t

variable {stop mark}

lemma eq_append_drop {t : List α} (h : mark.isPrefixOf t = true) : t = mark ++ t.drop mark.length := by
  obtain ⟨rest, rfl⟩ := List.isPrefixOf_iff_prefix.mp h
  rw [List.drop_left]

/-- A passage that is found stands before a mark. -/
lemma lazyPassage_eq_some {t passage rest : List α} (h : lazyPassage stop mark t = some (passage, rest)) :
    t = passage ++ mark ++ rest ∧ passage ≠ [] ∧ stop ∉ passage := by
  induction t generalizing passage with
  | nil => cases h
  | cons x t ih =>
    rw [lazyPassage] at h
    split at h
    · cases h
    · next hx =>
      split at h
      · next hmark =>
        obtain ⟨rfl, rfl⟩ := Prod.mk.inj (Option.some.inj h)
        refine ⟨?_, List.cons_ne_nil _ _, ?_⟩
        · conv_lhs => rw [eq_append_drop hmark]
          rfl
        · rw [List.mem_singleton]
          exact Ne.symm hx
      · obtain ⟨⟨passage', rest'⟩, hfound, heq⟩ := Option.map_eq_some_iff.mp h
        obtain ⟨rfl, rfl⟩ := Prod.mk.inj heq
        obtain ⟨hsplit, -, hstop⟩ := ih hfound
        refine ⟨?_, List.cons_ne_nil _ _, ?_⟩
        · rw [hsplit]
          rfl
        · rw [List.mem_cons, not_or]
          exact ⟨Ne.symm hx, hstop⟩

lemma length_rest_lt {x : α} {t passage rest : List α}
    (h : lazyPassage stop mark ((x :: t).drop mark.length) = some (passage, rest)) :
    rest.length ≤ t.length := by
  obtain ⟨hsplit, hne, -⟩ := lazyPassage_eq_some h
  have hlength := congrArg List.length hsplit
  have hpos := List.length_pos_iff.mpr hne
  rw [List.length_drop, List.length_cons, List.length_append, List.length_append] at hlength
  omega

variable {wrap : List α → List α}

lemma lazyReplaceFrom_of_le {fuel fuel' : Nat} {t : List α} (h : t.length ≤ fuel) (h' : t.length ≤ fuel') :
    lazyReplaceFrom stop mark wrap fuel t = lazyReplaceFrom stop mark wrap fuel' t := by
  induction fuel generalizing fuel' t with
  | zero =>
    obtain rfl := List.eq_nil_of_length_eq_zero (Nat.le_zero.mp h)
    cases fuel' <;> rfl
  | succ fuel ih =>
    cases t with
    | nil => cases fuel' <;> rfl
    | cons x t =>
      cases fuel' with
      | zero => cases h'
      | succ fuel' =>
        rw [List.length_cons, Nat.succ_le_succ_iff] at h h'
        have htail := ih h h'
        rw [lazyReplaceFrom, lazyReplaceFrom]
        split
        · cases hfound : lazyPassage stop mark ((x :: t).drop mark.length) with
          | none => exact congrArg _ htail
          | some found =>
            obtain ⟨passage, rest⟩ := found
            have hrest := length_rest_lt hfound
            exact congrArg _ (ih (hrest.trans h) (hrest.trans h'))
        · exact congrArg _ htail

lemma lazyPassagesFrom_of_le {fuel fuel' : Nat} {t : List α} (h : t.length ≤ fuel) (h' : t.length ≤ fuel') :
    lazyPassagesFrom stop mark fuel t = lazyPassagesFrom stop mark fuel' t := by
  induction fuel generalizing fuel' t with
  | zero =>
    obtain rfl := List.eq_nil_of_length_eq_zero (Nat.le_zero.mp h)
    cases fuel' <;> rfl
  | succ fuel ih =>
    cases t with
    | nil => cases fuel' <;> rfl
    | cons x t =>
      cases fuel' with
      | zero => cases h'
      | succ fuel' =>
        rw [List.length_cons, Nat.succ_le_succ_iff] at h h'
        have htail := ih h h'
        rw [lazyPassagesFrom, lazyPassagesFrom]
        split
        · cases hfound : lazyPassage stop mark ((x :: t).drop mark.length) with
          | none => exact htail
          | some found =>
            obtain ⟨passage, rest⟩ := found
            have hrest := length_rest_lt hfound
            exact congrArg _ (ih (hrest.trans h) (hrest.trans h'))
        · exact htail

lemma lazyReplace_found {x : α} {t passage rest : List α} (hmark : mark.isPrefixOf (x :: t) = true)
    (h : lazyPassage stop mark ((x :: t).drop mark.length) = some (passage, rest)) :
    lazyReplace stop mark wrap (x :: t) = wrap passage ++ lazyReplace stop mark wrap rest := by
  unfold lazyReplace
  rw [List.length_cons, lazyReplaceFrom, if_pos hmark, h]
  exact congrArg _ (lazyReplaceFrom_of_le (length_rest_lt h) le_rfl)

lemma lazyReplace_skip {x : α} {t : List α} (h : mark.isPrefixOf (x :: t) = true →
    lazyPassage stop mark ((x :: t).drop mark.length) = none) :
    lazyReplace stop mark wrap (x :: t) = x :: lazyReplace stop mark wrap t := by
  unfold lazyReplace
  rw [List.length_cons, lazyReplaceFrom]
  split
  · next hmark => rw [h hmark]
  · rfl

lemma lazyPassages_found {x : α} {t passage rest : List α} (hmark : mark.isPrefixOf (x :: t) = true)
    (h : lazyPassage stop mark ((x :: t).drop mark.length) = some (passage, rest)) :
    lazyPassages stop mark (x :: t) = passage :: lazyPassages stop mark rest := by
  unfold lazyPassages
  rw [List.length_cons, lazyPassagesFrom, if_pos hmark, h]
  exact congrArg _ (lazyPassagesFrom_of_le (length_rest_lt h) le_rfl)

lemma lazyPassages_skip {x : α} {t : List α} (h : mark.isPrefixOf (x :: t) = true →
    lazyPassage stop mark ((x :: t).drop mark.length) = none) :
    lazyPassages stop mark (x :: t) = lazyPassages stop mark t := by
  unfold lazyPassages
  rw [List.length_cons, lazyPassagesFrom]
  split
  · next hmark => rw [h hmark]
  · rfl

/-- Either the first element begins a passage that is replaced, or it is left. -/
lemma lazy_cases (x : α) (t : List α) :
    (∃ passage rest, mark.isPrefixOf (x :: t) = true ∧
      lazyPassage stop mark ((x :: t).drop mark.length) = some (passage, rest)) ∨
    (mark.isPrefixOf (x :: t) = true → lazyPassage stop mark ((x :: t).drop mark.length) = none) := by
  cases hfound : lazyPassage stop mark ((x :: t).drop mark.length) with
  | none => exact .inr (fun _ => rfl)
  | some found =>
    by_cases hmark : mark.isPrefixOf (x :: t) = true
    · exact .inl ⟨found.1, found.2, hmark, rfl⟩
    · exact .inr (fun h => absurd h hmark)

/-- What is there afterwards was there or is written around a passage. -/
lemma mem_lazyReplace {written : α → Prop} (hwrap : ∀ passage, ∀ x ∈ wrap passage, x ∈ passage ∨ written x)
    {t : List α} {x : α} (hx : x ∈ lazyReplace stop mark wrap t) : x ∈ t ∨ written x := by
  induction hn : t.length using Nat.strong_induction_on generalizing t with
  | _ n ih =>
    cases t with
    | nil => exact .inl hx
    | cons y t =>
      rw [List.length_cons] at hn
      obtain ⟨passage, rest, hy, hfound⟩ | hskip := @lazy_cases _ _ stop mark y t
      · obtain ⟨hsplit, -, -⟩ := lazyPassage_eq_some hfound
        have hrest := length_rest_lt hfound
        have hmem : ∀ z, z ∈ passage ∨ z ∈ rest → z ∈ y :: t := by
          intro z hz
          have hdrop : z ∈ (y :: t).drop mark.length := by
            rw [hsplit, List.mem_append, List.mem_append]
            exact hz.imp_left .inl
          exact List.mem_of_mem_drop hdrop
        rw [lazyReplace_found hy hfound, List.mem_append] at hx
        obtain hx | hx := hx
        · exact (hwrap passage x hx).imp_left (fun h => hmem x (.inl h))
        · exact (ih rest.length (by omega) hx rfl).imp_left (fun h => hmem x (.inr h))
      · rw [lazyReplace_skip hskip, List.mem_cons] at hx
        obtain rfl | hx := hx
        · exact .inl List.mem_cons_self
        · exact (ih t.length (by omega) hx rfl).imp_left (List.mem_cons_of_mem y)

lemma isPrefixOf_line (hmark : stop ∉ mark) (a b : List α) :
    mark.isPrefixOf (a ++ stop :: b) = mark.isPrefixOf a := by
  induction mark generalizing a with
  | nil => cases a <;> rfl
  | cons m mark ih =>
    rw [List.mem_cons, not_or] at hmark
    cases a with
    | nil =>
      have hne : (m == stop) = false := by simpa using Ne.symm hmark.1
      have hfirst : (m :: mark).isPrefixOf (stop :: b) = (m == stop && mark.isPrefixOf b) := rfl
      rw [List.nil_append, hfirst, hne]
      rfl
    | cons y a => rw [List.cons_append, List.isPrefixOf, List.isPrefixOf, ih hmark.2]

lemma lazyPassage_line (hmark : stop ∉ mark) {a : List α} (b : List α) :
    lazyPassage stop mark (a ++ stop :: b) =
      (lazyPassage stop mark a).map (fun found => (found.1, found.2 ++ stop :: b)) := by
  induction a with
  | nil => simp [lazyPassage]
  | cons x a ih =>
    rw [List.cons_append, lazyPassage, lazyPassage, isPrefixOf_line hmark, ih]
    split
    · rfl
    · split
      · next hstarts =>
        have hlength : mark.length ≤ a.length := (List.isPrefixOf_iff_prefix.mp hstarts).length_le
        rw [List.drop_append_of_le_length hlength]
        rfl
      · rw [Option.map_map, Option.map_map]
        rfl

/-- What is replaced in a line does not depend on the next lines. -/
lemma lazyReplace_line (hmark : stop ∉ mark) (hne : mark ≠ []) (a b : List α) :
    lazyReplace stop mark wrap (a ++ stop :: b) =
      lazyReplace stop mark wrap a ++ stop :: lazyReplace stop mark wrap b := by
  induction hn : a.length using Nat.strong_induction_on generalizing a with
  | _ n ih =>
    cases a with
    | nil =>
      obtain ⟨m, mark', rfl⟩ := List.exists_cons_of_ne_nil hne
      have hfirst : m ≠ stop := fun heq => hmark (heq ▸ List.mem_cons_self)
      apply lazyReplace_skip
      intro hstarts
      simp [List.isPrefixOf, hfirst] at hstarts
    | cons x a =>
      have hstarts := isPrefixOf_line hmark (x :: a) b
      rw [List.cons_append] at hstarts ⊢
      have hdrop : mark.isPrefixOf (x :: a) = true →
          (x :: (a ++ stop :: b)).drop mark.length = (x :: a).drop mark.length ++ stop :: b := by
        intro h
        rw [← List.cons_append, List.drop_append_of_le_length (List.isPrefixOf_iff_prefix.mp h).length_le]
      obtain ⟨passage, rest, hx, hfound⟩ | hskip := @lazy_cases _ _ stop mark x a
      · have hfound' : lazyPassage stop mark ((x :: (a ++ stop :: b)).drop mark.length) =
            some (passage, rest ++ stop :: b) := by
          rw [hdrop hx, lazyPassage_line hmark, hfound]
          rfl
        have hrest := length_rest_lt hfound
        rw [List.length_cons] at hn
        rw [lazyReplace_found (hstarts.trans hx) hfound', lazyReplace_found hx hfound,
          ih rest.length (by omega) rest rfl, List.append_assoc]
      · have hskip' : mark.isPrefixOf (x :: (a ++ stop :: b)) = true →
            lazyPassage stop mark ((x :: (a ++ stop :: b)).drop mark.length) = none := by
          intro h
          rw [hstarts] at h
          rw [hdrop h, lazyPassage_line hmark, hskip h]
          rfl
        rw [List.length_cons] at hn
        rw [lazyReplace_skip hskip', lazyReplace_skip hskip, ih a.length (by omega) a rfl, List.cons_append]

end Replace

/-! ### Codes -/

section Codes

variable {α β : Type} [DecidableEq α] [DecidableEq β]

/-- Codes in which the letters of the mark and of the line end stand for themselves only. -/
structure MarkCode (code : β → List α) (letter stop : α) (Letter Stop : β) : Prop where
  code_letter : code Letter = [letter]
  code_stop : code Stop = [stop]
  ne : letter ≠ stop
  nonempty : ∀ p, code p ≠ []
  letter_notMem : ∀ p, p ≠ Letter → letter ∉ code p
  stop_notMem : ∀ p, p ≠ Stop → stop ∉ code p

variable {code : β → List α} {letter stop : α} {Letter Stop : β} {n : Nat}

lemma isPrefixOf_flatMap (h : MarkCode code letter stop Letter Stop) (n : Nat) (ps : List β) :
    (List.replicate n letter).isPrefixOf (ps.flatMap code) = (List.replicate n Letter).isPrefixOf ps := by
  induction n generalizing ps with
  | zero => simp
  | succ n ih =>
    cases ps with
    | nil => rfl
    | cons p ps =>
      rw [List.replicate_succ, List.replicate_succ, List.flatMap_cons]
      by_cases hp : p = Letter
      · rw [hp, h.code_letter, List.singleton_append, List.isPrefixOf_cons_cons_self, List.isPrefixOf_cons_cons_self, ih]
      · obtain ⟨d, w, hcode⟩ := List.exists_cons_of_ne_nil (h.nonempty p)
        have hd : (letter == d) = false := by
          have hnot := h.letter_notMem p hp
          rw [hcode, List.mem_cons, not_or] at hnot
          simpa using hnot.1
        have hp' : (Letter == p) = false := by simpa using Ne.symm hp
        rw [hcode, List.cons_append, List.isPrefixOf, List.isPrefixOf, hd, hp']
        rfl

omit [DecidableEq α] in
lemma drop_flatMap (h : MarkCode code letter stop Letter Stop) {ps : List β}
    (hps : (List.replicate n Letter).isPrefixOf ps = true) :
    (ps.flatMap code).drop n = (ps.drop n).flatMap code := by
  obtain ⟨rest, rfl⟩ := List.isPrefixOf_iff_prefix.mp hps
  have hmark : (List.replicate n Letter).flatMap code = List.replicate n letter := by
    clear hps
    induction n with
    | zero => rfl
    | succ n ih =>
      rw [List.replicate_succ, List.flatMap_cons, ih, h.code_letter, List.singleton_append, List.replicate_succ]
  have hleft : ∀ {γ : Type} (x : γ) (l : List γ), (List.replicate n x ++ l).drop n = l := by
    intro γ x l
    rw [List.drop_append_of_le_length (by simp), List.drop_of_length_le (by simp), List.nil_append]
  rw [List.flatMap_append, hmark, hleft, hleft]

lemma lazyPassage_code (hn : 0 < n) {c : α} {w t : List α} (hc : c ≠ stop) (hw : letter ∉ w)
    (hstop : stop ∉ w) :
    lazyPassage stop (List.replicate n letter) (c :: w ++ t) =
      if (List.replicate n letter).isPrefixOf t then some (c :: w, t.drop n)
      else (lazyPassage stop (List.replicate n letter) t).map (fun found => (c :: w ++ found.1, found.2)) := by
  induction w generalizing c with
  | nil =>
    rw [List.cons_append, List.nil_append, lazyPassage, if_neg hc, List.length_replicate]
    rfl
  | cons d w ih =>
    rw [List.mem_cons, not_or] at hw hstop
    have hnot : (List.replicate n letter).isPrefixOf (d :: w ++ t) = false := by
      obtain ⟨m, rfl⟩ := Nat.exists_eq_succ_of_ne_zero hn.ne'
      have hd : (letter == d) = false := by simpa using hw.1
      rw [List.replicate_succ, List.cons_append, List.isPrefixOf, hd]
      rfl
    rw [List.cons_append, lazyPassage, if_neg hc, hnot, if_neg Bool.false_ne_true,
      ih (Ne.symm hstop.1) hw.2 hstop.2]
    split
    · rfl
    · rw [Option.map_map]
      rfl

lemma lazyPassage_flatMap (h : MarkCode code letter stop Letter Stop) (hn : 0 < n) (ps : List β) :
    lazyPassage stop (List.replicate n letter) (ps.flatMap code) =
      (lazyPassage Stop (List.replicate n Letter) ps).map
        (fun found => (found.1.flatMap code, found.2.flatMap code)) := by
  induction ps with
  | nil => rfl
  | cons p ps ih =>
    rw [List.flatMap_cons, lazyPassage]
    by_cases hp : p = Stop
    · rw [hp, h.code_stop, if_pos rfl, List.singleton_append, lazyPassage, if_pos rfl]
      rfl
    · obtain ⟨c, w, hcode⟩ := List.exists_cons_of_ne_nil (h.nonempty p)
      have hstop := h.stop_notMem p hp
      rw [hcode, List.mem_cons, not_or] at hstop
      have hw : letter ∉ w := by
        by_cases hletter : p = Letter
        · rw [hletter, h.code_letter] at hcode
          rw [← (List.cons.inj hcode).2]
          exact List.not_mem_nil
        · have hnot := h.letter_notMem p hletter
          rw [hcode, List.mem_cons, not_or] at hnot
          exact hnot.2
      rw [if_neg hp, hcode, lazyPassage_code hn (Ne.symm hstop.1) hw hstop.2, isPrefixOf_flatMap h, ih]
      split
      · next hstarts =>
        rw [drop_flatMap h hstarts, List.length_replicate]
        simp [hcode]
      · rw [Option.map_map, Option.map_map]
        congr 1
        funext found
        simp [hcode]

lemma lazyReplace_code (hn : 0 < n) {wrap : List α → List α} {w : List α} (hw : letter ∉ w) (t : List α) :
    lazyReplace stop (List.replicate n letter) wrap (w ++ t) =
      w ++ lazyReplace stop (List.replicate n letter) wrap t := by
  induction w with
  | nil => rfl
  | cons d w ih =>
    rw [List.mem_cons, not_or] at hw
    have hskip : (List.replicate n letter).isPrefixOf (d :: (w ++ t)) = true →
        lazyPassage stop (List.replicate n letter)
          ((d :: (w ++ t)).drop (List.replicate n letter).length) = none := by
      intro hstarts
      obtain ⟨m, rfl⟩ := Nat.exists_eq_succ_of_ne_zero hn.ne'
      have hd : (letter == d) = false := by simpa using hw.1
      rw [List.replicate_succ, List.isPrefixOf, hd] at hstarts
      cases hstarts
    rw [List.cons_append, lazyReplace_skip hskip, ih hw.2, List.cons_append]

/-- Replacing in the codes of a list is replacing in the list. -/
lemma lazyReplace_flatMap (h : MarkCode code letter stop Letter Stop) (hn : 0 < n)
    {wrap : List α → List α} {Wrap : List β → List β}
    (hwrap : ∀ ps, wrap (ps.flatMap code) = (Wrap ps).flatMap code) (ps : List β) :
    lazyReplace stop (List.replicate n letter) wrap (ps.flatMap code) =
      (lazyReplace Stop (List.replicate n Letter) Wrap ps).flatMap code := by
  induction hlength : ps.length using Nat.strong_induction_on generalizing ps with
  | _ k ih =>
    cases ps with
    | nil => rfl
    | cons p ps =>
      rw [List.length_cons] at hlength
      have htail := ih ps.length (by omega) ps rfl
      have hstarts := isPrefixOf_flatMap h n (p :: ps)
      by_cases hp : p = Letter
      · have hcode : (p :: ps).flatMap code = letter :: ps.flatMap code := by
          rw [List.flatMap_cons, hp, h.code_letter, List.singleton_append]
        have hdrop : (List.replicate n Letter).isPrefixOf (p :: ps) = true →
            lazyPassage stop (List.replicate n letter)
                ((letter :: ps.flatMap code).drop (List.replicate n letter).length) =
              (lazyPassage Stop (List.replicate n Letter)
                ((p :: ps).drop (List.replicate n Letter).length)).map
                  (fun found => (found.1.flatMap code, found.2.flatMap code)) := by
          intro hps
          rw [← hcode, List.length_replicate, List.length_replicate, drop_flatMap h hps,
            lazyPassage_flatMap h hn]
        rw [hcode] at hstarts ⊢
        obtain ⟨passage, rest, hx, hfound⟩ | hskip :=
          @lazy_cases _ _ Stop (List.replicate n Letter) p ps
        · have hfound' := hdrop hx
          rw [hfound] at hfound'
          have hrest := length_rest_lt hfound
          rw [lazyReplace_found hx hfound, lazyReplace_found (hstarts.trans hx) hfound', hwrap,
            ih rest.length (by omega) rest rfl, List.flatMap_append]
        · have hskip' : (List.replicate n letter).isPrefixOf (letter :: ps.flatMap code) = true →
              lazyPassage stop (List.replicate n letter)
                ((letter :: ps.flatMap code).drop (List.replicate n letter).length) = none := by
            intro hps
            rw [hstarts] at hps
            rw [hdrop hps, hskip hps]
            rfl
          rw [lazyReplace_skip hskip', lazyReplace_skip hskip, htail, List.flatMap_cons, hp, h.code_letter,
            List.singleton_append]
      · have hskip : (List.replicate n Letter).isPrefixOf (p :: ps) = true →
            lazyPassage Stop (List.replicate n Letter)
              ((p :: ps).drop (List.replicate n Letter).length) = none := by
          intro hps
          obtain ⟨m, rfl⟩ := Nat.exists_eq_succ_of_ne_zero hn.ne'
          have hp' : (Letter == p) = false := by simpa using Ne.symm hp
          rw [List.replicate_succ, List.isPrefixOf, hp'] at hps
          cases hps
        rw [List.flatMap_cons, lazyReplace_code hn (h.letter_notMem p hp), htail, lazyReplace_skip hskip,
          List.flatMap_cons]

end Codes
end IpDocket.Lib
