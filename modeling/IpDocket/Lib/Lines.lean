import IpDocket.Lib.Text
import IpDocket.Lib.Keyed

/-!
# Lines of a text

Lines that are not empty and hold no line break are read back from the text they are joined to.
-/

namespace IpDocket.Lib

lemma isLineBreak_of_mem_splitLinesFrom {afterReturn : Bool} {t line : Text}
    (h : line ∈ splitLinesFrom afterReturn t) : ∀ c ∈ line, isLineBreak c = false := by
  induction t generalizing afterReturn line with
  | nil => cases h
  | cons c t ih =>
    unfold splitLinesFrom at h
    split at h
    · exact ih h
    · split at h
      · obtain rfl | h := List.mem_cons.mp h
        · intro c hc
          cases hc
        · exact ih h
      · next hbreak =>
        have hfirst : isLineBreak c = false := by simpa using hbreak
        split at h
        · rw [List.mem_singleton.mp h]
          intro d hd
          rw [List.mem_singleton.mp hd]
          exact hfirst
        · next first rest heq =>
          obtain rfl | h := List.mem_cons.mp h
          · intro d hd
            obtain rfl | hd := List.mem_cons.mp hd
            · exact hfirst
            · exact ih (heq ▸ List.mem_cons_self) d hd
          · exact ih (heq ▸ List.mem_cons_of_mem first h)

lemma splitLinesFrom_line {line t : Text} (hline : ∀ c ∈ line, isLineBreak c = false) :
    splitLinesFrom false (line ++ '\n' :: t) = line :: splitLinesFrom false t := by
  induction line with
  | nil => rfl
  | cons c line ih =>
    have hc := hline c List.mem_cons_self
    have hrest := ih (fun d hd => hline d (List.mem_cons_of_mem c hd))
    rw [List.cons_append, splitLinesFrom, if_neg (by simp), if_neg (by simp [hc]), hrest]

lemma splitLinesFrom_last {line : Text} (hline : ∀ c ∈ line, isLineBreak c = false)
    (hne : line ≠ []) : splitLinesFrom false line = [line] := by
  induction line with
  | nil => exact absurd rfl hne
  | cons c line ih =>
    have hc := hline c List.mem_cons_self
    rw [splitLinesFrom, if_neg (by simp), if_neg (by simp [hc])]
    cases line with
    | nil => rfl
    | cons d line =>
      rw [ih (fun e he => hline e (List.mem_cons_of_mem c he)) (List.cons_ne_nil d line)]

lemma splitLines_joinLines {lines : List Text} (hne : ∀ line ∈ lines, line ≠ [])
    (hbreak : ∀ line ∈ lines, ∀ c ∈ line, isLineBreak c = false) :
    splitLines (joinLines lines) = lines := by
  unfold splitLines
  induction lines with
  | nil => rfl
  | cons line lines ih =>
    have hline := hbreak line List.mem_cons_self
    cases lines with
    | nil =>
      have hjoin : joinLines [line] = line := by simp [joinLines]
      rw [hjoin, splitLinesFrom_last hline (hne line List.mem_cons_self)]
    | cons next lines =>
      have hjoin : joinLines (line :: next :: lines) = line ++ '\n' :: joinLines (next :: lines) := by
        simp [joinLines]
      rw [hjoin, splitLinesFrom_line hline,
        ih (fun l hl => hne l (List.mem_cons_of_mem line hl))
          (fun l hl => hbreak l (List.mem_cons_of_mem line hl))]

lemma pyStrip_sublist (t : Text) : (pyStrip t).Sublist t := by
  have hend := List.reverse_sublist.mpr
    (List.dropWhile_sublist (l := (t.dropWhile pyIsSpace).reverse) pyIsSpace)
  rw [List.reverse_reverse] at hend
  exact hend.trans (List.dropWhile_sublist pyIsSpace)

/-- Rows with distinct keys are all kept. -/
lemma foldl_keepFirst_of_pairwise {ρ κ : Type*} [DecidableEq κ] {key : ρ → κ} {rows kept : List ρ}
    (h : (kept ++ rows).Pairwise (fun r q => key r ≠ key q)) :
    rows.foldl (keepFirst key) kept = kept ++ rows := by
  induction rows generalizing kept with
  | nil => rw [List.foldl_nil, List.append_nil]
  | cons r rows ih =>
    have hnew : keepFirst key kept r = kept ++ [r] := by
      unfold keepFirst
      rw [if_neg]
      intro hany
      obtain ⟨q, hq, heq⟩ := List.any_eq_true.mp hany
      exact (List.pairwise_append.mp h).2.2 q hq r List.mem_cons_self (of_decide_eq_true heq)
    have hsplit : kept ++ r :: rows = kept ++ [r] ++ rows := by
      rw [List.append_assoc, List.singleton_append]
    rw [List.foldl_cons, hnew, hsplit]
    exact ih (hsplit ▸ h)

end IpDocket.Lib
