import PeerProbe.Text.Blank

/-!
# Trimming and cutting

Only blanks at the ends of a text are trimmed. The pieces of two texts in a row are those of the
first one, except that its last piece goes on into the second one.
-/

namespace PeerProbe.Text

/-- Blanks around a text that begins and ends with other characters are trimmed. -/
theorem trim_append {before cs behind : List Char} {first last : Char}
    (hbefore : ∀ c ∈ before, isBlank c) (hbehind : ∀ c ∈ behind, isBlank c)
    (hfirst : isBlank first = false) (hlast : isBlank last = false) :
    trim (before ++ (first :: (cs ++ [last]) ++ behind)) = first :: (cs ++ [last]) := by
  have hstart : trimStart (before ++ (first :: (cs ++ [last]) ++ behind)) =
      first :: (cs ++ [last]) ++ behind := by
    rw [trimStart, List.dropWhile_append_of_pos hbefore, List.cons_append,
      List.dropWhile_cons_of_neg (by simp [hfirst])]
  have hreverse : (first :: (cs ++ [last]) ++ behind).reverse =
      behind.reverse ++ last :: (first :: cs).reverse := by simp
  rw [trim, hstart, trimEnd, hreverse,
    List.dropWhile_append_of_pos fun c hc => hbehind c (List.mem_reverse.mp hc),
    List.dropWhile_cons_of_neg (by simp [hlast])]
  simp

variable {α : Type} [DecidableEq α] {sep : α} {xs : List α}

/-- There is always a piece. -/
theorem pieces_ne_nil (sep : α) (xs : List α) : pieces sep xs ≠ [] := by
  cases xs with
  | nil => exact List.cons_ne_nil _ _
  | cons x xs =>
    unfold pieces
    split
    · exact List.cons_ne_nil _ _
    · split <;> exact List.cons_ne_nil _ _

/-- What is no separator belongs to the first piece. -/
theorem pieces_cons_of_ne {x : α} {p : List α} {ps : List (List α)} (hne : x ≠ sep)
    (h : pieces sep xs = p :: ps) : pieces sep (x :: xs) = (x :: p) :: ps := by
  rw [pieces, if_neg hne, h]

/-- The pieces are the parts that the text is split into. -/
theorem pieces_eq_splitOn (sep : α) (xs : List α) : pieces sep xs = xs.splitOn sep := by
  induction xs with
  | nil => rfl
  | cons x xs ih =>
    obtain ⟨p, ps, hpieces⟩ := List.exists_cons_of_ne_nil (pieces_ne_nil sep xs)
    rw [List.splitOn_eq_splitOnP] at ih ⊢
    rw [List.splitOnP_cons_eq_if_modifyHead, ← ih, hpieces]
    by_cases hsep : x = sep
    · rw [pieces, if_pos hsep, if_pos (beq_iff_eq.mpr hsep), hpieces]
    · rw [pieces_cons_of_ne hsep hpieces, if_neg (mt beq_iff_eq.mp hsep)]
      rfl

/-- A text without a separator is one piece. -/
theorem pieces_of_not_mem (h : sep ∉ xs) : pieces sep xs = [xs] := by
  induction xs with
  | nil => rfl
  | cons x xs ih =>
    rw [List.mem_cons, not_or] at h
    exact pieces_cons_of_ne (Ne.symm h.1) (ih h.2)

/-- The first separator ends the first piece. -/
theorem pieces_append_cons (h : sep ∉ xs) (ys : List α) :
    pieces sep (xs ++ sep :: ys) = xs :: pieces sep ys := by
  induction xs with
  | nil => rw [List.nil_append, pieces, if_pos rfl]
  | cons x xs ih =>
    rw [List.mem_cons, not_or] at h
    exact pieces_cons_of_ne (Ne.symm h.1) (ih h.2)

/-- The last piece of a text goes on into what follows it. -/
theorem pieces_append (sep : α) (xs ys : List α) : pieces sep (xs ++ ys) =
    (pieces sep xs).dropLast ++ pieces sep ((pieces sep xs).getLastD [] ++ ys) := by
  induction xs with
  | nil => rfl
  | cons x xs ih =>
    obtain ⟨p, ps, hpieces⟩ := List.exists_cons_of_ne_nil (pieces_ne_nil sep xs)
    rw [hpieces] at ih
    by_cases hsep : x = sep
    · subst hsep
      rw [List.cons_append, pieces, if_pos rfl, ih, pieces, if_pos rfl, hpieces]
      rfl
    · rw [pieces_cons_of_ne hsep hpieces]
      cases ps with
      | nil =>
        have hrest : pieces sep (xs ++ ys) = pieces sep (p ++ ys) := ih
        change pieces sep (x :: (xs ++ ys)) = pieces sep (x :: (p ++ ys))
        rw [pieces, pieces, hrest]
      | cons q ps =>
        exact pieces_cons_of_ne hsep ih

/-- There is no separator in the last piece. -/
theorem not_mem_getLastD_pieces (sep : α) (xs : List α) : sep ∉ (pieces sep xs).getLastD [] := by
  induction xs with
  | nil => exact List.not_mem_nil
  | cons x xs ih =>
    obtain ⟨p, ps, hpieces⟩ := List.exists_cons_of_ne_nil (pieces_ne_nil sep xs)
    rw [hpieces] at ih
    by_cases hsep : x = sep
    · rw [pieces, if_pos hsep, hpieces]
      exact ih
    · rw [pieces_cons_of_ne hsep hpieces]
      cases ps with
      | nil =>
        intro hmem
        exact (List.mem_cons.mp hmem).elim (hsep ·.symm) ih
      | cons q ps => exact ih

end PeerProbe.Text
