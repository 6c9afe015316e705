import Mathlib

/-! # Scanning a text for the first match

    A scanner looks for the first place where a test of the REST of the text holds, rewrites
    something there and goes on behind it.  Its results compose at a separator that no match can
    cross:

    * `find_append_some`, `find_append_none` — the search in a text with a separator in it;
    * `takeWhile_append_stop`, `dropWhile_append_stop` — a run of letters ends at a stop. -/

namespace TextScan

variable {α : Type} {p : List α → Bool} {q : α → Bool} {a b s x y : List α} {c : α}

/-- The first suffix that passes the test, with what stands before it. -/
def find (p : List α → Bool) : List α → Option (List α × List α)
  | [] => if p [] then some ([], []) else none
  | c :: cs => if p (c :: cs) then some ([], c :: cs) else (find p cs).map fun r => (c :: r.1, r.2)

theorem find_cons_pos (h : p (c :: s) = true) : find p (c :: s) = some ([], c :: s) := if_pos h

theorem find_cons_neg (h : p (c :: s) = false) :
    find p (c :: s) = (find p s).map fun r => (c :: r.1, r.2) := by
  rw [find, h, if_neg Bool.false_ne_true]

/-- What was found stands in the text, and it passes the test. -/
theorem find_eq (h : find p s = some (x, y)) : s = x ++ y ∧ p y = true := by
  induction s generalizing x with
  | nil =>
      rw [find] at h
      split at h
      · cases h
        exact ⟨rfl, ‹_›⟩
      · cases h
  | cons d s ih =>
      cases hp : p (d :: s) with
      | true =>
          rw [find_cons_pos hp] at h
          cases h
          exact ⟨rfl, hp⟩
      | false =>
          rw [find_cons_neg hp] at h
          obtain ⟨⟨x', y'⟩, hr, he⟩ := Option.map_eq_some_iff.mp h
          cases he
          obtain ⟨rfl, hy⟩ := ih hr
          exact ⟨rfl, hy⟩

/-- No suffix passes the test where nothing was found. -/
theorem find_none (h : find p s = none) (x y : List α) (hs : s = x ++ y) : p y = false := by
  induction s generalizing x with
  | nil =>
      obtain ⟨rfl, rfl⟩ := List.append_eq_nil_iff.mp hs.symm
      rw [find] at h
      split at h
      · cases h
      · exact Bool.eq_false_iff.mpr ‹_›
  | cons d s ih =>
      cases hp : p (d :: s) with
      | true => exact absurd h (by rw [find_cons_pos hp]; exact Option.some_ne_none _)
      | false =>
          rw [find_cons_neg hp, Option.map_eq_none_iff] at h
          cases x with
          | nil => exact (show d :: s = y from hs) ▸ hp
          | cons e x => exact ih h x (List.tail_eq_of_cons_eq hs)

section Separator

variable (hsep : ∀ s, p (s ++ c :: b) = p s)

include hsep

/-- A match before the separator is the first one. -/
theorem find_append_some (hnil : p [] = false) (h : find p a = some (x, y)) :
    find p (a ++ c :: b) = some (x, y ++ c :: b) := by
  induction a generalizing x with
  | nil =>
      rw [find, hnil, if_neg Bool.false_ne_true] at h
      cases h
  | cons d a ih =>
      cases hp : p (d :: a) with
      | true =>
          rw [find_cons_pos hp] at h
          cases h
          exact find_cons_pos ((hsep (d :: a)).trans hp)
      | false =>
          rw [find_cons_neg hp] at h
          obtain ⟨⟨x', y'⟩, hr, he⟩ := Option.map_eq_some_iff.mp h
          cases he
          have hp' : p (d :: (a ++ c :: b)) = false := (hsep (d :: a)).trans hp
          rw [List.cons_append, find_cons_neg hp', ih hr]
          rfl

/-- Without a match before the separator the search goes on behind it. -/
theorem find_append_none (h : find p a = none) :
    find p (a ++ c :: b) = (find p b).map fun r => (a ++ c :: r.1, r.2) := by
  induction a with
  | nil => exact find_cons_neg ((hsep []).trans (find_none h [] [] rfl))
  | cons d a ih =>
      have hp : p (d :: a) = false := find_none h [] _ rfl
      rw [find_cons_neg hp, Option.map_eq_none_iff] at h
      have hp' : p (d :: (a ++ c :: b)) = false := (hsep (d :: a)).trans hp
      rw [List.cons_append, find_cons_neg hp', ih h, Option.map_map]
      rfl

end Separator

/-- A word at the head of a text, where `r` compares letters. -/
def startsWith (r : α → α → Bool) : List α → List α → Bool
  | [], _ => true
  | _ :: _, [] => false
  | n :: needle, c :: cs => r n c && startsWith r needle cs

variable {r : α → α → Bool} {needle : List α}

/-- A word does not reach across a letter that it does not have. -/
theorem startsWith_append (h : ∀ n ∈ needle, r n c = false) (s b : List α) :
    startsWith r needle (s ++ c :: b) = startsWith r needle s := by
  induction needle generalizing s with
  | nil => cases s <;> rfl
  | cons n needle ih =>
      cases s with
      | nil => simp [startsWith, h n (List.mem_cons_self ..)]
      | cons d s =>
          simp only [List.cons_append, startsWith]
          rw [ih fun m hm => h m (List.mem_cons_of_mem _ hm)]

/-- A text that starts with a word has a part that matches it letter by letter. -/
theorem startsWith_split (h : startsWith r needle s = true) :
    ∃ w z, s = w ++ z ∧ List.Forall₂ (fun n d => r n d = true) needle w := by
  induction needle generalizing s with
  | nil => exact ⟨[], s, rfl, .nil⟩
  | cons n needle ih =>
      cases s with
      | nil => exact absurd h Bool.false_ne_true
      | cons d s =>
          obtain ⟨h1, h2⟩ := Bool.and_eq_true_iff.mp h
          obtain ⟨w, z, rfl, hw⟩ := ih h2
          exact ⟨d :: w, z, rfl, .cons h1 hw⟩

theorem startsWith_length (h : startsWith r needle s = true) : needle.length ≤ s.length := by
  obtain ⟨w, z, rfl, hw⟩ := startsWith_split h
  rw [List.length_append, hw.length_eq]
  exact Nat.le_add_right ..

/-- With letters compared as they are, the text starts with the very word. -/
theorem startsWith_eq [BEq α] [LawfulBEq α] (h : startsWith (· == ·) needle s = true) :
    ∃ z, s = needle ++ z := by
  obtain ⟨w, z, rfl, hw⟩ := startsWith_split h
  have heq : needle = w := by
    rw [← List.forall₂_eq_eq_eq]
    exact hw.imp fun _ _ => beq_iff_eq.mp
  exact ⟨z, by rw [heq]⟩

/-- A run of letters ends at the first stop. -/
theorem takeWhile_append_stop (hc : q c = false) (a b : List α) :
    (a ++ c :: b).takeWhile q = a.takeWhile q := by
  induction a with
  | nil => exact List.takeWhile_cons_of_neg (by simp [hc])
  | cons d a ih => simp only [List.cons_append, List.takeWhile_cons, ih]

theorem dropWhile_append_stop (hc : q c = false) (a b : List α) :
    (a ++ c :: b).dropWhile q = a.dropWhile q ++ c :: b := by
  induction a with
  | nil => exact List.dropWhile_cons_of_neg (by simp [hc])
  | cons d a ih =>
      simp only [List.cons_append, List.dropWhile_cons]
      split
      · exact ih
      · rfl

/-- The part before the first stop, the stop, and the part behind it are determined. -/
theorem stop_inj {d : α} (ha : ∀ e ∈ a, q e = true) (hc : q c = false) (hb : ∀ e ∈ b, q e = true)
    (hd : q d = false) (h : a ++ c :: x = b ++ d :: y) : a = b ∧ c = d ∧ x = y := by
  have htake := congrArg (List.takeWhile q) h
  rw [takeWhile_append_stop hc, takeWhile_append_stop hd, List.takeWhile_eq_self_iff.mpr ha,
    List.takeWhile_eq_self_iff.mpr hb] at htake
  subst htake
  exact ⟨rfl, List.cons_eq_cons.mp (List.append_cancel_left h)⟩

/-- A run of letters is a prefix, and the rest starts with a stop. -/
theorem drop_takeWhile_length (q : α → Bool) (s : List α) :
    s.drop (s.takeWhile q).length = s.dropWhile q :=
  calc s.drop (s.takeWhile q).length
      = (s.takeWhile q ++ s.dropWhile q).drop (s.takeWhile q).length := by
        rw [List.takeWhile_append_dropWhile]
    _ = s.dropWhile q := List.drop_left

theorem head_dropWhile (h : c ∈ (s.dropWhile q).head?) : q c = false := by
  induction s with
  | nil => cases h
  | cons d s ih =>
      rw [List.dropWhile_cons] at h
      split at h
      · exact ih h
      · cases h
        exact Bool.eq_false_iff.mpr ‹_›

/-- A text with a stop in it is cut at the first one. -/
theorem exists_stop (h : ∃ c ∈ s, q c = false) :
    ∃ a c b, s = a ++ c :: b ∧ (∀ e ∈ a, q e = true) ∧ q c = false := by
  obtain ⟨c, hc, hstop⟩ := h
  have hsplit := List.takeWhile_append_dropWhile (p := q) (l := s)
  cases hd : s.dropWhile q with
  | nil =>
      have hpass := List.dropWhile_eq_nil_iff.mp hd c hc
      rw [hstop] at hpass
      cases hpass
  | cons d b =>
      rw [hd] at hsplit
      exact ⟨s.takeWhile q, d, b, hsplit.symm, fun e he => List.mem_takeWhile_imp he,
        head_dropWhile (s := s) (by rw [hd]; rfl)⟩

end TextScan
