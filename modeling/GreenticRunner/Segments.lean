import Mathlib

/-! # Lists joined by a separator

    When can a list be split at a separator in two ways?

    * `last_cases` — a last segment, seen from a split further left;
    * `join_eq_iff` — all ways for two joined pairs to be the same text. -/

namespace Segments

variable {α : Type} {c : α} {a b x y z : List α}

/-- The first segment is determined. -/
theorem first_inj (ha : c ∉ a) (hb : c ∉ b) (h : a ++ c :: x = b ++ c :: y) : a = b ∧ x = y := by
  induction a generalizing b with
  | nil =>
      cases b with
      | nil => exact ⟨rfl, List.tail_eq_of_cons_eq h⟩
      | cons d b => exact absurd (List.head_eq_of_cons_eq h ▸ List.mem_cons_self ..) hb
  | cons d a ih =>
      cases b with
      | nil => exact absurd (List.head_eq_of_cons_eq h ▸ List.mem_cons_self ..) ha
      | cons e b =>
          obtain ⟨h1, h2⟩ := ih (fun hc => ha (List.mem_cons_of_mem _ hc))
            (fun hc => hb (List.mem_cons_of_mem _ hc)) (List.tail_eq_of_cons_eq h)
          exact ⟨by rw [h1, List.head_eq_of_cons_eq h], h2⟩

/-- A last segment is the one after a split, or it lies inside what follows it. -/
theorem last_cases (hz : c ∉ z) (h : a ++ c :: x = b ++ c :: z) :
    (x = z ∧ a = b) ∨ ∃ w, x = w ++ c :: z ∧ b = a ++ c :: w := by
  rcases List.append_eq_append_iff.mp h with ⟨w, rfl, hw⟩ | ⟨w, rfl, hw⟩
  · cases w with
    | nil => exact Or.inl ⟨List.tail_eq_of_cons_eq hw, (List.append_nil a).symm⟩
    | cons d w =>
        have hd : c = d := List.head_eq_of_cons_eq hw
        subst hd
        exact Or.inr ⟨w, List.tail_eq_of_cons_eq hw, rfl⟩
  · cases w with
    | nil => exact Or.inl ⟨(List.tail_eq_of_cons_eq hw).symm, List.append_nil b⟩
    | cons d w =>
        -- the separator of the left split would lie in the last segment
        have ht : z = w ++ c :: x := List.tail_eq_of_cons_eq hw
        exact absurd (ht ▸ List.mem_append_right _ (List.mem_cons_self ..)) hz

/-- The last segment is determined. -/
theorem last_inj (hx : c ∉ x) (hz : c ∉ z) (h : a ++ c :: x = b ++ c :: z) : a = b ∧ x = z := by
  rcases last_cases hz h with ⟨h1, h2⟩ | ⟨w, rfl, -⟩
  · exact ⟨h2, h1⟩
  · exact absurd (List.mem_append_right _ (List.mem_cons_self ..)) hx

/-- Two joined pairs are the same text when they are the same pair, or when one splits further
    left than the other. -/
theorem join_eq_iff : a ++ c :: x = b ++ c :: y ↔ (a = b ∧ x = y) ∨
    (∃ w, b = a ++ c :: w ∧ x = w ++ c :: y) ∨ ∃ w, a = b ++ c :: w ∧ y = w ++ c :: x := by
  constructor
  · intro h
    rcases List.append_eq_append_iff.mp h with ⟨w, hb, hw⟩ | ⟨w, ha, hw⟩
    · cases w with
      | nil => exact .inl ⟨by rw [hb, List.append_nil], List.tail_eq_of_cons_eq hw⟩
      | cons d w =>
          cases List.head_eq_of_cons_eq hw
          exact .inr (.inl ⟨w, hb, List.tail_eq_of_cons_eq hw⟩)
    · cases w with
      | nil => exact .inl ⟨by rw [ha, List.append_nil], (List.tail_eq_of_cons_eq hw).symm⟩
      | cons d w =>
          cases List.head_eq_of_cons_eq hw
          exact .inr (.inr ⟨w, ha, List.tail_eq_of_cons_eq hw⟩)
  · rintro (⟨rfl, rfl⟩ | ⟨w, rfl, rfl⟩ | ⟨w, rfl, rfl⟩)
    · rfl
    · rw [List.append_assoc, List.cons_append]
    · rw [List.append_assoc, List.cons_append]

end Segments
