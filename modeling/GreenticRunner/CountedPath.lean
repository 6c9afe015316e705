import Mathlib

/-! # Counted paths of a deterministic relation

    `Steps R a n b`: `n` steps of `R` lead from `a` to `b`.  For a deterministic
    relation all paths from one point lie on ONE line, so a path to an end point
    passes through every other point reached from the same start.

    * `Steps.split` — the longer of two paths continues the shorter one;
    * `Steps.to_end` — every path is a part of the path to an end point. -/

namespace CountedPath

variable {α : Type} {R S : α → α → Prop}

/-- `n` steps of `R` from `a`. -/
inductive Steps (R : α → α → Prop) (a : α) : Nat → α → Prop where
  | refl : Steps R a 0 a
  | tail {n : Nat} {b c : α} (h : Steps R a n b) (hs : R b c) : Steps R a (n + 1) c

/-- No step leaves `a`. -/
def End (R : α → α → Prop) (a : α) : Prop := ∀ b, ¬ R a b

/-- At most one step leaves every point. -/
def Deterministic (R : α → α → Prop) : Prop := ∀ a b c, R a b → R a c → b = c

namespace Steps

theorem trans {a b c : α} {m n : Nat} (h1 : Steps R a m b) (h2 : Steps R b n c) :
    Steps R a (m + n) c := by
  induction h2 with
  | refl => exact h1
  | tail _ hs ih => exact ih.tail hs

theorem single {a b : α} (h : R a b) : Steps R a 1 b := Steps.refl.tail h

theorem mono (hRS : ∀ a b, R a b → S a b) {a b : α} {n : Nat} (h : Steps R a n b) :
    Steps S a n b := by
  induction h with
  | refl => exact .refl
  | tail _ hs ih => exact ih.tail (hRS _ _ hs)

/-- What one step preserves, a path preserves. -/
theorem invariant {I : α → Prop} (hI : ∀ a b, I a → R a b → I b) {a b : α} {n : Nat}
    (h : Steps R a n b) (ha : I a) : I b := by
  induction h with
  | refl => exact ha
  | tail _ hs ih => exact hI _ _ ih hs

/-- A path of at least one step starts with a step. -/
theorem cases_head {a c : α} {n : Nat} (h : Steps R a n c) :
    (n = 0 ∧ a = c) ∨ ∃ m b, n = m + 1 ∧ R a b ∧ Steps R b m c := by
  induction h with
  | refl => exact Or.inl ⟨rfl, rfl⟩
  | tail h hs ih =>
      rename_i n b c
      rcases ih with ⟨h0, heq⟩ | ⟨m, d, hm, had, hdb⟩
      · subst h0
        subst heq
        exact Or.inr ⟨0, c, rfl, hs, .refl⟩
      · exact Or.inr ⟨m + 1, d, by rw [hm], had, hdb.tail hs⟩

variable (hdet : Deterministic R)

include hdet

theorem unique {a b c : α} {n : Nat} (h1 : Steps R a n b) (h2 : Steps R a n c) : b = c := by
  induction h1 generalizing c with
  | refl => cases h2; rfl
  | tail _ hs ih =>
      cases h2 with
      | tail h2' hs2 =>
          have := ih h2'
          subst this
          exact hdet _ _ _ hs hs2

/-- The longer of two paths from `a` continues the shorter one. -/
theorem split {a b c : α} {m n : Nat} (h1 : Steps R a m b) (h2 : Steps R a (m + n) c) :
    Steps R b n c := by
  induction n generalizing c with
  | zero =>
      have := unique hdet h1 h2
      subst this
      exact .refl
  | succ n ih =>
      cases h2 with
      | tail h2' hs => exact (ih h2').tail hs

/-- **ONE LINE**: a path from `a` to an end point passes through every point
    reached from `a`. -/
theorem to_end {a b c : α} {m n : Nat} (h1 : Steps R a m b) (h2 : Steps R a n c)
    (hc : End R c) : m ≤ n ∧ Steps R b (n - m) c := by
  rcases Nat.le_total m n with hle | hle
  · refine ⟨hle, split hdet h1 ?_⟩
    rw [Nat.add_sub_cancel' hle]
    exact h2
  · obtain ⟨d, hd⟩ := Nat.exists_eq_add_of_le hle
    subst hd
    rcases (split hdet h2 h1).cases_head with ⟨h0, heq⟩ | ⟨k, x, -, hx, -⟩
    · subst h0
      subst heq
      refine ⟨Nat.le_refl _, ?_⟩
      rw [Nat.add_zero, Nat.sub_self]
      exact .refl
    · exact absurd hx (hc x)

/-- Two paths to end points are one path. -/
theorem end_unique {a b c : α} {m n : Nat} (h1 : Steps R a m b) (h2 : Steps R a n c)
    (hb : End R b) (hc : End R c) : m = n ∧ b = c := by
  have hmn := to_end hdet h1 h2 hc
  have hnm := to_end hdet h2 h1 hb
  have heq : m = n := Nat.le_antisymm hmn.1 hnm.1
  subst heq
  exact ⟨rfl, unique hdet h1 h2⟩

end Steps

end CountedPath
