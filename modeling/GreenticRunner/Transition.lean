import Mathlib

/-! # Labelled transition systems

    A system moves by LABELLED steps: `step s l` is the state after the label `l`, or
    `none` where `l` is not enabled.  All nondeterminism is in the choice of labels, so
    an interleaving is a list of labels.

    * `play`, `Reach.of_play` — a run given by its labels;
    * `countP_set_add`, `sum_map_set_add` — a count and a sum over the parts of a system when one of
      them changes. -/

namespace Transition

variable {σ Λ : Type} {step : σ → Λ → Option σ} {C : σ → Λ → Prop} {s₀ s : σ}

/-- The states reached from `s₀` by steps that all meet `C`. -/
inductive Reach (step : σ → Λ → Option σ) (C : σ → Λ → Prop) (s₀ : σ) : σ → Prop where
  | start : Reach step C s₀ s₀
  | next {s s' : σ} {l : Λ} (h : Reach step C s₀ s) (hs : step s l = some s') (hc : C s l) :
      Reach step C s₀ s'

/-- Every step may be taken. -/
abbrev Any : σ → Λ → Prop := fun _ _ => True

theorem Reach.inv {I : σ → Prop} (h0 : I s₀)
    (hstep : ∀ s l s', I s → C s l → step s l = some s' → I s') (h : Reach step C s₀ s) :
    I s := by
  induction h with
  | start => exact h0
  | next _ hs hc ih => exact hstep _ _ _ ih hc hs

/-- The run along `ls`, with the condition checked at every step. -/
def play (step : σ → Λ → Option σ) (C : σ → Λ → Prop) [∀ s l, Decidable (C s l)] :
    σ → List Λ → Option σ
  | s, [] => some s
  | s, l :: ls => if C s l then (step s l).bind fun s' => play step C s' ls else none

theorem Reach.of_play [∀ s l, Decidable (C s l)] {ls : List Λ} {s' : σ}
    (h : Reach step C s₀ s) (hp : play step C s ls = some s') : Reach step C s₀ s' := by
  induction ls generalizing s with
  | nil =>
      cases hp
      exact h
  | cons l ls ih =>
      rw [play] at hp
      by_cases hc : C s l
      · rw [if_pos hc] at hp
        obtain ⟨s₁, hs, hrest⟩ := Option.bind_eq_some_iff.mp hp
        exact ih (.next h hs hc) hrest
      · rw [if_neg hc] at hp
        exact nomatch hp

/-- A run that ends in a state that passes a test. -/
theorem Reach.of_test [∀ s l, Decidable (C s l)] (ls : List Λ) {test : σ → Bool}
    (hp : (play step C s₀ ls).any test = true) : ∃ s, Reach step C s₀ s ∧ test s = true := by
  obtain ⟨s, hs, ht⟩ := (Option.any_eq_true _ _).mp hp
  exact ⟨s, Reach.start.of_play hs, ht⟩

/-! ## Systems that are lists of parts -/

section Parts

variable {γ : Type} {cs : List γ} {i : Nat} {x y : γ}

theorem mem_of_set {z : γ} (hz : z ∈ cs.set i y) : z = y ∨ z ∈ cs :=
  (List.mem_or_eq_of_mem_set hz).symm

/-- A part after one of them changed: it is that one, or it stands where it stood. -/
theorem getElem?_of_set {j : Nat} {z : γ} (h : (cs.set i y)[j]? = some z) :
    (j = i ∧ z = y) ∨ (j ≠ i ∧ cs[j]? = some z) := by
  by_cases hij : i = j
  · subst hij
    have hlt : i < cs.length := by
      have := (List.getElem?_eq_some_iff.mp h).1
      rwa [List.length_set] at this
    rw [List.getElem?_set_self hlt] at h
    exact .inl ⟨rfl, (Option.some.inj h).symm⟩
  · rw [List.getElem?_set_ne hij] at h
    exact .inr ⟨Ne.symm hij, h⟩

/-- A part after one was added. -/
theorem getElem?_of_snoc {j : Nat} {z : γ} (h : (cs ++ [y])[j]? = some z) :
    (j = cs.length ∧ z = y) ∨ cs[j]? = some z := by
  rcases Nat.lt_trichotomy j cs.length with hlt | heq | hgt
  · rw [List.getElem?_append_left hlt] at h
    exact .inr h
  · subst heq
    rw [List.getElem?_concat_length] at h
    exact .inl ⟨rfl, (Option.some.inj h).symm⟩
  · have hlen := (List.getElem?_eq_some_iff.mp h).1
    rw [List.length_append, List.length_singleton] at hlen
    omega

/-- What stands before and behind a part stays when the part changes. -/
theorem exists_set_eq (hi : cs[i]? = some x) :
    ∃ a b, cs = a ++ x :: b ∧ ∀ y, cs.set i y = a ++ y :: b := by
  obtain ⟨hlt, rfl⟩ := List.getElem?_eq_some_iff.mp hi
  refine ⟨cs.take i, cs.drop (i + 1), ?_, ?_⟩
  · rw [List.getElem_cons_drop, List.take_append_drop]
  · intro y
    rw [List.set_eq_take_append_cons_drop, if_pos hlt]

/-- How a count changes with one part. -/
theorem countP_set_add (p : γ → Bool) (hi : cs[i]? = some x) (y : γ) :
    (cs.set i y).countP p + (if p x then 1 else 0) = cs.countP p + if p y then 1 else 0 := by
  induction cs generalizing i with
  | nil => exact nomatch hi
  | cons z zs ih =>
      cases i with
      | zero =>
          cases hi
          rw [List.set_cons_zero, List.countP_cons, List.countP_cons]
          omega
      | succ i =>
          have hrec := ih (List.getElem?_cons_succ ▸ hi)
          rw [List.set_cons_succ, List.countP_cons, List.countP_cons]
          omega

/-- How a sum changes with one part. -/
theorem sum_map_set_add (f : γ → Nat) (hi : cs[i]? = some x) (y : γ) :
    ((cs.set i y).map f).sum + f x = (cs.map f).sum + f y := by
  induction cs generalizing i with
  | nil => exact nomatch hi
  | cons z zs ih =>
      cases i with
      | zero =>
          cases hi
          simp only [List.set_cons_zero, List.map_cons, List.sum_cons]
          omega
      | succ i =>
          have hrec := ih (List.getElem?_cons_succ ▸ hi)
          simp only [List.set_cons_succ, List.map_cons, List.sum_cons]
          omega

/-- What a part keeps, the list keeps. -/
theorem map_set_of_eq {δ : Type} {f : γ → δ} (hi : cs[i]? = some x) (hf : f y = f x) :
    (cs.set i y).map f = cs.map f := by
  obtain ⟨hlt, rfl⟩ := List.getElem?_eq_some_iff.mp hi
  rw [List.map_set, hf, ← List.getElem_map f (h := by rwa [List.length_map]), List.set_getElem_self]

end Parts

end Transition
