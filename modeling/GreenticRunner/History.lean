import Mathlib

/-! # Properties of a history

    A history is the list of the events so far, the latest one last.  Two forms of statement about it grow
    with every event:

    * `Each j` — each event is justified by the history before it;
    * `since_snoc`, `each_snoc` — what one more event does to them. -/

namespace History

variable {α : Type} {p p' q : α → Prop} {j : List α → α → Prop} {log : List α} {x : α}

/-- `p` happened, and `q` did not happen since. -/
def Since (p q : α → Prop) (log : List α) : Prop :=
  ∃ before e after, log = before ++ e :: after ∧ p e ∧ ∀ y ∈ after, ¬ q y

/-- Nothing has happened in the empty log. -/
theorem not_since_nil : ¬ Since p q [] := by
  rintro ⟨before, e, after, h, -⟩
  exact absurd h (by simp)

/-- It is the last event, or it was so before and the last event does not undo it. -/
theorem since_snoc : Since p q (log ++ [x]) ↔ p x ∨ (Since p q log ∧ ¬ q x) := by
  constructor
  · rintro ⟨before, e, after, h, hp, hq⟩
    rcases List.eq_nil_or_concat after with rfl | ⟨init, last, rfl⟩
    · obtain ⟨-, hx⟩ := List.append_inj' h rfl
      rw [(List.cons.inj hx).1]
      exact .inl hp
    · have hsplit : log ++ [x] = (before ++ e :: init) ++ [last] := by
        rw [h]
        simp
      obtain ⟨rfl, hx⟩ := List.append_inj' hsplit rfl
      rw [(List.cons.inj hx).1]
      exact .inr ⟨⟨before, e, init, rfl, hp, fun y hy => hq y (by simp [hy])⟩, hq last (by simp)⟩
  · rintro (hp | ⟨⟨before, e, after, rfl, hp, hq⟩, hx⟩)
    · exact ⟨log, x, [], rfl, hp, by simp⟩
    · refine ⟨before, e, after ++ [x], by simp, hp, fun y hy => ?_⟩
      rcases List.mem_append.mp hy with hy | hy
      · exact hq y hy
      · rwa [List.mem_singleton.mp hy]

theorem Since.snoc (h : Since p q log) (hx : ¬ q x) : Since p q (log ++ [x]) := since_snoc.mpr (.inr ⟨h, hx⟩)

/-- It holds from the event on that starts it. -/
theorem Since.last (h : p x) : Since p q (log ++ [x]) := since_snoc.mpr (.inl h)

/-- An event that is not the one in question. -/
theorem Since.of_snoc (h : Since p q (log ++ [x])) (hx : ¬ p x) : Since p q log ∧ ¬ q x :=
  (since_snoc.mp h).resolve_left hx

/-- A weaker start. -/
theorem Since.imp (h : Since p q log) (hp : ∀ e, p e → p' e) : Since p' q log := by
  obtain ⟨before, e, after, heq, he, hq⟩ := h
  exact ⟨before, e, after, heq, hp e he, hq⟩

/-- Each event is justified by what came before it. -/
def Each (j : List α → α → Prop) (log : List α) : Prop := ∀ before e after, log = before ++ e :: after → j before e

/-- The empty log is allowed. -/
theorem each_nil : Each j [] := by
  intro before e after h
  exact absurd h (by simp)

/-- A log with one more event is allowed if the event was allowed after the others. -/
theorem each_snoc : Each j (log ++ [x]) ↔ Each j log ∧ j log x := by
  constructor
  · intro h
    refine ⟨fun before e after heq => h before e (after ++ [x]) ?_, h log x [] rfl⟩
    rw [heq]
    simp
  · rintro ⟨hlog, hx⟩ before e after heq
    rcases List.eq_nil_or_concat after with rfl | ⟨init, last, rfl⟩
    · obtain ⟨rfl, hlast⟩ := List.append_inj' heq rfl
      rwa [← (List.cons.inj hlast).1]
    · have hsplit : log ++ [x] = (before ++ e :: init) ++ [last] := by
        rw [heq]
        simp
      exact hlog before e init (List.append_inj' hsplit rfl).1

/-- A log of two events. -/
theorem each_pair (x y : α) : Each j [x, y] ↔ j [] x ∧ j [x] y := by
  rw [show [x, y] = [x] ++ [y] from rfl, each_snoc, show [x] = [] ++ [x] from rfl, each_snoc]
  simp only [each_nil, true_and, List.nil_append]

end History
