import Mathlib

/-! # Worklist search with a visited set

    The loop `while let Some(x) = stack.pop()` that skips visited elements, may
    STOP at an element with an answer and otherwise pushes its successors.  The
    loop has no bound of its own; the fuel below is proved sufficient by the
    measure "stack length plus arcs leaving unvisited elements", which drops at
    every pop.

    * `search_stop` — an answer comes from an element reachable from the stack;
    * `search_none` — with enough fuel, no answer means that no element
      reachable from the stack stops. -/

namespace Worklist

variable {α β : Type} [DecidableEq α]

/-- The loop: `expand x` either stops with an answer or names the successors,
    pushed in order, so the last one is popped first. -/
def search (expand : α → Except β (List α)) : Nat → List α → List α → Option β
  | 0, _, _ => none
  | _ + 1, [], _ => none
  | fuel + 1, x :: stack, visited =>
      if x ∈ visited then search expand fuel stack visited
      else
        match expand x with
        | .error b => some b
        | .ok ys => search expand fuel (ys.reverse ++ stack) (x :: visited)

/-- One step of the search: `y` is pushed when `x` is expanded. -/
def Arc (expand : α → Except β (List α)) (x y : α) : Prop :=
  ∃ ys, expand x = .ok ys ∧ y ∈ ys

/-- An answer comes from an element that a stack element reaches. -/
theorem search_stop {expand : α → Except β (List α)} {b : β} :
    ∀ (fuel : Nat) (stack visited : List α), search expand fuel stack visited = some b →
      ∃ x ∈ stack, ∃ y, Relation.ReflTransGen (Arc expand) x y ∧ expand y = .error b := by
  intro fuel
  induction fuel with
  | zero => intro stack visited h; exact nomatch h
  | succ fuel ih =>
      intro stack visited h
      cases stack with
      | nil => exact nomatch h
      | cons x stack =>
          rw [search] at h
          by_cases hv : x ∈ visited
          · rw [if_pos hv] at h
            obtain ⟨z, hz, y, hy⟩ := ih stack visited h
            exact ⟨z, List.mem_cons_of_mem _ hz, y, hy⟩
          · rw [if_neg hv] at h
            cases he : expand x with
            | error c =>
                rw [he] at h
                have hc : c = b := Option.some.inj h
                exact ⟨x, List.mem_cons_self .., x, .refl, by rw [he, hc]⟩
            | ok ys =>
                rw [he] at h
                obtain ⟨z, hz, y, hzy, hy⟩ := ih _ _ h
                rcases List.mem_append.mp hz with hys | hst
                · have harc : Arc expand x z := ⟨ys, he, List.mem_reverse.mp hys⟩
                  exact ⟨x, List.mem_cons_self .., y, .head harc hzy, hy⟩
                · exact ⟨z, List.mem_cons_of_mem _ hst, y, hzy, hy⟩

/-- The arcs that leave unvisited elements. -/
def pending (arcs visited : List α) : List α := arcs.filter (· ∉ visited)

/-- Visiting `x` removes its arcs from the pending ones. -/
theorem pending_cons (arcs visited : List α) {x : α} (hx : x ∉ visited) :
    (pending arcs (x :: visited)).length + arcs.count x = (pending arcs visited).length := by
  induction arcs with
  | nil => rfl
  | cons a arcs ih =>
      simp only [pending] at ih ⊢
      by_cases hax : a = x
      · subst hax
        rw [List.filter_cons_of_neg (by simp), List.filter_cons_of_pos (by simpa using hx),
          List.count_cons_self, List.length_cons]
        omega
      · rw [List.count_cons_of_ne hax]
        by_cases hav : a ∈ visited
        · rw [List.filter_cons_of_neg (by simp [hav]), List.filter_cons_of_neg (by simp [hav])]
          exact ih
        · rw [List.filter_cons_of_pos (by simp [hav, hax]),
            List.filter_cons_of_pos (by simp [hav]), List.length_cons, List.length_cons]
          omega

/-- Visited elements and the stack cover everything that was pushed. -/
def Closed (expand : α → Except β (List α)) (stack visited : List α) : Prop :=
  ∀ x ∈ visited, ∃ ys, expand x = .ok ys ∧ ∀ y ∈ ys, y ∈ visited ∨ y ∈ stack

/-- An exhausted search has visited a set closed under the arcs. -/
theorem search_visited {expand : α → Except β (List α)} {arcs : List α}
    (hdeg : ∀ x ys, expand x = .ok ys → ys.length ≤ arcs.count x) :
    ∀ (fuel : Nat) (stack visited : List α),
      stack.length + (pending arcs visited).length < fuel →
      search expand fuel stack visited = none → Closed expand stack visited →
      ∃ final, (∀ x ∈ visited, x ∈ final) ∧ (∀ x ∈ stack, x ∈ final) ∧
        Closed expand [] final := by
  intro fuel
  induction fuel with
  | zero => intro stack visited hf; exact absurd hf (Nat.not_lt_zero _)
  | succ fuel ih =>
      intro stack visited hf h hcl
      cases stack with
      | nil => exact ⟨visited, fun _ hx => hx, by simp, hcl⟩
      | cons x stack =>
          rw [search] at h
          rw [List.length_cons] at hf
          by_cases hv : x ∈ visited
          · rw [if_pos hv] at h
            obtain ⟨final, h1, h2, h3⟩ := ih stack visited (by omega) h (by
              intro z hz
              obtain ⟨ys, hys, hall⟩ := hcl z hz
              refine ⟨ys, hys, ?_⟩
              intro y hy
              rcases hall y hy with hyv | hys'
              · exact Or.inl hyv
              · rcases List.mem_cons.mp hys' with heq | hst
                · exact Or.inl (heq ▸ hv)
                · exact Or.inr hst)
            refine ⟨final, h1, ?_, h3⟩
            intro y hy
            rcases List.mem_cons.mp hy with heq | hst
            · exact heq ▸ h1 x hv
            · exact h2 y hst
          · rw [if_neg hv] at h
            cases he : expand x with
            | error b => rw [he] at h; exact nomatch h
            | ok ys =>
                rw [he] at h
                have hlen := hdeg x ys he
                have hpend := pending_cons arcs visited hv
                obtain ⟨final, h1, h2, h3⟩ := ih (ys.reverse ++ stack) (x :: visited) (by
                    rw [List.length_append, List.length_reverse]
                    omega) h (by
                  intro z hz
                  rcases List.mem_cons.mp hz with heq | hzv
                  · subst heq
                    refine ⟨ys, he, ?_⟩
                    intro y hy
                    exact Or.inr (List.mem_append.mpr (Or.inl (List.mem_reverse.mpr hy)))
                  · obtain ⟨zs, hzs, hall⟩ := hcl z hzv
                    refine ⟨zs, hzs, ?_⟩
                    intro y hy
                    rcases hall y hy with hyv | hst
                    · exact Or.inl (List.mem_cons_of_mem _ hyv)
                    · rcases List.mem_cons.mp hst with heq | hst'
                      · exact Or.inl (heq ▸ List.mem_cons_self ..)
                      · exact Or.inr (List.mem_append.mpr (Or.inr hst')))
                refine ⟨final, ?_, ?_, h3⟩
                · intro z hz
                  exact h1 z (List.mem_cons_of_mem _ hz)
                · intro y hy
                  rcases List.mem_cons.mp hy with heq | hst
                  · exact heq ▸ h1 x (List.mem_cons_self ..)
                  · exact h2 y (List.mem_append.mpr (Or.inr hst))

/-- **EXHAUSTION**: with enough fuel, a search without an answer has expanded
    everything the stack reaches. -/
theorem search_none {expand : α → Except β (List α)} {arcs : List α}
    (hdeg : ∀ x ys, expand x = .ok ys → ys.length ≤ arcs.count x) {fuel : Nat}
    {stack : List α} (hf : stack.length + arcs.length < fuel)
    (h : search expand fuel stack [] = none) {x y : α} (hx : x ∈ stack)
    (hxy : Relation.ReflTransGen (Arc expand) x y) : ∃ ys, expand y = .ok ys := by
  have hpend : (pending arcs []).length ≤ arcs.length := List.length_filter_le ..
  obtain ⟨final, -, hst, hcl⟩ := search_visited hdeg fuel stack [] (by omega) h
    (fun x hx => nomatch hx)
  have hmem : y ∈ final := by
    induction hxy with
    | refl => exact hst x hx
    | tail _ harc ih =>
        obtain ⟨ys, hys, hmem⟩ := harc
        obtain ⟨zs, hzs, hall⟩ := hcl _ ih
        rw [hys] at hzs
        cases hzs
        rcases hall _ hmem with hv | hn
        · exact hv
        · exact nomatch hn
  obtain ⟨ys, hys, -⟩ := hcl y hmem
  exact ⟨ys, hys⟩

end Worklist
