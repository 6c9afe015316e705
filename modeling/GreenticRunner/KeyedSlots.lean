import GreenticRunner.Transition

/-! # Reference-counted cells in a keyed map

    A map from keys to shared CELLS.  A client takes a reference to the cell of its
    key, which is made on the first use, gives the reference back, and then removes the
    entry if nobody but the map refers to the cell.

    * `enter`, `drop`, `removeIf` — the three operations;
    * `Counted` — the references of a list of clients are those the counts count, and
      every client refers to the cell the map has for its key. -/

namespace KeyedSlots

open Transition

variable {κ γ : Type}

/-- The map, the reference count of every cell and the next fresh cell. -/
structure Slots (κ : Type) where
  slot : κ → Option Nat
  strong : Nat → Nat
  next : Nat

namespace Slots

/-- No key has a cell. -/
def empty : Slots κ := ⟨fun _ => none, fun _ => 0, 0⟩

/-- Look the cell of `k` up, make one if there is none, and take a reference to it. -/
def enter [DecidableEq κ] (m : Slots κ) (k : κ) : Nat × Slots κ :=
  match m.slot k with
  | some c => (c, { m with strong := Function.update m.strong c (m.strong c + 1) })
  | none => (m.next,
      ⟨Function.update m.slot k (some m.next), Function.update m.strong m.next 2, m.next + 1⟩)

/-- Give a reference back. -/
def drop (m : Slots κ) (c : Nat) : Slots κ :=
  { m with strong := Function.update m.strong c (m.strong c - 1) }

/-- Remove the entry of `k` if only the map refers to its cell. -/
def removeIf [DecidableEq κ] (m : Slots κ) (k : κ) : Slots κ :=
  match m.slot k with
  | some c =>
      if m.strong c = 1 then
        { m with slot := Function.update m.slot k none, strong := Function.update m.strong c 0 }
      else m
  | none => m

/-- A client that refers to the cell `c`. -/
def refersTo (ref : γ → Option (κ × Nat)) (c : Nat) (x : γ) : Bool :=
  (ref x).any fun r => r.2 == c

/-- The counts are those of the map and of the clients `cs`. -/
structure Counted (ref : γ → Option (κ × Nat)) (m : Slots κ) (cs : List γ) : Prop where
  inj : ∀ k k' c, m.slot k = some c → m.slot k' = some c → k = k'
  fresh : ∀ k c, m.slot k = some c → c < m.next
  strong : ∀ k c, m.slot k = some c → m.strong c = 1 + cs.countP (refersTo ref c)
  owned : ∀ x ∈ cs, ∀ k c, ref x = some (k, c) → m.slot k = some c

variable {ref : γ → Option (κ × Nat)} {m : Slots κ} {cs : List γ} {i : Nat} {x y : γ} {k : κ}
  {c : Nat}

theorem refersTo_none (h : ref x = none) (c : Nat) : refersTo ref c x = false := by
  rw [refersTo, h]
  rfl

theorem refersTo_some (h : ref x = some (k, c)) (d : Nat) : refersTo ref d x = (c == d) := by
  rw [refersTo, h]
  rfl

theorem refersTo_iff : refersTo ref c x = true ↔ ∃ k, ref x = some (k, c) := by
  rw [refersTo]
  cases h : ref x with
  | none => simp
  | some r =>
      obtain ⟨k, d⟩ := r
      simp

theorem Counted.empty : Counted ref Slots.empty [] :=
  ⟨fun _ _ _ hk => (nomatch hk), fun _ _ hk => (nomatch hk), fun _ _ hk => (nomatch hk),
    fun _ hx => (nomatch hx)⟩

/-- A new client without a reference. -/
theorem Counted.snoc (h : Counted ref m cs) (hx : ref x = none) : Counted ref m (cs ++ [x]) := by
  refine ⟨h.inj, h.fresh, ?_, ?_⟩
  · intro k c hk
    rw [List.countP_append, List.countP_singleton, refersTo_none hx]
    exact h.strong k c hk
  · intro z hz k c hr
    rcases List.mem_append.mp hz with hz | hz
    · exact h.owned z hz k c hr
    · rw [List.mem_singleton.mp hz, hx] at hr
      exact nomatch hr

/-- A client that keeps its reference. -/
theorem Counted.keep (h : Counted ref m cs) (hi : cs[i]? = some x) (hy : ref y = ref x) :
    Counted ref m (cs.set i y) := by
  refine ⟨h.inj, h.fresh, ?_, ?_⟩
  · intro k c hk
    have hcount := countP_set_add (refersTo ref c) hi y
    have hsame : refersTo ref c y = refersTo ref c x := by rw [refersTo, refersTo, hy]
    rw [hsame] at hcount
    rw [h.strong k c hk]
    omega
  · intro z hz k c hr
    rcases mem_of_set hz with rfl | hz
    · exact h.owned x (List.mem_of_getElem? hi) k c (hy ▸ hr)
    · exact h.owned z hz k c hr

/-- A client takes a reference to the cell of its key. -/
theorem Counted.enter [DecidableEq κ] (h : Counted ref m cs) (hi : cs[i]? = some x) (hx : ref x = none)
    (hy : ref y = some (k, (m.enter k).1)) : Counted ref (m.enter k).2 (cs.set i y) := by
  have hadd (d : Nat) : (cs.set i y).countP (refersTo ref d) =
      cs.countP (refersTo ref d) + if (m.enter k).1 == d then 1 else 0 := by
    have hcount := countP_set_add (refersTo ref d) hi y
    rw [refersTo_none hx, refersTo_some hy] at hcount
    simpa using hcount
  cases hk : m.slot k with
  | some c =>
      have he : m.enter k = (c, { m with strong := Function.update m.strong c (m.strong c + 1) }) :=
        by rw [Slots.enter, hk]
      rw [he] at hy hadd ⊢
      refine ⟨h.inj, h.fresh, ?_, ?_⟩
      · intro k' d hk'
        show Function.update m.strong c (m.strong c + 1) d = _
        rw [hadd]
        by_cases hd : c = d
        · subst hd
          rw [Function.update_self, h.strong k c hk]
          simp
          omega
        · rw [Function.update_of_ne (Ne.symm hd), h.strong k' d hk']
          simp [hd]
      · intro z hz k' d hr
        rcases mem_of_set hz with rfl | hz
        · rw [hy] at hr
          cases hr
          exact hk
        · exact h.owned z hz k' d hr
  | none =>
      have he : m.enter k = (m.next, ⟨Function.update m.slot k (some m.next),
          Function.update m.strong m.next 2, m.next + 1⟩) := by rw [Slots.enter, hk]
      -- Nobody refers to a cell the map does not have.
      have hzero : cs.countP (refersTo ref m.next) = 0 := by
        refine List.countP_eq_zero.mpr ?_
        intro z hz hr
        obtain ⟨k', hr⟩ := refersTo_iff.mp hr
        exact Nat.lt_irrefl _ (h.fresh k' _ (h.owned z hz k' _ hr))
      rw [he] at hy hadd ⊢
      have hslot (k' : κ) (d : Nat) (hd : Function.update m.slot k (some m.next) k' = some d) :
          (k' = k ∧ d = m.next) ∨ (m.slot k' = some d ∧ d < m.next) := by
        by_cases hkk : k' = k
        · subst hkk
          rw [Function.update_self] at hd
          exact .inl ⟨rfl, (Option.some.inj hd).symm⟩
        · rw [Function.update_of_ne hkk] at hd
          exact .inr ⟨hd, h.fresh k' d hd⟩
      refine ⟨?_, ?_, ?_, ?_⟩
      · intro k₁ k₂ d h₁ h₂
        rcases hslot k₁ d h₁ with ⟨rfl, rfl⟩ | ⟨h₁, hlt₁⟩ <;>
          rcases hslot k₂ _ h₂ with ⟨rfl, hd⟩ | ⟨h₂, hlt₂⟩
        · rfl
        · exact absurd hlt₂ (Nat.lt_irrefl _)
        · exact absurd (hd ▸ hlt₁) (Nat.lt_irrefl _)
        · exact h.inj k₁ k₂ d h₁ h₂
      · intro k' d hd
        rcases hslot k' d hd with ⟨-, rfl⟩ | ⟨-, hlt⟩
        · exact Nat.lt_succ_self _
        · exact Nat.lt_succ_of_lt hlt
      · intro k' d hd
        show Function.update m.strong m.next 2 d = _
        rw [hadd]
        rcases hslot k' d hd with ⟨-, rfl⟩ | ⟨hd, hlt⟩
        · rw [Function.update_self, hzero]
          simp
        · rw [Function.update_of_ne (Nat.ne_of_lt hlt), h.strong k' d hd]
          simp [(Nat.ne_of_lt hlt).symm]
      · intro z hz k' d hr
        rcases mem_of_set hz with rfl | hz
        · rw [hy] at hr
          cases hr
          exact Function.update_self ..
        · have hd := h.owned z hz k' d hr
          have hkk : k' ≠ k := by
            rintro rfl
            rw [hk] at hd
            exact nomatch hd
          show Function.update m.slot k (some m.next) k' = some d
          rw [Function.update_of_ne hkk]
          exact hd

/-- A client gives its reference back. -/
theorem Counted.drop (h : Counted ref m cs) (hi : cs[i]? = some x) (hx : ref x = some (k, c))
    (hy : ref y = none) : Counted ref (m.drop c) (cs.set i y) := by
  have hk := h.owned x (List.mem_of_getElem? hi) k c hx
  refine ⟨h.inj, h.fresh, ?_, ?_⟩
  · intro k' d hk'
    show Function.update m.strong c (m.strong c - 1) d = _
    have hcount := countP_set_add (refersTo ref d) hi y
    rw [refersTo_some hx, refersTo_none hy] at hcount
    by_cases hd : c = d
    · subst hd
      rw [Function.update_self, h.strong k c hk]
      simp at hcount
      omega
    · rw [Function.update_of_ne (Ne.symm hd), h.strong k' d hk']
      simp [hd] at hcount
      omega
  · intro z hz k' d hr
    rcases mem_of_set hz with rfl | hz
    · rw [hy] at hr
      exact nomatch hr
    · exact h.owned z hz k' d hr

/-- An entry that stays has a client that refers to it; nobody loses its cell. -/
theorem Counted.removeIf [DecidableEq κ] (h : Counted ref m cs) (k : κ) :
    Counted ref (m.removeIf k) cs ∧
      (∀ k' c, (m.removeIf k).slot k' = some c → m.slot k' = some c) ∧
      ∀ c, (m.removeIf k).slot k = some c → ∃ x ∈ cs, ref x = some (k, c) := by
  cases hk : m.slot k with
  | none =>
      have he : m.removeIf k = m := by rw [Slots.removeIf, hk]
      rw [he]
      exact ⟨h, fun _ _ hc => hc, fun c hc => (by rw [hk] at hc; exact nomatch hc)⟩
  | some c =>
      by_cases hone : m.strong c = 1
      · have he : m.removeIf k = { m with
            slot := Function.update m.slot k none, strong := Function.update m.strong c 0 } := by
          rw [Slots.removeIf, hk]
          exact if_pos hone
        have hzero : cs.countP (refersTo ref c) = 0 := by
          have := h.strong k c hk
          omega
        have hback (k' : κ) (d : Nat) (hd : (m.removeIf k).slot k' = some d) :
            k' ≠ k ∧ m.slot k' = some d := by
          rw [he] at hd
          by_cases hkk : k' = k
          · subst hkk
            exact nomatch (Function.update_self (f := m.slot) k' none).symm.trans hd
          · exact ⟨hkk, (Function.update_of_ne hkk none m.slot).symm.trans hd⟩
        refine ⟨⟨?_, ?_, ?_, ?_⟩, fun k' d hd => (hback k' d hd).2, ?_⟩
        · intro k₁ k₂ d h₁ h₂
          exact h.inj k₁ k₂ d (hback k₁ d h₁).2 (hback k₂ d h₂).2
        · intro k' d hd
          rw [he]
          exact h.fresh k' d (hback k' d hd).2
        · intro k' d hd
          obtain ⟨hkk, hd⟩ := hback k' d hd
          have hne : d ≠ c := fun hdc => hkk (h.inj k' k c (hdc ▸ hd) hk)
          rw [he]
          show Function.update m.strong c 0 d = _
          rw [Function.update_of_ne hne]
          exact h.strong k' d hd
        · intro z hz k' d hr
          have hd := h.owned z hz k' d hr
          have hkk : k' ≠ k := by
            rintro rfl
            rw [hk] at hd
            cases hd
            exact List.countP_eq_zero.mp hzero z hz (refersTo_iff.mpr ⟨k', hr⟩)
          rw [he]
          show Function.update m.slot k none k' = some d
          rw [Function.update_of_ne hkk]
          exact hd
        · intro d hd
          exact absurd rfl (hback k d hd).1
      · have he : m.removeIf k = m := by
          rw [Slots.removeIf, hk]
          exact if_neg hone
        rw [he]
        refine ⟨h, fun _ _ hc => hc, ?_⟩
        intro d hd
        rw [hk] at hd
        cases hd
        have hpos : 0 < cs.countP (refersTo ref c) := by
          have := h.strong k c hk
          omega
        obtain ⟨x, hx, hr⟩ := List.countP_pos_iff.mp hpos
        obtain ⟨k', hr⟩ := refersTo_iff.mp hr
        have hkk : k' = k := h.inj k' k c (h.owned x hx k' c hr) hk
        exact ⟨x, hx, hkk ▸ hr⟩

end Slots

end KeyedSlots
