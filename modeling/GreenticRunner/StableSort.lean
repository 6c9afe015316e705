import Mathlib

/-! # Sorting by a key, with ties in the old order

    A STABLE sort by a key has one result: the elements in the order of their keys, and elements
    of one key in the order they had before.

    * `sortByKey_filter` — what is left out does not change the order of the others;
    * `pairwise_of_sortByKey` — the order within a key is the old one. -/

namespace StableSort

variable {α β : Type} [LinearOrder β] {key : α → β}

/-- The elements of a list by their keys. -/
def sortByKey (key : α → β) (l : List α) : List α := l.insertionSort fun a b => key a ≤ key b

theorem perm_sortByKey (l : List α) : (sortByKey key l).Perm l := List.perm_insertionSort ..

/-- The first element is inserted into the rest, sorted. -/
theorem sortByKey_cons (a : α) (l : List α) :
    sortByKey key (a :: l) = (sortByKey key l).orderedInsert (fun a b => key a ≤ key b) a := rfl

/-- **THE ORDER OF A STABLE SORT**: by key, and where keys are equal as before. -/
theorem pairwise_sortByKey {S : α → α → Prop} {l : List α}
    (h : l.Pairwise fun a b => key a = key b → S a b) :
    (sortByKey key l).Pairwise fun a b => key a ≤ key b ∧ (key a = key b → S a b) := by
  induction l with
  | nil => exact List.Pairwise.nil
  | cons a l ih =>
      obtain ⟨hhead, hrest⟩ := List.pairwise_cons.mp h
      have hall : ∀ b ∈ sortByKey key l, key a = key b → S a b :=
        fun b hb => hhead b ((perm_sortByKey l).mem_iff.mp hb)
      rw [sortByKey_cons]
      revert hall
      -- the new element goes in front of the first one whose key is not less
      generalize hm : sortByKey key l = m
      have hsorted := hm ▸ ih hrest
      clear hm ih
      intro hall
      induction m with
      | nil => exact List.pairwise_singleton ..
      | cons b m ihm =>
          obtain ⟨hb, hm⟩ := List.pairwise_cons.mp hsorted
          rw [List.orderedInsert_cons]
          split
          · rename_i hle
            refine List.pairwise_cons.mpr ⟨?_, hsorted⟩
            intro x hx
            refine ⟨?_, hall x hx⟩
            rcases List.mem_cons.mp hx with rfl | hx
            · exact hle
            · exact hle.trans (hb x hx).1
          · rename_i hlt
            have hba : key b < key a := not_le.mp hlt
            refine List.pairwise_cons.mpr
              ⟨?_, ihm hm fun x hx => hall x (List.mem_cons_of_mem _ hx)⟩
            intro x hx
            rcases (List.mem_orderedInsert _).mp hx with rfl | hx
            · exact ⟨hba.le, fun heq => absurd heq hba.ne⟩
            · exact hb x hx

theorem sorted_sortByKey (l : List α) : (sortByKey key l).Pairwise fun a b => key a ≤ key b :=
  have hany : l.Pairwise fun a b => key a = key b → True := List.pairwise_of_forall fun _ _ _ => trivial
  (pairwise_sortByKey hany).imp fun h => h.1

/-- An element not above any other goes first. -/
theorem orderedInsert_of_forall_le {a : α} {l : List α} (h : ∀ b ∈ l, key a ≤ key b) :
    l.orderedInsert (fun a b => key a ≤ key b) a = a :: l := by
  cases l with
  | nil => rfl
  | cons b l => exact List.orderedInsert_cons_of_le _ l (h b (List.mem_cons_self ..))

/-- Elements are inserted before or after the others are left out. -/
theorem filter_orderedInsert (p : α → Bool) (a : α) {l : List α}
    (h : l.Pairwise fun a b => key a ≤ key b) :
    (l.orderedInsert (fun a b => key a ≤ key b) a).filter p =
      if p a then (l.filter p).orderedInsert (fun a b => key a ≤ key b) a else l.filter p := by
  induction l with
  | nil =>
      rw [List.orderedInsert_nil, List.filter_cons, List.filter_nil, List.orderedInsert_nil]
  | cons b l ih =>
      obtain ⟨hb, hl⟩ := List.pairwise_cons.mp h
      rw [List.orderedInsert_cons]
      split
      · rename_i hle
        rw [List.filter_cons]
        split
        · rw [orderedInsert_of_forall_le]
          intro x hx
          rcases List.mem_cons.mp (List.mem_of_mem_filter hx) with rfl | hx
          · exact hle
          · exact hle.trans (hb x hx)
        · rfl
      · rename_i hlt
        rw [List.filter_cons, List.filter_cons, ih hl]
        by_cases hpb : p b = true
        · rw [if_pos hpb, if_pos hpb]
          split
          · rw [List.orderedInsert_cons, if_neg hlt]
          · rfl
        · rw [if_neg hpb, if_neg hpb]

/-- **A STABLE SORT KEEPS TO ANY PART OF A LIST.** -/
theorem sortByKey_filter (p : α → Bool) (l : List α) :
    sortByKey key (l.filter p) = (sortByKey key l).filter p := by
  induction l with
  | nil => rfl
  | cons a l ih =>
      rw [sortByKey_cons, filter_orderedInsert p a (sorted_sortByKey l), List.filter_cons]
      split
      · rw [sortByKey_cons, ih]
      · exact ih

/-- Elements with one key stay in their order. -/
theorem sortByKey_of_eq {k : β} {l : List α} (h : ∀ a ∈ l, key a = k) : sortByKey key l = l := by
  induction l with
  | nil => rfl
  | cons a l ih =>
      rw [sortByKey_cons, ih fun b hb => h b (List.mem_cons_of_mem _ hb)]
      refine orderedInsert_of_forall_le ?_
      intro b hb
      rw [h a (List.mem_cons_self ..), h b (List.mem_cons_of_mem _ hb)]

/-- **A STABLE SORT KEEPS THE ORDER WITHIN A KEY**, so what holds there along the sorted list held
    before. -/
theorem pairwise_of_sortByKey {S : α → α → Prop} {l : List α} (h : (sortByKey key l).Pairwise S) :
    l.Pairwise fun a b => key a = key b → S a b := by
  have hkey : ∀ k, l.Pairwise fun a b => key a = k → key b = k → S a b := by
    intro k
    have hsame : (sortByKey key l).filter (fun a => key a = k) = l.filter fun a => key a = k := by
      rw [← sortByKey_filter]
      refine sortByKey_of_eq (k := k) ?_
      intro a ha
      exact of_decide_eq_true (List.mem_filter.mp ha).2
    have hpart := hsame ▸ h.filter fun a => decide (key a = k)
    refine (List.pairwise_filter.mp hpart).imp ?_
    intro a b hab ha hb
    exact hab (decide_eq_true ha) (decide_eq_true hb)
  rw [List.pairwise_iff_getElem]
  intro i j hi hj hij heq
  exact List.pairwise_iff_getElem.mp (hkey (key l[j])) i j hi hj hij heq rfl

end StableSort
