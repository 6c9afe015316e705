import Mathlib

/-! # Finite maps with pointwise merges

    A hash map whose iteration order nobody may observe is a finite partial
    function.  `FinMap` keeps the lookup function together with its finite
    domain, so two maps with the same lookups are EQUAL, every merge loop over
    the entries is one pointwise definition, and sums over the values are
    `Finset` sums. -/

namespace FinMaps

variable {κ α : Type} [DecidableEq κ]

/-- A finite partial function: the lookup and its domain. -/
structure FinMap (κ α : Type) [DecidableEq κ] where
  get? : κ → Option α
  keys : Finset κ
  mem_keys : ∀ k, k ∈ keys ↔ (get? k).isSome

namespace FinMap

/-- Maps with the same lookups are equal: the domain is determined. -/
@[ext] theorem ext {m n : FinMap κ α} (h : ∀ k, m.get? k = n.get? k) : m = n := by
  obtain ⟨f, ks, hf⟩ := m
  obtain ⟨g, ls, hg⟩ := n
  have hfg : f = g := funext h
  subst hfg
  have hks : ks = ls := Finset.ext fun k => (hf k).trans (hg k).symm
  subst hks
  rfl

/-- The empty map. -/
def empty : FinMap κ α where
  get? := fun _ => none
  keys := ∅
  mem_keys := by simp

/-- `insert`: the new value replaces an old one. -/
def insert (m : FinMap κ α) (k : κ) (v : α) : FinMap κ α where
  get? := fun k' => if k' = k then some v else m.get? k'
  keys := Insert.insert k m.keys
  mem_keys := by
    intro k'
    by_cases h : k' = k
    · simp [h]
    · simp [h, m.mem_keys k']

/-- `extend`: the entries of `n` overwrite those of `m`. -/
def extend (m n : FinMap κ α) : FinMap κ α where
  get? := fun k => (n.get? k).or (m.get? k)
  keys := m.keys ∪ n.keys
  mem_keys := by
    intro k
    rw [Finset.mem_union, m.mem_keys, n.mem_keys]
    cases n.get? k <;> cases m.get? k <;> simp

/-- Entry-wise merge: `f old new` where both have the key, else the one there
    is. -/
def mergeWith (f : α → α → α) (m n : FinMap κ α) : FinMap κ α where
  get? := fun k => Option.merge f (m.get? k) (n.get? k)
  keys := m.keys ∪ n.keys
  mem_keys := by
    intro k
    rw [Finset.mem_union, m.mem_keys, n.mem_keys]
    cases m.get? k <;> cases n.get? k <;> simp [Option.merge]

/-- `remove`: a no-op on an absent key. -/
def erase (m : FinMap κ α) (k : κ) : FinMap κ α where
  get? := fun k' => if k' = k then none else m.get? k'
  keys := m.keys.erase k
  mem_keys := by
    intro k'
    by_cases h : k' = k
    · simp [h]
    · simp [h, m.mem_keys k']

/-- `retain`: the entries that pass the test. -/
def retain (m : FinMap κ α) (p : κ → α → Bool) : FinMap κ α where
  get? := fun k => (m.get? k).filter (p k)
  keys := m.keys.filter fun k => ((m.get? k).filter (p k)).isSome
  mem_keys := by
    intro k
    rw [Finset.mem_filter, m.mem_keys]
    cases m.get? k <;> simp

@[simp] theorem empty_get? (k : κ) : (empty : FinMap κ α).get? k = none := rfl

@[simp] theorem erase_get? (m : FinMap κ α) (k k' : κ) :
    (m.erase k).get? k' = if k' = k then none else m.get? k' := rfl

@[simp] theorem retain_get? (m : FinMap κ α) (p : κ → α → Bool) (k : κ) :
    (m.retain p).get? k = (m.get? k).filter (p k) := rfl

@[simp] theorem insert_get? (m : FinMap κ α) (k : κ) (v : α) (k' : κ) :
    (m.insert k v).get? k' = if k' = k then some v else m.get? k' := rfl

@[simp] theorem extend_get? (m n : FinMap κ α) (k : κ) :
    (m.extend n).get? k = (n.get? k).or (m.get? k) := rfl

@[simp] theorem mergeWith_get? (f : α → α → α) (m n : FinMap κ α) (k : κ) :
    (m.mergeWith f n).get? k = Option.merge f (m.get? k) (n.get? k) := rfl

/-- Nothing is added. -/
@[simp] theorem extend_empty (m : FinMap κ α) : m.extend empty = m := by
  ext k
  simp

theorem get?_eq_none_iff (m : FinMap κ α) (k : κ) : m.get? k = none ↔ k ∉ m.keys := by
  rw [m.mem_keys]
  cases m.get? k <;> simp

/-! ## Counters: maps into `Nat` read with default zero -/

/-- The count at a key, `0` when absent. -/
def count (m : FinMap κ Nat) (k : κ) : Nat := (m.get? k).getD 0

/-- The sum of all counts. -/
def total (m : FinMap κ Nat) : Nat := ∑ k ∈ m.keys, m.count k

@[simp] theorem count_empty (k : κ) : (empty : FinMap κ Nat).count k = 0 := rfl

@[simp] theorem total_empty : (empty : FinMap κ Nat).total = 0 := rfl

@[simp] theorem count_insert_self (m : FinMap κ Nat) (k : κ) (v : Nat) :
    (m.insert k v).count k = v := by
  simp [count]

theorem count_insert_ne (m : FinMap κ Nat) {k k' : κ} (h : k' ≠ k) (v : Nat) :
    (m.insert k v).count k' = m.count k' := by
  simp [count, h]

/-- A key that is not there counts nothing. -/
theorem count_eq_zero_of_not_mem (m : FinMap κ Nat) {k : κ} (h : k ∉ m.keys) :
    m.count k = 0 := by
  rw [count, (m.get?_eq_none_iff k).mpr h]
  rfl

/-- The total may be taken over any set that covers the domain. -/
theorem total_eq_sum_of_subset (m : FinMap κ Nat) {S : Finset κ} (h : m.keys ⊆ S) :
    m.total = ∑ k ∈ S, m.count k := by
  refine Finset.sum_subset h ?_
  intro k _ hk
  exact m.count_eq_zero_of_not_mem hk

/-- One insert changes the total by the change at its key. -/
theorem total_insert (m : FinMap κ Nat) (k : κ) (v : Nat) :
    (m.insert k v).total + m.count k = m.total + v := by
  have hk : k ∈ Insert.insert k m.keys := Finset.mem_insert_self k m.keys
  have h1 : (m.insert k v).total = ∑ x ∈ Insert.insert k m.keys, (m.insert k v).count x :=
    rfl
  have h2 : m.total = ∑ x ∈ Insert.insert k m.keys, m.count x :=
    m.total_eq_sum_of_subset (Finset.subset_insert k m.keys)
  rw [h1, h2, ← Finset.add_sum_erase _ _ hk, ← Finset.add_sum_erase _ (m.count) hk,
    count_insert_self]
  have h3 : ∑ x ∈ (Insert.insert k m.keys).erase k, (m.insert k v).count x
      = ∑ x ∈ (Insert.insert k m.keys).erase k, m.count x := by
    refine Finset.sum_congr rfl ?_
    intro x hx
    exact m.count_insert_ne (Finset.ne_of_mem_erase hx) v
  rw [h3]
  omega

/-- Counting one more visit of a key raises the total by one. -/
theorem total_insert_succ (m : FinMap κ Nat) (k : κ) :
    (m.insert k (m.count k + 1)).total = m.total + 1 := by
  have h := m.total_insert k (m.count k + 1)
  omega

/-- Entry-wise maximum. -/
def maxMerge (m n : FinMap κ Nat) : FinMap κ Nat := m.mergeWith max n

/-- The larger of the two counts. -/
@[simp] theorem count_maxMerge (m n : FinMap κ Nat) (k : κ) :
    (m.maxMerge n).count k = max (m.count k) (n.count k) := by
  rw [count, count, count, maxMerge, mergeWith_get?]
  cases m.get? k <;> cases n.get? k <;> simp [Option.merge]

/-! ## Growing counters -/

/-- `n` has every key of `m`, with a count at least as large. -/
def le (m n : FinMap κ Nat) : Prop := ∀ k v, m.get? k = some v → ∃ w, n.get? k = some w ∧ v ≤ w

theorem le.refl (m : FinMap κ Nat) : m.le m := fun _ v hv => ⟨v, hv, Nat.le_refl v⟩

/-- A map below one that is below another. -/
theorem le.trans {m n o : FinMap κ Nat} (h1 : m.le n) (h2 : n.le o) : m.le o := by
  intro k v hv
  obtain ⟨w, hw, hvw⟩ := h1 k v hv
  obtain ⟨u, hu, hwu⟩ := h2 k w hw
  exact ⟨u, hu, Nat.le_trans hvw hwu⟩

/-- Its counts are no larger. -/
theorem le.count_le {m n : FinMap κ Nat} (h : m.le n) (k : κ) : m.count k ≤ n.count k := by
  rw [count, count]
  cases hm : m.get? k with
  | none => exact Nat.zero_le _
  | some v =>
      obtain ⟨w, hw, hvw⟩ := h k v hm
      rw [hw]
      exact hvw

/-- Its keys are keys of the other. -/
theorem le.keys_subset {m n : FinMap κ Nat} (h : m.le n) : m.keys ⊆ n.keys := by
  intro k hk
  obtain ⟨v, hv⟩ := Option.isSome_iff_exists.mp ((m.mem_keys k).mp hk)
  obtain ⟨w, hw, -⟩ := h k v hv
  exact (n.mem_keys k).mpr (by rw [hw]; rfl)

theorem le.total_le {m n : FinMap κ Nat} (h : m.le n) : m.total ≤ n.total := by
  rw [m.total_eq_sum_of_subset h.keys_subset, total]
  exact Finset.sum_le_sum fun k _ => h.count_le k

/-- Counting one more visit only grows the map. -/
theorem le_insert_succ (m : FinMap κ Nat) (k : κ) : m.le (m.insert k (m.count k + 1)) := by
  intro k' v hv
  rw [insert_get?]
  by_cases hk : k' = k
  · subst hk
    rw [if_pos rfl]
    refine ⟨_, rfl, ?_⟩
    rw [count, hv]
    exact Nat.le_succ v
  · rw [if_neg hk]
    exact ⟨v, hv, Nat.le_refl v⟩

/-- Extending by a larger map gives that map. -/
theorem le.extend_eq {m n : FinMap κ Nat} (h : m.le n) : m.extend n = n := by
  ext1 k
  rw [extend_get?]
  cases hn : n.get? k with
  | some w => rfl
  | none =>
      cases hm : m.get? k with
      | none => rfl
      | some v =>
          obtain ⟨w, hw, -⟩ := h k v hm
          rw [hn] at hw
          exact nomatch hw

/-- The merge is above the first map. -/
theorem le_maxMerge_left (m n : FinMap κ Nat) : m.le (m.maxMerge n) := by
  intro k v hv
  rw [maxMerge, mergeWith_get?, hv]
  cases n.get? k with
  | none => exact ⟨v, rfl, Nat.le_refl v⟩
  | some w => exact ⟨max v w, rfl, Nat.le_max_left v w⟩

/-- And above the second. -/
theorem le_maxMerge_right (m n : FinMap κ Nat) : n.le (m.maxMerge n) := by
  intro k v hv
  rw [maxMerge, mergeWith_get?, hv]
  cases m.get? k with
  | none => exact ⟨v, rfl, Nat.le_refl v⟩
  | some w => exact ⟨max w v, rfl, Nat.le_max_right w v⟩

/-- The merge of all maps of a list is above the start and above each of them. -/
theorem le_foldl_maxMerge : ∀ (l : List (FinMap κ Nat)) (m : FinMap κ Nat),
    m.le (l.foldl maxMerge m) ∧ ∀ n ∈ l, n.le (l.foldl maxMerge m) := by
  intro l
  induction l with
  | nil => intro m; exact ⟨le.refl m, fun n hn => (nomatch hn)⟩
  | cons x xs ih =>
      intro m
      obtain ⟨h1, h2⟩ := ih (m.maxMerge x)
      refine ⟨(le_maxMerge_left m x).trans h1, ?_⟩
      intro n hn
      rcases List.mem_cons.mp hn with heq | hmem
      · subst heq; exact (le_maxMerge_right m n).trans h1
      · exact h2 n hmem

/-- The count of a merge is the maximum of the counts. -/
theorem count_foldl_maxMerge (l : List (FinMap κ Nat)) (m : FinMap κ Nat) (k : κ) :
    (l.foldl maxMerge m).count k = (l.map (count · k)).foldl max (m.count k) := by
  induction l generalizing m with
  | nil => rfl
  | cons x xs ih => rw [List.foldl_cons, ih, count_maxMerge, List.map_cons, List.foldl_cons]

/-- Merging two maps that grew from `p` at different keys adds their growth. -/
theorem total_maxMerge {p m n : FinMap κ Nat} (hm : p.le m) (hn : p.le n)
    (hdis : ∀ k, m.count k = p.count k ∨ n.count k = p.count k) :
    (m.maxMerge n).total + p.total = m.total + n.total := by
  have hkeys : (m.maxMerge n).keys = m.keys ∪ n.keys := rfl
  have hp : p.keys ⊆ m.keys ∪ n.keys := hm.keys_subset.trans Finset.subset_union_left
  rw [p.total_eq_sum_of_subset hp, m.total_eq_sum_of_subset Finset.subset_union_left,
    n.total_eq_sum_of_subset Finset.subset_union_right, total, hkeys,
    ← Finset.sum_add_distrib, ← Finset.sum_add_distrib]
  refine Finset.sum_congr rfl ?_
  intro k _
  have h1 := hm.count_le k
  have h2 := hn.count_le k
  rw [count_maxMerge]
  rcases hdis k with h | h <;> omega

/-- The growth of a map, summed entry by entry. -/
theorem sum_growth {p m : FinMap κ Nat} (h : p.le m) :
    ∑ k ∈ m.keys, (m.count k - p.count k) = m.total - p.total := by
  rw [Finset.sum_tsub_distrib _ fun k _ => h.count_le k, total,
    p.total_eq_sum_of_subset h.keys_subset]

/-- Maps below each other are one map. -/
theorem le.antisymm {m n : FinMap κ Nat} (h1 : m.le n) (h2 : n.le m) : m = n := by
  ext1 k
  cases hm : m.get? k with
  | none =>
      cases hn : n.get? k with
      | none => rfl
      | some w =>
          obtain ⟨v, hv, -⟩ := h2 k w hn
          rw [hm] at hv
          exact nomatch hv
  | some v =>
      obtain ⟨w, hw, hvw⟩ := h1 k v hm
      obtain ⟨v', hv', hwv⟩ := h2 k w hw
      rw [hm] at hv'
      cases hv'
      rw [hw, Nat.le_antisymm hvw hwv]

/-- The merge is the least such map. -/
theorem maxMerge_le {m n u : FinMap κ Nat} (hm : m.le u) (hn : n.le u) : (m.maxMerge n).le u := by
  intro k v hv
  rw [maxMerge, mergeWith_get?] at hv
  cases hmk : m.get? k with
  | none =>
      cases hnk : n.get? k with
      | none => rw [hmk, hnk] at hv; exact nomatch hv
      | some b => rw [hmk, hnk] at hv; cases hv; exact hn k _ hnk
  | some a =>
      obtain ⟨w, hw, haw⟩ := hm k a hmk
      cases hnk : n.get? k with
      | none => rw [hmk, hnk] at hv; cases hv; exact ⟨w, hw, haw⟩
      | some b =>
          obtain ⟨w', hw', hbw⟩ := hn k b hnk
          rw [hw] at hw'
          cases hw'
          rw [hmk, hnk] at hv
          cases hv
          exact ⟨w, hw, Nat.max_le.mpr ⟨haw, hbw⟩⟩

/-- The same for any number of maps. -/
theorem foldl_maxMerge_le {u : FinMap κ Nat} : ∀ {l : List (FinMap κ Nat)} {m : FinMap κ Nat},
    m.le u → (∀ n ∈ l, n.le u) → (l.foldl maxMerge m).le u := by
  intro l
  induction l with
  | nil => intro m hm _; exact hm
  | cons x xs ih =>
      intro m hm hall
      exact ih (maxMerge_le hm (hall x (List.mem_cons_self ..)))
        fun n hn => hall n (List.mem_cons_of_mem _ hn)

/-- A merge may start from any map whose entries are those of the start or of a
    merged map above it. -/
theorem foldl_maxMerge_start {l : List (FinMap κ Nat)} {p m : FinMap κ Nat}
    (hm : ∀ k, m.get? k = p.get? k ∨ ∃ n ∈ l, m.get? k = n.get? k ∧ p.le n) :
    l.foldl maxMerge m = l.foldl maxMerge p := by
  obtain ⟨hpl, hpn⟩ := le_foldl_maxMerge l p
  obtain ⟨hml, hmn⟩ := le_foldl_maxMerge l m
  refine le.antisymm (foldl_maxMerge_le ?_ hpn) (foldl_maxMerge_le ?_ hmn)
  · intro k v hv
    rcases hm k with heq | ⟨n, hn, heq, -⟩
    · exact hpl k v (heq ▸ hv)
    · exact hpn n hn k v (heq ▸ hv)
  · intro k v hv
    rcases hm k with heq | ⟨n, hn, -, hle⟩
    · exact hml k v (heq.symm ▸ hv)
    · exact (hle.trans (hmn n hn)) k v hv

end FinMap

end FinMaps
