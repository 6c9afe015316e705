import Mathlib

/-! # Maps as lists of entries

    A finite map as the list of its entries, each key once.  Unlike a map by its lookup
    function it can be measured and searched: it has a SIZE, a total, and an entry that is
    the least by some measure.

    * `size_erase`, `size_insert_new`, `size_insert_old` — how the size changes;
    * `total_erase`, `total_insert` — how a total over the entries changes. -/

namespace AssocMaps

/-- A map as its entries. -/
structure AssocMap (κ α : Type) where
  entries : List (κ × α)
  nodup : (entries.map (·.1)).Nodup

namespace AssocMap

variable {κ α : Type}

def empty : AssocMap κ α := ⟨[], List.nodup_nil⟩

def size (m : AssocMap κ α) : Nat := m.entries.length

/-- The sum of a measure of the values. -/
def total (f : α → Nat) (m : AssocMap κ α) : Nat := (m.entries.map fun e => f e.2).sum

/-- An entry with the least measure, the first such one. -/
def least? (f : α → Nat) (m : AssocMap κ α) : Option (κ × α) := m.entries.argmin fun e => f e.2

/-- A map that is not empty has a least entry. -/
theorem least?_isSome {f : α → Nat} {m : AssocMap κ α} (h : 0 < m.size) :
    ∃ e, m.least? f = some e := by
  cases hl : m.least? f with
  | some e => exact ⟨e, rfl⟩
  | none =>
      have hnil : m.entries = [] := List.argmin_eq_none.mp hl
      rw [size, hnil] at h
      exact absurd h (Nat.lt_irrefl 0)

variable [DecidableEq κ]

def get? (m : AssocMap κ α) (k : κ) : Option α := (m.entries.find? fun e => e.1 == k).map (·.2)

def erase (m : AssocMap κ α) (k : κ) : AssocMap κ α where
  entries := m.entries.filter fun e => e.1 ≠ k
  nodup := (List.Sublist.map _ List.filter_sublist).nodup m.nodup

def insert (m : AssocMap κ α) (k : κ) (v : α) : AssocMap κ α where
  entries := (k, v) :: (m.erase k).entries
  nodup := by
    rw [List.map_cons, List.nodup_cons]
    refine ⟨?_, (m.erase k).nodup⟩
    intro hmem
    obtain ⟨e, he, hk⟩ := List.mem_map.mp hmem
    exact of_decide_eq_true (List.mem_filter.mp he).2 hk

/-! ## Lookups -/

/-- A key holds the value of its one entry. -/
theorem get?_eq_some_iff (m : AssocMap κ α) (k : κ) (v : α) :
    m.get? k = some v ↔ (k, v) ∈ m.entries := by
  obtain ⟨entries, hnd⟩ := m
  show (entries.find? fun e => e.1 == k).map (·.2) = some v ↔ (k, v) ∈ entries
  induction entries with
  | nil => simp
  | cons e rest ih =>
      rw [List.map_cons, List.nodup_cons] at hnd
      by_cases he : e.1 = k
      · -- The key is the one of the first entry, and of no other.
        have hrest : (k, v) ∉ rest := by
          intro hmem
          exact hnd.1 (List.mem_map.mpr ⟨(k, v), hmem, he.symm⟩)
        rw [List.find?_cons_of_pos (by simpa using he), Option.map_some, List.mem_cons]
        constructor
        · intro h
          exact .inl (Prod.ext he.symm (Option.some.inj h).symm)
        · rintro (h | h)
          · rw [← h]
          · exact absurd h hrest
      · rw [List.find?_cons_of_neg (by simpa using he), ih hnd.2, List.mem_cons]
        constructor
        · exact .inr
        · rintro (h | h)
          · exact absurd (congrArg Prod.fst h).symm he
          · exact h

/-- A key without an entry holds nothing. -/
theorem get?_eq_none_iff (m : AssocMap κ α) (k : κ) :
    m.get? k = none ↔ ∀ e ∈ m.entries, e.1 ≠ k := by
  show (m.entries.find? fun e => e.1 == k).map (·.2) = none ↔ _
  rw [Option.map_eq_none_iff, List.find?_eq_none]
  simp

/-- Two maps with the same entries at a key agree there. -/
theorem get?_ext {m n : AssocMap κ α} {k : κ}
    (h : ∀ v, (k, v) ∈ m.entries ↔ (k, v) ∈ n.entries) : m.get? k = n.get? k := by
  apply Option.ext
  intro v
  rw [get?_eq_some_iff, get?_eq_some_iff, h]

@[simp] theorem get?_erase_self (m : AssocMap κ α) (k : κ) : (m.erase k).get? k = none := by
  rw [get?_eq_none_iff]
  intro e he
  exact of_decide_eq_true (List.mem_filter.mp he).2

/-- Removing one key leaves the others. -/
theorem get?_erase_of_ne {k j : κ} (h : j ≠ k) (m : AssocMap κ α) :
    (m.erase k).get? j = m.get? j := by
  apply get?_ext
  intro v
  simp [erase, h]

@[simp] theorem get?_insert_self (m : AssocMap κ α) (k : κ) (v : α) :
    (m.insert k v).get? k = some v := by
  rw [get?_eq_some_iff]
  exact List.mem_cons_self

/-- Writing one key leaves the others. -/
theorem get?_insert_of_ne {k j : κ} (h : j ≠ k) (m : AssocMap κ α) (v : α) :
    (m.insert k v).get? j = m.get? j := by
  rw [← get?_erase_of_ne h m]
  apply get?_ext
  intro w
  simp [insert, h]

/-- An entry after an insertion is the new one, or was there under another key. -/
theorem mem_insert {m : AssocMap κ α} {k : κ} {v : α} {e : κ × α} (h : e ∈ (m.insert k v).entries) :
    e = (k, v) ∨ e ∈ m.entries := by
  rcases List.mem_cons.mp h with h | h
  · exact .inl h
  · exact .inr (List.mem_filter.mp h).1

/-- Removing a key adds no entry. -/
theorem mem_erase {m : AssocMap κ α} {k : κ} {e : κ × α} (h : e ∈ (m.erase k).entries) :
    e ∈ m.entries :=
  (List.mem_filter.mp h).1

/-! ## Sizes and totals -/

/-- Removing a key that is not there changes nothing. -/
theorem erase_of_none {m : AssocMap κ α} {k : κ} (h : m.get? k = none) :
    (m.erase k).entries = m.entries := by
  rw [get?_eq_none_iff] at h
  exact List.filter_eq_self.mpr fun e he => decide_eq_true (h e he)

/-- The entries are those of the other keys and the one that is erased. -/
theorem perm_erase {m : AssocMap κ α} {k : κ} {v : α} (h : m.get? k = some v) :
    m.entries.Perm ((k, v) :: (m.erase k).entries) := by
  rw [get?_eq_some_iff] at h
  obtain ⟨entries, hnd⟩ := m
  show entries.Perm ((k, v) :: entries.filter fun e => e.1 ≠ k)
  have hmem : (k, v) ∈ entries := h
  induction entries with
  | nil => exact absurd hmem List.not_mem_nil
  | cons e rest ih =>
      rw [List.map_cons, List.nodup_cons] at hnd
      rcases List.mem_cons.mp hmem with heq | hrest
      · subst heq
        have hkeep : rest.filter (fun e => e.1 ≠ k) = rest := by
          refine List.filter_eq_self.mpr fun e he => decide_eq_true fun hk => ?_
          exact hnd.1 (List.mem_map.mpr ⟨e, he, hk⟩)
        rw [List.filter_cons_of_neg (by simp), hkeep]
      · have hne : e.1 ≠ k := by
          intro hk
          exact hnd.1 (List.mem_map.mpr ⟨(k, v), hrest, hk.symm⟩)
        rw [List.filter_cons_of_pos (by simpa using hne)]
        exact ((ih hnd.2 hrest hrest).cons e).trans (List.Perm.swap _ _ _)

theorem size_erase {m : AssocMap κ α} {k : κ} {v : α} (h : m.get? k = some v) :
    (m.erase k).size + 1 = m.size :=
  (perm_erase h).length_eq.symm

/-- A new key is one more entry. -/
theorem size_insert_new {m : AssocMap κ α} {k : κ} (h : m.get? k = none) (v : α) :
    (m.insert k v).size = m.size + 1 := by
  show ((k, v) :: (m.erase k).entries).length = _
  rw [erase_of_none h]
  rfl

/-- A key that was there is not. -/
theorem size_insert_old {m : AssocMap κ α} {k : κ} {w : α} (h : m.get? k = some w) (v : α) :
    (m.insert k v).size = m.size :=
  (size_erase h : (m.erase k).entries.length + 1 = m.size)

/-- Removing a key takes its value off the total. -/
theorem total_erase (f : α → Nat) {m : AssocMap κ α} {k : κ} {v : α} (h : m.get? k = some v) :
    f v + (m.erase k).total f = m.total f := by
  have hperm := (perm_erase h).map fun e => f e.2
  exact hperm.sum_nat.symm

/-- Removing a key that is not there leaves the total. -/
theorem total_erase_none (f : α → Nat) {m : AssocMap κ α} {k : κ} (h : m.get? k = none) :
    (m.erase k).total f = m.total f := by
  rw [total, erase_of_none h]
  rfl

theorem total_insert (f : α → Nat) (m : AssocMap κ α) (k : κ) (v : α) :
    (m.insert k v).total f = f v + (m.erase k).total f := rfl

theorem get?_of_least? {f : α → Nat} {m : AssocMap κ α} {e : κ × α} (h : m.least? f = some e) :
    m.get? e.1 = some e.2 :=
  (get?_eq_some_iff m e.1 e.2).mpr (List.argmin_mem h)

end AssocMap

end AssocMaps
