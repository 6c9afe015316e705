import GreenticRunner.FinMap

/-! # Counters with a recency bound

    A table that counts events per key and tracks at most `cap` keys: recording
    a new key in a full table drops the LEAST RECENTLY RECORDED one.

    * `record_recent` — a key keeps its count while fewer than `cap` other keys
      are recorded;
    * `records_evict` — `cap` other keys push it out. -/

namespace RecencyTable

open FinMaps

variable {κ : Type} [DecidableEq κ]

/-- The counts, and their keys from the least to the most recently recorded. -/
structure Table (κ : Type) [DecidableEq κ] where
  counts : FinMap κ Nat
  order : List κ
  nodup : order.Nodup
  mem_order : ∀ k, k ∈ order ↔ k ∈ counts.keys

namespace Table

/-- The table that tracks nothing. -/
def empty : Table κ := ⟨.empty, [], .nil, fun k => by simp [FinMap.empty]⟩

/-- The count of a key, `0` when it is not tracked. -/
def count (t : Table κ) (k : κ) : Nat := t.counts.count k

end Table

/-- Drop the oldest keys until there is room for one more. -/
def dropOldest (cap : Nat) : FinMap κ Nat → List κ → FinMap κ Nat × List κ
  | counts, [] => (counts, [])
  | counts, oldest :: rest =>
      if cap ≤ counts.keys.card then dropOldest cap (counts.erase oldest) rest
      else (counts, oldest :: rest)

/-- The counts and the order when `k` is about to be recorded. -/
def makeRoom (cap : Nat) (t : Table κ) (k : κ) : FinMap κ Nat × List κ :=
  if k ∈ t.counts.keys then (t.counts, t.order.erase k) else dropOldest cap t.counts t.order

/-! ## The tracked keys -/

theorem erase_keys (counts : FinMap κ Nat) {oldest : κ} {rest : List κ}
    (hnd : (oldest :: rest).Nodup) (hmem : ∀ k, k ∈ oldest :: rest ↔ k ∈ counts.keys) :
    rest.Nodup ∧ ∀ k, k ∈ rest ↔ k ∈ (counts.erase oldest).keys := by
  obtain ⟨hnot, hrest⟩ := List.nodup_cons.mp hnd
  refine ⟨hrest, ?_⟩
  intro k
  show k ∈ rest ↔ k ∈ counts.keys.erase oldest
  rw [Finset.mem_erase, ← hmem k, List.mem_cons]
  constructor
  · intro hk
    refine ⟨?_, Or.inr hk⟩
    rintro rfl
    exact hnot hk
  · rintro ⟨hne, rfl | hk⟩
    · exact absurd rfl hne
    · exact hk

/-- Dropping keeps each key once, and only loses keys. -/
theorem dropOldest_tracked (cap : Nat) : ∀ (order : List κ) (counts : FinMap κ Nat),
    order.Nodup → (∀ k, k ∈ order ↔ k ∈ counts.keys) →
    (dropOldest cap counts order).2.Nodup
      ∧ (∀ k, k ∈ (dropOldest cap counts order).2 ↔ k ∈ (dropOldest cap counts order).1.keys)
      ∧ (dropOldest cap counts order).2 ⊆ order := by
  intro order
  induction order with
  | nil =>
      intro counts hnd hmem
      exact ⟨hnd, hmem, List.Subset.refl _⟩
  | cons oldest rest ih =>
      intro counts hnd hmem
      unfold dropOldest
      by_cases hfull : cap ≤ counts.keys.card
      · rw [if_pos hfull]
        obtain ⟨hrest, hmem'⟩ := erase_keys counts hnd hmem
        obtain ⟨h1, h2, h3⟩ := ih (counts.erase oldest) hrest hmem'
        exact ⟨h1, h2, fun k hk => List.mem_cons_of_mem _ (h3 hk)⟩
      · rw [if_neg hfull]
        exact ⟨hnd, hmem, List.Subset.refl _⟩

theorem card_keys {counts : FinMap κ Nat} {order : List κ} (hnd : order.Nodup)
    (hmem : ∀ k, k ∈ order ↔ k ∈ counts.keys) : counts.keys.card = order.length := by
  have hset : counts.keys = order.toFinset := by
    ext k
    rw [List.mem_toFinset, hmem]
  rw [hset, List.toFinset_card_of_nodup hnd]

/-- A key near enough to the recent end is not dropped. -/
theorem dropOldest_keeps (cap : Nat) (j : κ) (post : List κ) (hpost : post.length + 1 < cap) :
    ∀ (pre : List κ) (counts : FinMap κ Nat), (pre ++ j :: post).Nodup →
      (∀ k, k ∈ pre ++ j :: post ↔ k ∈ counts.keys) →
      ∃ pre', (dropOldest cap counts (pre ++ j :: post)).2 = pre' ++ j :: post
        ∧ (dropOldest cap counts (pre ++ j :: post)).1.count j = counts.count j := by
  intro pre
  induction pre with
  | nil =>
      intro counts hnd hmem
      have hcard := card_keys hnd hmem
      have hroom : ¬ cap ≤ counts.keys.card := by
        rw [hcard, List.nil_append, List.length_cons]
        omega
      refine ⟨[], ?_⟩
      rw [List.nil_append, dropOldest, if_neg hroom]
      exact ⟨rfl, rfl⟩
  | cons oldest pre ih =>
      intro counts hnd hmem
      rw [List.cons_append] at hnd hmem ⊢
      unfold dropOldest
      by_cases hfull : cap ≤ counts.keys.card
      · rw [if_pos hfull]
        obtain ⟨hrest, hmem'⟩ := erase_keys counts hnd hmem
        obtain ⟨pre', horder, hcount⟩ := ih (counts.erase oldest) hrest hmem'
        refine ⟨pre', horder, ?_⟩
        rw [hcount]
        have hne : j ≠ oldest := by
          rintro rfl
          exact (List.nodup_cons.mp hnd).1 (by simp)
        simp [FinMap.count, hne]
      · rw [if_neg hfull]
        exact ⟨oldest :: pre, rfl, rfl⟩

theorem dropOldest_count_le (cap : Nat) (j : κ) : ∀ (order : List κ) (counts : FinMap κ Nat),
    (dropOldest cap counts order).1.count j ≤ counts.count j := by
  intro order
  induction order with
  | nil =>
      intro counts
      exact Nat.le_refl _
  | cons oldest rest ih =>
      intro counts
      unfold dropOldest
      by_cases hfull : cap ≤ counts.keys.card
      · rw [if_pos hfull]
        refine (ih (counts.erase oldest)).trans ?_
        by_cases hj : j = oldest <;> simp [FinMap.count, hj]
      · rw [if_neg hfull]

/-- `makeRoom` leaves `k` out of the order and tracks every other key once. -/
theorem makeRoom_tracked (cap : Nat) (t : Table κ) (k : κ) :
    (makeRoom cap t k).2.Nodup ∧ k ∉ (makeRoom cap t k).2
      ∧ ∀ j, j ≠ k → (j ∈ (makeRoom cap t k).2 ↔ j ∈ (makeRoom cap t k).1.keys) := by
  unfold makeRoom
  by_cases hk : k ∈ t.counts.keys
  · rw [if_pos hk]
    refine ⟨t.nodup.erase k, t.nodup.not_mem_erase, ?_⟩
    intro j hj
    rw [List.mem_erase_of_ne hj, t.mem_order]
  · rw [if_neg hk]
    obtain ⟨hnd, hmem, hsub⟩ := dropOldest_tracked cap t.order t.counts t.nodup t.mem_order
    refine ⟨hnd, ?_, fun j _ => hmem j⟩
    intro h
    exact hk ((t.mem_order k).mp (hsub h))

namespace Table

/-- Count one more event of `k`, which becomes the most recent key. -/
def record (cap : Nat) (t : Table κ) (k : κ) : Table κ where
  counts := (makeRoom cap t k).1.insert k ((makeRoom cap t k).1.count k + 1)
  order := (makeRoom cap t k).2 ++ [k]
  nodup := by
    obtain ⟨hnd, hk, -⟩ := makeRoom_tracked cap t k
    rw [List.nodup_append]
    refine ⟨hnd, List.nodup_singleton k, ?_⟩
    intro a ha b hb
    rw [List.mem_singleton.mp hb]
    rintro rfl
    exact hk ha
  mem_order := by
    intro j
    obtain ⟨-, -, hmem⟩ := makeRoom_tracked cap t k
    rw [List.mem_append, List.mem_singleton]
    show _ ↔ j ∈ Insert.insert k _
    rw [Finset.mem_insert]
    by_cases hj : j = k
    · simp [hj]
    · simp [hj, hmem j hj]

/-- Forget `k`. -/
def clear (t : Table κ) (k : κ) : Table κ where
  counts := t.counts.erase k
  order := t.order.filter (· ≠ k)
  nodup := t.nodup.filter _
  mem_order := by
    intro j
    show _ ↔ j ∈ t.counts.keys.erase k
    rw [List.mem_filter, Finset.mem_erase, t.mem_order j, decide_eq_true_iff]
    exact And.comm

/-- Recording counts the key once more, whatever is dropped for it. -/
theorem count_record (cap : Nat) (t : Table κ) (k : κ) :
    (t.record cap k).count k = t.count k + 1 := by
  have hroom : (makeRoom cap t k).1.count k = t.counts.count k := by
    unfold makeRoom
    by_cases hk : k ∈ t.counts.keys
    · rw [if_pos hk]
    · rw [if_neg hk]
      obtain ⟨-, hmem, hsub⟩ := dropOldest_tracked cap t.order t.counts t.nodup t.mem_order
      have hgone : k ∉ (dropOldest cap t.counts t.order).1.keys := by
        intro h
        exact hk ((t.mem_order k).mp (hsub ((hmem k).mpr h)))
      rw [FinMap.count_eq_zero_of_not_mem _ hgone, FinMap.count_eq_zero_of_not_mem _ hk]
  show ((makeRoom cap t k).1.insert k _).count k = _
  rw [FinMap.count_insert_self, hroom]
  rfl

/-- Recording another key never raises a count. -/
theorem count_record_le (cap : Nat) (t : Table κ) {j k : κ} (h : j ≠ k) :
    (t.record cap k).count j ≤ t.count j := by
  show ((makeRoom cap t k).1.insert k _).count j ≤ _
  rw [FinMap.count_insert_ne _ h]
  unfold makeRoom
  by_cases hk : k ∈ t.counts.keys
  · rw [if_pos hk]
    exact Nat.le_refl _
  · rw [if_neg hk]
    exact dropOldest_count_le cap j t.order t.counts

@[simp] theorem count_clear_self (t : Table κ) (k : κ) : (t.clear k).count k = 0 := by
  simp [count, clear, FinMap.count]

theorem count_clear_ne (t : Table κ) {j k : κ} (h : j ≠ k) : (t.clear k).count j = t.count j := by
  simp [count, clear, FinMap.count, h]

/-- `j` is tracked and every key recorded after it lies in `later`. -/
def Recent (t : Table κ) (j : κ) (later : Finset κ) : Prop :=
  ∃ pre post, t.order = pre ++ j :: post ∧ ∀ k ∈ post, k ∈ later

theorem recent_record_self (cap : Nat) (t : Table κ) (j : κ) : (t.record cap j).Recent j ∅ :=
  ⟨_, [], rfl, fun _ h => nomatch h⟩

theorem post_length_le {post : List κ} {later : Finset κ} (hnd : post.Nodup)
    (h : ∀ k ∈ post, k ∈ later) : post.length ≤ later.card := by
  rw [← List.toFinset_card_of_nodup hnd]
  refine Finset.card_le_card ?_
  intro k hk
  exact h k (List.mem_toFinset.mp hk)

/-- **RECENCY**: while fewer than `cap` other keys are recorded, a key keeps its
    place and its count. -/
theorem record_recent {cap : Nat} {t : Table κ} {j k : κ} {later : Finset κ}
    (h : t.Recent j later) (hk : k ≠ j) (hcap : (insert k later).card < cap) :
    (t.record cap k).Recent j (insert k later) ∧ (t.record cap k).count j = t.count j := by
  obtain ⟨pre, post, horder, hpost⟩ := h
  have hnd := t.nodup
  rw [horder] at hnd
  have hj : j ≠ k := fun e => hk e.symm
  have hlater : ∀ x, x ∈ post ++ [k] → x ∈ insert k later := by
    intro x hx
    rcases List.mem_append.mp hx with hx | hx
    · exact Finset.mem_insert_of_mem (hpost x hx)
    · rw [List.mem_singleton.mp hx]
      exact Finset.mem_insert_self k later
  have hcount : ∀ c : FinMap κ Nat, c.count j = t.counts.count j →
      (c.insert k (c.count k + 1)).count j = t.count j := by
    intro c hc
    rw [FinMap.count_insert_ne _ hj]
    exact hc
  by_cases htracked : k ∈ t.counts.keys
  · -- the key moves to the recent end; `j` stays in front of it
    have hroom : makeRoom cap t k = (t.counts, t.order.erase k) := by
      rw [makeRoom, if_pos htracked]
    refine ⟨?_, ?_⟩
    · unfold Recent
      show ∃ pre post, (makeRoom cap t k).2 ++ [k] = pre ++ j :: post ∧ _
      rw [hroom, horder]
      by_cases hpre : k ∈ pre
      · refine ⟨pre.erase k, post ++ [k], ?_, hlater⟩
        rw [List.erase_append_left _ hpre]
        simp
      · refine ⟨pre, post.erase k ++ [k], ?_, ?_⟩
        · rw [List.erase_append_right _ hpre, List.erase_cons_tail (by simpa using hj)]
          simp
        · intro x hx
          rcases List.mem_append.mp hx with hx | hx
          · exact hlater x (List.mem_append_left _ (List.mem_of_mem_erase hx))
          · exact hlater x (List.mem_append_right _ hx)
    · show ((makeRoom cap t k).1.insert k _).count j = _
      rw [hroom]
      exact hcount t.counts rfl
  · have hroom : makeRoom cap t k = dropOldest cap t.counts t.order := by
      rw [makeRoom, if_neg htracked]
    -- `k` is new, so the keys after `j` and `k` itself are distinct members of the set
    have hshort : post.length + 1 < cap := by
      have hknot : k ∉ post := by
        intro hin
        exact htracked ((t.mem_order k).mp (by rw [horder]; simp [hin]))
      have hndpost : (post ++ [k]).Nodup := by
        rw [List.nodup_append]
        refine ⟨((List.nodup_append.mp hnd).2.1).of_cons, List.nodup_singleton k, ?_⟩
        intro a ha b hb
        rw [List.mem_singleton.mp hb]
        rintro rfl
        exact hknot ha
      have hle := post_length_le hndpost hlater
      rw [List.length_append, List.length_singleton] at hle
      omega
    have hmem := t.mem_order
    rw [horder] at hmem
    obtain ⟨pre', horder', hcount'⟩ := dropOldest_keeps cap j post hshort pre t.counts hnd hmem
    refine ⟨?_, ?_⟩
    · unfold Recent
      show ∃ pre post, (makeRoom cap t k).2 ++ [k] = pre ++ j :: post ∧ _
      rw [hroom, horder, horder']
      exact ⟨pre', post ++ [k], by simp, hlater⟩
    · show ((makeRoom cap t k).1.insert k _).count j = _
      rw [hroom]
      refine hcount _ ?_
      rw [horder, hcount']

/-- Forgetting another key keeps the place and the count of `j`. -/
theorem clear_recent {t : Table κ} {j k : κ} {later : Finset κ} (h : t.Recent j later)
    (hk : k ≠ j) : (t.clear k).Recent j later := by
  obtain ⟨pre, post, horder, hpost⟩ := h
  refine ⟨pre.filter (· ≠ k), post.filter (· ≠ k), ?_, ?_⟩
  · show t.order.filter _ = _
    rw [horder, List.filter_append, List.filter_cons_of_pos (by simpa using fun e => hk e.symm)]
  · intro x hx
    exact hpost x (List.mem_of_mem_filter hx)

/-- Several keys recorded one after the other. -/
def records (cap : Nat) (t : Table κ) (ks : List κ) : Table κ := ks.foldl (record cap) t

/-- New keys line up behind the tracked ones while there is room. -/
theorem records_order (cap : Nat) : ∀ (ks : List κ) (t : Table κ), (t.order ++ ks).Nodup →
    (t.order ++ ks).length ≤ cap → (t.records cap ks).order = t.order ++ ks := by
  intro ks
  induction ks with
  | nil =>
      intro t _ _
      exact (List.append_nil _).symm
  | cons k ks ih =>
      intro t hnd hlen
      have hnew : k ∉ t.counts.keys := by
        rw [← t.mem_order]
        intro hin
        exact (List.nodup_append.mp hnd).2.2 k hin k (by simp) rfl
      have hroom : ¬ cap ≤ t.counts.keys.card := by
        rw [card_keys t.nodup t.mem_order]
        rw [List.length_append, List.length_cons] at hlen
        omega
      have horder : (t.record cap k).order = t.order ++ [k] := by
        show (makeRoom cap t k).2 ++ [k] = _
        rw [makeRoom, if_neg hnew]
        cases ht : t.order with
        | nil => rfl
        | cons oldest rest => rw [dropOldest, if_neg hroom]
      have hsplit : t.order ++ k :: ks = (t.order ++ [k]) ++ ks := by simp
      show ((t.record cap k).records cap ks).order = _
      rw [hsplit, ← horder]
      rw [hsplit, ← horder] at hnd hlen
      exact ih (t.record cap k) hnd hlen

/-- **EVICTION**: from a table that tracks only `j`, recording `cap` other keys
    pushes it out. -/
theorem records_evict {cap : Nat} {t : Table κ} {j k : κ} {ks : List κ} (horder : t.order = [j])
    (hnd : (j :: (ks ++ [k])).Nodup) (hlen : ks.length + 1 = cap) :
    (t.records cap (ks ++ [k])).count j = 0 := by
  have hnd' : (t.order ++ ks).Nodup := by
    rw [horder]
    exact hnd.sublist (by simp)
  have hfull := records_order cap ks t hnd' (by rw [horder]; simp; omega)
  rw [horder, List.singleton_append] at hfull
  have hlast : t.records cap (ks ++ [k]) = (t.records cap ks).record cap k := by
    rw [records, List.foldl_append]
    rfl
  rw [hlast]
  generalize t.records cap ks = u at hfull
  have hnew : k ∉ u.counts.keys := by
    rw [← u.mem_order, hfull]
    intro hin
    have happ : (j :: ks ++ [k]).Nodup := hnd
    exact (List.nodup_append.mp happ).2.2 k hin k (by simp) rfl
  have hcard : u.counts.keys.card = cap := by
    rw [card_keys u.nodup u.mem_order, hfull, List.length_cons, hlen]
  -- `j` is the oldest key of a full table; what is left has room
  have hgone : j ∉ (u.record cap k).order := by
    show j ∉ (makeRoom cap u k).2 ++ [k]
    rw [makeRoom, if_neg hnew, hfull, dropOldest, if_pos (le_of_eq hcard.symm)]
    intro hin
    obtain ⟨hnotks, -⟩ := List.nodup_cons.mp hnd
    rcases List.mem_append.mp hin with hin | hin
    · have hu := u.nodup
      have hm := u.mem_order
      rw [hfull] at hu hm
      obtain ⟨hrest, hmem⟩ := erase_keys u.counts hu hm
      have hsub := (dropOldest_tracked cap ks (u.counts.erase j) hrest hmem).2.2
      exact hnotks (List.mem_append_left _ (hsub hin))
    · exact hnotks (List.mem_append_right _ hin)
  rw [(u.record cap k).mem_order] at hgone
  exact FinMap.count_eq_zero_of_not_mem _ hgone

end Table

end RecencyTable
