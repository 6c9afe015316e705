import GreenticRunner.AssocMap
import GreenticRunner.Transition

/-! # The component cache in memory

    `MemoryCache` keeps compiled components under a byte limit.  An insert that goes over it
    evicts from the back of the recency list, in two passes; what a pass may not evict it
    ROTATES to the front, and counts its attempts so that it looks at each key once.

    * `Consistent` — the recency list and the byte count say what the entries are;
    * `Scanned` — what is in front of the part that a pass has still to look at;
    * `memory_cache_invariant` — the invariants over every sequence of calls.

    Every entry carries the moment of its last insert or hit, and every eviction is logged
    with the entries there were; neither is read by the code. -/

namespace Greentic.ComponentCache

open AssocMaps Transition

/-- The largest `u64`. -/
def u64Max : Nat := 2 ^ 64 - 1

/-- `u64::saturating_add`. -/
def saturatingAdd (a b : Nat) : Nat := min (a + b) u64Max

variable {κ γ : Type} [DecidableEq κ]

/-- `CacheEntry`; `usedAt` is the moment of the last insert or hit. -/
structure CacheEntry (γ : Type) where
  component : γ
  bytesEstimate : Nat
  hitCount : Nat
  pinned : Bool
  usedAt : Nat

/-- An eviction, and the entries it was made among. -/
structure Eviction (κ γ : Type) where
  key : κ
  entries : AssocMap κ (CacheEntry γ)

/-- `MemoryState`, with a clock of the calls and the evictions so far. -/
structure MemoryState (κ γ : Type) where
  entries : AssocMap κ (CacheEntry γ)
  lru : List κ
  totalBytes : Nat
  hits : Nat
  misses : Nat
  evictions : Nat
  clock : Nat
  evicted : List (Eviction κ γ)

/-- `MemoryState::default`. -/
def MemoryState.default : MemoryState κ γ := ⟨.empty, [], 0, 0, 0, 0, 0, []⟩

/-- `MemoryCache`: the limit and the hits that protect an entry. -/
structure MemoryCache where
  maxBytes : Nat
  lfuProtectHits : Nat

/-- `remove_lru`. -/
def removeLru (lru : List κ) (key : κ) : List κ := lru.erase key

/-- `touch_lru`. -/
def touchLru (lru : List κ) (key : κ) : List κ := if key ∈ lru then key :: lru.erase key else lru

/-- `should_skip_candidate`, of the entry there is. -/
def CacheEntry.skipped (entry : CacheEntry γ) (protectLfu : Bool) (lfuThreshold : Nat) : Bool :=
  entry.pinned || (protectLfu && decide (0 < lfuThreshold) && decide (lfuThreshold ≤ entry.hitCount))

/-- `should_skip_candidate`. -/
def shouldSkipCandidate (s : MemoryState κ γ) (key : κ) (protectLfu : Bool) (lfuThreshold : Nat) :
    Bool :=
  match s.entries.get? key with
  | none => false
  | some entry => entry.skipped protectLfu lfuThreshold

/-- The removal of a candidate that was taken off the recency list. -/
def evict (s : MemoryState κ γ) (candidate : κ) : MemoryState κ γ :=
  match s.entries.get? candidate with
  | none => s
  | some entry =>
      { s with
        entries := s.entries.erase candidate
        totalBytes := s.totalBytes - entry.bytesEstimate
        evictions := saturatingAdd s.evictions 1
        evicted := s.evicted ++ [⟨candidate, s.entries⟩] }

namespace MemoryCache

/-- One of the two loops of `evict_if_needed`, by the attempts it has left. -/
def evictPass (c : MemoryCache) (protectLfu : Bool) : Nat → MemoryState κ γ → MemoryState κ γ
  | 0, s => s
  | attempts + 1, s =>
      if s.totalBytes > c.maxBytes then
        match s.lru.getLast? with
        | none => s
        | some candidate =>
            let popped := { s with lru := s.lru.dropLast }
            if shouldSkipCandidate popped candidate protectLfu c.lfuProtectHits then
              evictPass c protectLfu attempts { popped with lru := candidate :: popped.lru }
            else evictPass c protectLfu attempts (evict popped candidate)
      else s

/-- `evict_if_needed`. -/
def evictIfNeeded (c : MemoryCache) (s : MemoryState κ γ) : MemoryState κ γ :=
  if c.maxBytes = 0 then s
  else
    let s := c.evictPass true s.lru.length s
    if s.totalBytes ≤ c.maxBytes then s else c.evictPass false s.lru.length s

/-- `MemoryCache::get`. -/
def get (s : MemoryState κ γ) (key : κ) : Option γ × MemoryState κ γ :=
  match s.entries.get? key with
  | some entry =>
      (some entry.component,
        { s with
          entries := s.entries.insert key
            { entry with hitCount := saturatingAdd entry.hitCount 1, usedAt := s.clock }
          lru := touchLru s.lru key
          hits := saturatingAdd s.hits 1
          clock := s.clock + 1 })
  | none => (none, { s with misses := saturatingAdd s.misses 1, clock := s.clock + 1 })

/-- The part of `insert` before the eviction. -/
def put (s : MemoryState κ γ) (key : κ) (value : γ) (bytesEstimate : Nat) (pinned : Bool) :
    MemoryState κ γ :=
  let s := match s.entries.get? key with
    | some existing =>
        { s with
          entries := s.entries.erase key
          totalBytes := s.totalBytes - existing.bytesEstimate
          lru := removeLru s.lru key }
    | none => s
  { s with
    entries := s.entries.insert key ⟨value, bytesEstimate, 0, pinned, s.clock⟩
    totalBytes := saturatingAdd s.totalBytes bytesEstimate
    lru := key :: s.lru
    clock := s.clock + 1 }

/-- `MemoryCache::insert`. -/
def insert (c : MemoryCache) (s : MemoryState κ γ) (key : κ) (value : γ) (bytesEstimate : Nat)
    (pinned : Bool) : MemoryState κ γ :=
  c.evictIfNeeded (put s key value bytesEstimate pinned)

end MemoryCache

variable {s : MemoryState κ γ} {c : MemoryCache}

/-- The calls on a cache. -/
inductive Call (κ γ : Type) where
  | get (key : κ)
  | insert (key : κ) (value : γ) (bytesEstimate : Nat) (pinned : Bool)

/-- One call. -/
def step (c : MemoryCache) (s : MemoryState κ γ) : Call κ γ → Option (MemoryState κ γ)
  | .get key => some (MemoryCache.get s key).2
  | .insert key value bytesEstimate pinned => some (c.insert s key value bytesEstimate pinned)

/-- The sum of the estimates of all entries. -/
def estimates (entries : AssocMap κ (CacheEntry γ)) : Nat := entries.total (·.bytesEstimate)

/-- The estimates stay below `2 ^ 64`, the new one included. -/
def Fits (s : MemoryState κ γ) : Call κ γ → Prop
  | .get _ => True
  | .insert key _ bytesEstimate _ => estimates (s.entries.erase key) + bytesEstimate ≤ u64Max

/-! ## The recency list and the byte count -/

/-- The recency list has each key of the entries once and nothing else, and the count is the
    sum of the estimates. -/
structure Consistent (s : MemoryState κ γ) : Prop where
  nodup : s.lru.Nodup
  keys : ∀ k, k ∈ s.lru ↔ (s.entries.get? k).isSome
  bytes : s.totalBytes = estimates s.entries

theorem Consistent.perm (h : Consistent s) {lru : List κ}
    (hp : lru.Perm s.lru) : Consistent { s with lru := lru } where
  nodup := hp.nodup_iff.mpr h.nodup
  keys := fun k => hp.mem_iff.trans (h.keys k)
  bytes := h.bytes

/-- The state after a candidate was popped and removed. -/
theorem evict_of_get? {k : κ} {entry : CacheEntry γ}
    (h : s.entries.get? k = some entry) (lru : List κ) : evict { s with lru := lru } k =
      { s with
        lru := lru
        entries := s.entries.erase k
        totalBytes := s.totalBytes - entry.bytesEstimate
        evictions := saturatingAdd s.evictions 1
        evicted := s.evicted ++ [⟨k, s.entries⟩] } := by
  rw [evict]
  dsimp only
  rw [h]

theorem get?_erase_isSome (entries : AssocMap κ (CacheEntry γ)) (k j : κ) :
    ((entries.erase k).get? j).isSome ↔ j ≠ k ∧ (entries.get? j).isSome := by
  by_cases hj : j = k
  · subst hj
    rw [AssocMap.get?_erase_self]
    simp
  · rw [AssocMap.get?_erase_of_ne hj]
    simp [hj]

theorem Consistent.evict (h : Consistent s) {lru : List κ} {k : κ}
    (hlru : s.lru = lru ++ [k]) : Consistent (evict { s with lru := lru } k) := by
  have hnd := h.nodup
  rw [hlru] at hnd
  obtain ⟨hlnd, -, hdisj⟩ := List.nodup_append.mp hnd
  have hk : (s.entries.get? k).isSome := (h.keys k).mp (by rw [hlru]; simp)
  obtain ⟨entry, hentry⟩ := Option.isSome_iff_exists.mp hk
  rw [evict_of_get? hentry]
  constructor
  · exact hlnd
  · intro j
    show j ∈ lru ↔ ((s.entries.erase k).get? j).isSome
    rw [get?_erase_isSome, ← h.keys j, hlru, List.mem_append, List.mem_singleton]
    constructor
    · intro hj
      exact ⟨fun heq => hdisj j hj k (by simp) heq, Or.inl hj⟩
    · rintro ⟨hne, hj | hj⟩
      · exact hj
      · exact absurd hj hne
  · show s.totalBytes - entry.bytesEstimate = estimates (s.entries.erase k)
    rw [h.bytes, estimates, estimates, ← AssocMap.total_erase (·.bytesEstimate) hentry]
    exact Nat.add_sub_cancel_left ..

/-! ## What an insert or a hit does -/

/-- `key` has the fresh entry `e` and is in front, and nothing else has changed. -/
structure Refreshed (s s' : MemoryState κ γ) (key : κ) (e : CacheEntry γ) : Prop where
  lru : s'.lru = key :: s.lru.erase key
  self : s'.entries.get? key = some e
  others : ∀ j, j ≠ key → s'.entries.get? j = s.entries.get? j
  stamp : e.usedAt = s.clock
  clock : s'.clock = s.clock + 1
  evicted : s'.evicted = s.evicted

theorem get_refreshed (h : Consistent s) {key : κ} {entry : CacheEntry γ}
    (hentry : s.entries.get? key = some entry) : Refreshed s (MemoryCache.get s key).2 key
      { entry with hitCount := saturatingAdd entry.hitCount 1, usedAt := s.clock } := by
  have hmem : key ∈ s.lru := (h.keys key).mpr (by rw [hentry]; rfl)
  rw [MemoryCache.get, hentry]
  refine ⟨if_pos hmem, AssocMap.get?_insert_self .., ?_, rfl, rfl, rfl⟩
  intro j hj
  exact AssocMap.get?_insert_of_ne hj ..

theorem put_refreshed (h : Consistent s) (key : κ) (value : γ)
    (bytesEstimate : Nat) (pinned : Bool) : Refreshed s
      (MemoryCache.put s key value bytesEstimate pinned) key
      ⟨value, bytesEstimate, 0, pinned, s.clock⟩ := by
  cases hentry : s.entries.get? key with
  | some existing =>
      rw [MemoryCache.put, hentry]
      refine ⟨rfl, AssocMap.get?_insert_self .., ?_, rfl, rfl, rfl⟩
      intro j hj
      exact (AssocMap.get?_insert_of_ne hj ..).trans (AssocMap.get?_erase_of_ne hj _)
  | none =>
      have hnot : key ∉ s.lru := by
        rw [h.keys key, hentry]
        exact nofun
      rw [MemoryCache.put, hentry]
      refine ⟨?_, AssocMap.get?_insert_self .., ?_, rfl, rfl, rfl⟩
      · show key :: s.lru = key :: s.lru.erase key
        rw [List.erase_of_not_mem hnot]
      · intro j hj
        exact AssocMap.get?_insert_of_ne hj ..

/-- The keys after an insert or a hit. -/
theorem Refreshed.tracked {s s' : MemoryState κ γ} {key : κ} {e : CacheEntry γ}
    (h : Refreshed s s' key e) (hs : Consistent s) :
    s'.lru.Nodup ∧ ∀ k, k ∈ s'.lru ↔ (s'.entries.get? k).isSome := by
  rw [h.lru]
  refine ⟨List.nodup_cons.mpr ⟨hs.nodup.not_mem_erase, hs.nodup.erase key⟩, ?_⟩
  intro k
  by_cases hk : k = key
  · subst hk
    rw [h.self]
    simp
  · rw [h.others k hk, ← hs.keys k, List.mem_cons, List.mem_erase_of_ne hk]
    constructor
    · rintro (heq | hmem)
      · exact absurd heq hk
      · exact hmem
    · exact Or.inr

theorem Consistent.get (h : Consistent s) (key : κ) :
    Consistent (MemoryCache.get s key).2 := by
  cases hentry : s.entries.get? key with
  | some entry =>
      obtain ⟨hnd, hkeys⟩ := (get_refreshed h hentry).tracked h
      refine ⟨hnd, hkeys, ?_⟩
      rw [MemoryCache.get, hentry]
      show s.totalBytes = estimates (s.entries.insert key _)
      rw [h.bytes, estimates, estimates, AssocMap.total_insert,
        ← AssocMap.total_erase (·.bytesEstimate) hentry]
  | none =>
      rw [MemoryCache.get, hentry]
      exact ⟨h.nodup, h.keys, h.bytes⟩

/-- The byte count of an insert does not saturate while the estimates stay below the limit of
    the type. -/
theorem Consistent.put (h : Consistent s) {key : κ} {value : γ}
    {bytesEstimate : Nat} {pinned : Bool}
    (hfits : estimates (s.entries.erase key) + bytesEstimate ≤ u64Max) :
    Consistent (MemoryCache.put s key value bytesEstimate pinned) := by
  obtain ⟨hnd, hkeys⟩ := (put_refreshed h key value bytesEstimate pinned).tracked h
  refine ⟨hnd, hkeys, ?_⟩
  have hrest : (MemoryCache.put s key value bytesEstimate pinned).totalBytes =
      saturatingAdd (estimates (s.entries.erase key)) bytesEstimate := by
    cases hentry : s.entries.get? key with
    | some existing =>
        rw [MemoryCache.put, hentry]
        show saturatingAdd (s.totalBytes - existing.bytesEstimate) bytesEstimate = _
        rw [h.bytes, estimates, estimates, ← AssocMap.total_erase (·.bytesEstimate) hentry,
          Nat.add_sub_cancel_left]
    | none =>
        rw [MemoryCache.put, hentry]
        show saturatingAdd s.totalBytes bytesEstimate = _
        rw [h.bytes, estimates, estimates, AssocMap.total_erase_none _ hentry]
  have htotal : estimates (MemoryCache.put s key value bytesEstimate pinned).entries =
      bytesEstimate + estimates (s.entries.erase key) := by
    cases hentry : s.entries.get? key with
    | some existing =>
        rw [MemoryCache.put, hentry]
        show estimates ((s.entries.erase key).insert key _) = _
        rw [estimates, AssocMap.total_insert, AssocMap.total_erase_none _ (AssocMap.get?_erase_self ..)]
        rfl
    | none =>
        rw [MemoryCache.put, hentry]
        show estimates (s.entries.insert key _) = _
        rw [estimates, AssocMap.total_insert]
        rfl
  rw [hrest, htotal, saturatingAdd, Nat.min_eq_left hfits, Nat.add_comm]

/-! ## Cold entries and their order -/

/-- An unpinned entry below the threshold. -/
def CacheEntry.cold (threshold : Nat) (entry : CacheEntry γ) : Bool :=
  !entry.pinned && decide (entry.hitCount < threshold)

/-- No pass skips a cold entry. -/
theorem CacheEntry.cold_not_skipped {threshold : Nat} {entry : CacheEntry γ}
    (h : entry.cold threshold = true) (protectLfu : Bool) :
    entry.skipped protectLfu threshold = false := by
  unfold CacheEntry.cold at h
  unfold CacheEntry.skipped
  simp only [Bool.and_eq_true, Bool.not_eq_true', decide_eq_true_eq] at h
  rw [h.1, decide_eq_false (Nat.not_le.mpr h.2), Bool.and_false, Bool.or_false]

/-- Whether the entry of a key is cold. -/
def coldKey (threshold : Nat) (s : MemoryState κ γ) (key : κ) : Bool :=
  (s.entries.get? key).any (CacheEntry.cold threshold)

/-- The last use of a key. -/
def lastUse (s : MemoryState κ γ) (key : κ) : Nat := ((s.entries.get? key).map (·.usedAt)).getD 0

/-- The cold keys stand in the recency list from the most to the least recently used, and every
    use was before now. -/
structure Ordered (threshold : Nat) (s : MemoryState κ γ) : Prop where
  coldOrder : (s.lru.filter (coldKey threshold s)).Pairwise fun a b => lastUse s b < lastUse s a
  past : ∀ k, k ∈ s.lru → lastUse s k < s.clock

/-- An eviction took an unpinned entry; a protected one only where no cold entry was left, a cold
    one only where every other cold entry was used later. -/
structure Eviction.Fair (threshold : Nat) (ev : Eviction κ γ) (entry : CacheEntry γ) : Prop where
  found : ev.entries.get? ev.key = some entry
  unpinned : entry.pinned = false
  protectedLast : threshold ≤ entry.hitCount →
    ∀ k e, ev.entries.get? k = some e → e.cold threshold = false
  oldestFirst : entry.hitCount < threshold → ∀ k e, k ≠ ev.key → ev.entries.get? k = some e →
    e.cold threshold = true → entry.usedAt < e.usedAt

/-- The invariant of the cache. -/
structure Inv (c : MemoryCache) (s : MemoryState κ γ) : Prop where
  consistent : Consistent s
  ordered : Ordered c.lfuProtectHits s
  fair : ∀ ev ∈ s.evicted, ∃ entry, ev.Fair c.lfuProtectHits entry

/-- An insert or a hit puts its key in front. -/
theorem Refreshed.ordered {threshold : Nat} {s s' : MemoryState κ γ} {key : κ} {e : CacheEntry γ}
    (h : Refreshed s s' key e) (hs : Consistent s) (ho : Ordered threshold s) :
    Ordered threshold s' := by
  have hother : ∀ j ∈ s.lru.erase key, coldKey threshold s' j = coldKey threshold s j ∧
      lastUse s' j = lastUse s j ∧ j ∈ s.lru := by
    intro j hj
    have hne : j ≠ key := fun heq => hs.nodup.not_mem_erase (heq ▸ hj)
    rw [coldKey, coldKey, lastUse, lastUse, h.others j hne]
    exact ⟨rfl, rfl, List.mem_of_mem_erase hj⟩
  have hself : lastUse s' key = s.clock := by
    rw [lastUse, h.self]
    exact h.stamp
  have hrest : ((s.lru.erase key).filter (coldKey threshold s')).Pairwise
      fun a b => lastUse s' b < lastUse s' a := by
    rw [List.filter_congr fun j hj => (hother j hj).1]
    have hsub : ((s.lru.erase key).filter (coldKey threshold s)).Sublist
        (s.lru.filter (coldKey threshold s)) := List.erase_sublist.filter _
    refine (ho.coldOrder.sublist hsub).imp_of_mem ?_
    intro a b ha hb hab
    rw [(hother a (List.mem_of_mem_filter ha)).2.1, (hother b (List.mem_of_mem_filter hb)).2.1]
    exact hab
  constructor
  · rw [h.lru, List.filter_cons]
    split
    · refine List.pairwise_cons.mpr ⟨?_, hrest⟩
      intro b hb
      obtain ⟨-, huse, hmem⟩ := hother b (List.mem_of_mem_filter hb)
      rw [hself, huse]
      exact ho.past b hmem
    · exact hrest
  · intro k hk
    rw [h.lru] at hk
    rw [h.clock]
    rcases List.mem_cons.mp hk with rfl | hk
    · rw [hself]
      exact Nat.lt_succ_self _
    · obtain ⟨-, huse, hmem⟩ := hother k hk
      rw [huse]
      exact Nat.lt_succ_of_lt (ho.past k hmem)

theorem Inv.get (h : Inv c s) (key : κ) :
    Inv c (MemoryCache.get s key).2 := by
  cases hentry : s.entries.get? key with
  | some entry =>
      have href := get_refreshed h.consistent hentry
      refine ⟨h.consistent.get key, href.ordered h.consistent h.ordered, ?_⟩
      rw [href.evicted]
      exact h.fair
  | none =>
      have hcon := h.consistent.get key
      rw [MemoryCache.get, hentry] at hcon ⊢
      exact ⟨hcon, ⟨h.ordered.coldOrder, fun k hk => Nat.lt_succ_of_lt (h.ordered.past k hk)⟩, h.fair⟩

theorem Inv.put (h : Inv c s) {key : κ} {value : γ}
    {bytesEstimate : Nat} {pinned : Bool}
    (hfits : estimates (s.entries.erase key) + bytesEstimate ≤ u64Max) :
    Inv c (MemoryCache.put s key value bytesEstimate pinned) := by
  have href := put_refreshed h.consistent key value bytesEstimate pinned
  refine ⟨h.consistent.put hfits, href.ordered h.consistent h.ordered, ?_⟩
  rw [href.evicted]
  exact h.fair

/-! ## A pass -/

theorem shouldSkipCandidate_of_get? {k : κ} {entry : CacheEntry γ}
    (h : s.entries.get? k = some entry) (protectLfu : Bool) (threshold : Nat) :
    shouldSkipCandidate s k protectLfu threshold = entry.skipped protectLfu threshold := by
  rw [shouldSkipCandidate, h]

/-- A candidate that is skipped goes to the front. -/
theorem Inv.rotate (h : Inv c s) {lru : List κ} {k : κ}
    {protectLfu : Bool} (hlru : s.lru = lru ++ [k])
    (hskip : shouldSkipCandidate s k protectLfu c.lfuProtectHits = true) :
    Inv c { s with lru := k :: lru } := by
  have hperm : (k :: lru).Perm s.lru := by
    rw [hlru]
    exact (List.perm_append_singleton k lru).symm
  have hcold : coldKey c.lfuProtectHits s k = false := by
    cases hentry : s.entries.get? k with
    | none => rw [coldKey, hentry]; rfl
    | some entry =>
        rw [shouldSkipCandidate_of_get? hentry] at hskip
        rw [coldKey, hentry]
        cases hc : entry.cold c.lfuProtectHits with
        | false => exact hc
        | true =>
            rw [CacheEntry.cold_not_skipped hc protectLfu] at hskip
            exact nomatch hskip
  refine ⟨h.consistent.perm hperm, ⟨?_, ?_⟩, h.fair⟩
  · -- the rotated key is not among the cold ones
    show ((k :: lru).filter (coldKey c.lfuProtectHits s)).Pairwise fun a b => lastUse s b < lastUse s a
    have hsame : (k :: lru).filter (coldKey c.lfuProtectHits s) = s.lru.filter (coldKey c.lfuProtectHits s) := by
      rw [hlru, List.filter_append, List.filter_cons_of_neg (by rw [hcold]; exact nofun),
        List.filter_cons_of_neg (by rw [hcold]; exact nofun), List.filter_nil, List.append_nil]
    rw [hsame]
    exact h.ordered.coldOrder
  · intro j hj
    exact h.ordered.past j (hperm.mem_iff.mp hj)

/-- A candidate that is not skipped is evicted, fairly. -/
theorem Inv.evict (h : Inv c s) {lru : List κ} {k : κ}
    {protectLfu : Bool} (hlru : s.lru = lru ++ [k])
    (hkeep : shouldSkipCandidate s k protectLfu c.lfuProtectHits = false)
    (hwarm : protectLfu = true ∨ ∀ j e, s.entries.get? j = some e → e.cold c.lfuProtectHits = false) :
    Inv c (evict { s with lru := lru } k) := by
  have hk : (s.entries.get? k).isSome := (h.consistent.keys k).mp (by rw [hlru]; simp)
  obtain ⟨entry, hentry⟩ := Option.isSome_iff_exists.mp hk
  have hcon := h.consistent.evict hlru
  have hnd := h.consistent.nodup
  rw [hlru] at hnd
  obtain ⟨-, -, hdisj⟩ := List.nodup_append.mp hnd
  rw [shouldSkipCandidate_of_get? hentry] at hkeep
  simp only [CacheEntry.skipped, Bool.or_eq_false_iff] at hkeep
  obtain ⟨hpin, hhot⟩ := hkeep
  rw [evict_of_get? hentry] at hcon ⊢
  have hother : ∀ j ∈ lru, (s.entries.erase k).get? j = s.entries.get? j := by
    intro j hj
    exact AssocMap.get?_erase_of_ne (fun heq => hdisj j hj k (by simp) heq) _
  refine ⟨hcon, ⟨?_, ?_⟩, ?_⟩
  · show (lru.filter fun j => ((s.entries.erase k).get? j).any _).Pairwise
      fun a b => (((s.entries.erase k).get? b).map (·.usedAt)).getD 0 <
        (((s.entries.erase k).get? a).map (·.usedAt)).getD 0
    rw [List.filter_congr fun j hj => by rw [hother j hj]]
    have hsub : (lru.filter (coldKey c.lfuProtectHits s)).Sublist
        (s.lru.filter (coldKey c.lfuProtectHits s)) := by
      rw [hlru]
      exact (List.sublist_append_left ..).filter _
    refine (h.ordered.coldOrder.sublist hsub).imp_of_mem ?_
    intro a b ha hb hab
    rw [hother a (List.mem_of_mem_filter ha), hother b (List.mem_of_mem_filter hb)]
    exact hab
  · intro j hj
    show (((s.entries.erase k).get? j).map (·.usedAt)).getD 0 < s.clock
    rw [hother j hj]
    exact h.ordered.past j (by rw [hlru]; exact List.mem_append_left _ hj)
  · intro ev hev
    rcases List.mem_append.mp hev with hold | hnew
    · exact h.fair ev hold
    · obtain rfl := List.mem_singleton.mp hnew
      refine ⟨entry, hentry, hpin, ?_, ?_⟩
      · intro hprotected j e hj
        rcases hwarm with htrue | hnone
        · -- the first pass takes a protected entry only when nothing is protected
          rw [htrue, decide_eq_true hprotected, Bool.true_and, Bool.and_true, decide_eq_false_iff_not,
            Nat.not_lt, Nat.le_zero] at hhot
          rw [CacheEntry.cold, hhot, decide_eq_false (Nat.not_lt_zero _), Bool.and_false]
        · exact hnone j e hj
      · intro hcold j e hne hj hejcold
        have hjmem : j ∈ lru := by
          have hmem := (h.consistent.keys j).mpr (by rw [hj]; rfl)
          rw [hlru, List.mem_append, List.mem_singleton] at hmem
          exact hmem.resolve_right hne
        have hkcold : coldKey c.lfuProtectHits s k = true := by
          rw [coldKey, hentry, Option.any_some, CacheEntry.cold, hpin, decide_eq_true hcold]
          rfl
        have hjcold : coldKey c.lfuProtectHits s j = true := by
          rw [coldKey, hj]
          exact hejcold
        have hpair := h.ordered.coldOrder
        rw [hlru, List.filter_append, List.filter_cons_of_pos hkcold, List.filter_nil] at hpair
        have hlt := (List.pairwise_append.mp hpair).2.2 j (List.mem_filter.mpr ⟨hjmem, hjcold⟩) k
          (by simp)
        rw [lastUse, lastUse, hentry, hj] at hlt
        exact hlt

/-- **THE RULE OF A PASS**: what holds at its start, and is kept when a candidate goes to the front
    and when one is evicted, holds at its end. -/
theorem evictPass_inv {protectLfu : Bool} {I : MemoryState κ γ → Prop}
    (hrotate : ∀ s lru k, I s → s.lru = lru ++ [k] →
      shouldSkipCandidate s k protectLfu c.lfuProtectHits = true → I { s with lru := k :: lru })
    (hevict : ∀ s lru k, I s → s.lru = lru ++ [k] →
      shouldSkipCandidate s k protectLfu c.lfuProtectHits = false → I (evict { s with lru := lru } k)) :
    ∀ (attempts : Nat) (s : MemoryState κ γ), I s → I (c.evictPass protectLfu attempts s) := by
  intro attempts
  induction attempts with
  | zero => exact fun s h => h
  | succ attempts ih =>
      intro s h
      rw [MemoryCache.evictPass]
      split
      · split
        · exact h
        · rename_i k hlast
          obtain ⟨lru, hlru⟩ := List.getLast?_eq_some_iff.mp hlast
          have hdrop : s.lru.dropLast = lru := by rw [hlru, List.dropLast_concat]
          rw [hdrop]
          dsimp only
          split
          · rename_i hskip
            exact ih _ (hrotate s lru k h hlru hskip)
          · rename_i hskip
            exact ih _ (hevict s lru k h hlru (Bool.eq_false_iff.mpr hskip))
      · exact h

/-- What is in front of the part a pass has still to look at is skipped by it. -/
structure Scanned (c : MemoryCache) (protectLfu : Bool) (s : MemoryState κ γ) (front rest : List κ) :
    Prop where
  consistent : Consistent s
  lru : s.lru = front ++ rest
  skipped : ∀ k ∈ front, shouldSkipCandidate s k protectLfu c.lfuProtectHits = true

/-- **A PASS LOOKS AT EVERY KEY**: at its end the cache is below its limit, or nothing is left that
    the pass may evict. -/
theorem Scanned.exhausts {protectLfu : Bool} {rest : List κ} :
    ∀ {s : MemoryState κ γ} {front : List κ}, Scanned c protectLfu s front rest →
      (c.evictPass protectLfu rest.length s).totalBytes ≤ c.maxBytes ∨
        ∀ k ∈ (c.evictPass protectLfu rest.length s).lru,
          shouldSkipCandidate (c.evictPass protectLfu rest.length s) k protectLfu c.lfuProtectHits = true := by
  -- by induction on the part that is left, from its end
  induction rest using List.reverseRecOn with
  | nil =>
      intro s front h
      right
      intro k hk
      have hlru := h.lru
      rw [List.append_nil] at hlru
      exact h.skipped k (hlru ▸ hk)
  | append_singleton rest k ih =>
      intro s front h
      rw [List.length_append, List.length_singleton, MemoryCache.evictPass]
      split
      · have hlru : s.lru = (front ++ rest) ++ [k] := by rw [h.lru, List.append_assoc]
        have hlast : s.lru.getLast? = some k := by rw [hlru, List.getLast?_concat]
        have hdrop : s.lru.dropLast = front ++ rest := by rw [hlru, List.dropLast_concat]
        rw [hlast, hdrop]
        dsimp only
        split
        · rename_i hskip
          refine @ih _ (k :: front) ⟨h.consistent.perm ?_, rfl, ?_⟩
          · rw [hlru]
            exact (List.perm_append_singleton k _).symm
          · intro j hj
            rcases List.mem_cons.mp hj with rfl | hj
            · exact hskip
            · exact h.skipped j hj
        · have hnd := h.consistent.nodup
          rw [hlru] at hnd
          have hdisj := (List.nodup_append.mp hnd).2.2
          have hk : (s.entries.get? k).isSome := (h.consistent.keys k).mp (by rw [hlru]; simp)
          obtain ⟨entry, hentry⟩ := Option.isSome_iff_exists.mp hk
          refine @ih _ front ⟨h.consistent.evict hlru, ?_, ?_⟩
          · rw [evict_of_get? hentry]
          · intro j hj
            have hne : j ≠ k := fun heq => hdisj j (List.mem_append_left _ hj) k (by simp) heq
            have hsame : ((evict { s with lru := front ++ rest } k).entries.get? j) = s.entries.get? j := by
              rw [evict_of_get? hentry]
              exact AssocMap.get?_erase_of_ne hne _
            have hskip := h.skipped j hj
            rw [shouldSkipCandidate] at hskip ⊢
            rw [hsame]
            exact hskip
      · rename_i hle
        exact Or.inl (Nat.not_lt.mp hle)

/-- After a pass that is over its limit, every entry is one the pass skips. -/
theorem evictPass_exhausts {protectLfu : Bool} (h : Consistent s)
    (hover : ¬ (c.evictPass protectLfu s.lru.length s).totalBytes ≤ c.maxBytes)
    (hcon : Consistent (c.evictPass protectLfu s.lru.length s)) {k : κ} {e : CacheEntry γ}
    (hk : (c.evictPass protectLfu s.lru.length s).entries.get? k = some e) :
    e.skipped protectLfu c.lfuProtectHits = true := by
  have hscan : Scanned c protectLfu s [] s.lru := ⟨h, rfl, fun _ hk => (nomatch hk)⟩
  rcases hscan.exhausts with hle | hall
  · exact absurd hle hover
  · have hskip := hall k ((hcon.keys k).mpr (by rw [hk]; rfl))
    rw [shouldSkipCandidate_of_get? hk] at hskip
    exact hskip

/-- The invariant over both passes, and what they leave. -/
theorem Inv.evictIfNeeded (h : Inv c s) (hmax : 0 < c.maxBytes) :
    Inv c (c.evictIfNeeded s) ∧ ((c.evictIfNeeded s).totalBytes ≤ c.maxBytes ∨
      ∀ k e, (c.evictIfNeeded s).entries.get? k = some e → e.pinned = true) := by
  have hfirst : Inv c (c.evictPass true s.lru.length s) :=
    evictPass_inv (fun _ _ _ hI hlru hskip => hI.rotate hlru hskip)
      (fun _ _ _ hI hlru hskip => hI.evict hlru hskip (Or.inl rfl)) _ s h
  rw [MemoryCache.evictIfNeeded, if_neg (Nat.pos_iff_ne_zero.mp hmax)]
  dsimp only
  split
  · rename_i hle
    exact ⟨hfirst, Or.inl hle⟩
  · rename_i hover
    generalize hs₁ : c.evictPass true s.lru.length s = s₁ at hfirst hover
    -- the first pass has left no cold entry
    have hwarm : ∀ k e, s₁.entries.get? k = some e → e.cold c.lfuProtectHits = false := by
      intro k e hk
      subst hs₁
      have hskip := evictPass_exhausts h.consistent hover hfirst.consistent hk
      cases hc : e.cold c.lfuProtectHits with
      | false => rfl
      | true =>
          rw [CacheEntry.cold_not_skipped hc true] at hskip
          exact nomatch hskip
    have hsecond : Inv c (c.evictPass false s₁.lru.length s₁) ∧
        ∀ k e, (c.evictPass false s₁.lru.length s₁).entries.get? k = some e →
          e.cold c.lfuProtectHits = false := by
      refine evictPass_inv (I := fun s => Inv c s ∧
        ∀ k e, s.entries.get? k = some e → e.cold c.lfuProtectHits = false) ?_ ?_ _ s₁ ⟨hfirst, hwarm⟩
      · rintro s lru k ⟨hI, hw⟩ hlru hskip
        exact ⟨hI.rotate hlru hskip, hw⟩
      · rintro s lru k ⟨hI, hw⟩ hlru hskip
        refine ⟨hI.evict hlru hskip (Or.inr hw), ?_⟩
        intro j e hj
        have hk : (s.entries.get? k).isSome := (hI.consistent.keys k).mp (by rw [hlru]; simp)
        obtain ⟨entry, hentry⟩ := Option.isSome_iff_exists.mp hk
        rw [evict_of_get? hentry] at hj
        have hj' : (s.entries.erase k).get? j = some e := hj
        rw [AssocMap.get?_eq_some_iff] at hj'
        exact hw j e ((AssocMap.get?_eq_some_iff ..).mpr (AssocMap.mem_erase hj'))
    refine ⟨hsecond.1, ?_⟩
    by_cases hle : (c.evictPass false s₁.lru.length s₁).totalBytes ≤ c.maxBytes
    · exact Or.inl hle
    · refine Or.inr ?_
      intro k e hk
      have hskip := evictPass_exhausts hfirst.consistent hle hsecond.1.consistent hk
      simp only [CacheEntry.skipped, Bool.false_and, Bool.or_false] at hskip
      exact hskip

/-! ## Every sequence of calls -/

theorem inv_default (c : MemoryCache) : Inv c (MemoryState.default : MemoryState κ γ) where
  consistent := ⟨List.nodup_nil, fun _ => ⟨fun hk => (nomatch hk), fun hk => (nomatch hk)⟩, rfl⟩
  ordered := ⟨List.Pairwise.nil, fun _ hk => (nomatch hk)⟩
  fair := fun _ hev => (nomatch hev)

theorem Inv.step {s s' : MemoryState κ γ} {call : Call κ γ} (h : Inv c s)
    (hmax : 0 < c.maxBytes) (hfits : Fits s call) (hs : step c s call = some s') : Inv c s' := by
  cases call with
  | get key =>
      cases hs
      exact h.get key
  | insert key value bytesEstimate pinned =>
      cases hs
      exact ((h.put hfits).evictIfNeeded hmax).1

/-- **THE CACHE INVARIANT.**  For every limit, every threshold and every sequence of calls whose
    estimates stay below `2 ^ 64`: the recency list has each key of the entries once and nothing
    else, and the byte count is the sum of their estimates; after an insert the count is within
    the limit or every entry is pinned; no eviction took a pinned entry; one that took an entry
    with the hits that protect it found no unpinned entry below them; and one that took an entry
    below them took the least recently inserted or hit of these. -/
theorem memory_cache_invariant (c : MemoryCache) (hmax : 0 < c.maxBytes) {s : MemoryState κ γ}
    (hr : Reach (step c) Fits (MemoryState.default : MemoryState κ γ) s) :
    Consistent s ∧
      (∀ ev ∈ s.evicted, ∃ entry, ev.Fair c.lfuProtectHits entry) ∧
      ∀ key value bytesEstimate pinned s', Fits s (.insert key value bytesEstimate pinned) →
        step c s (.insert key value bytesEstimate pinned) = some s' →
        s'.totalBytes ≤ c.maxBytes ∨ ∀ k e, s'.entries.get? k = some e → e.pinned = true := by
  have hinv : Inv c s := Reach.inv (inv_default c) (fun _ _ _ h hfits hs => h.step hmax hfits hs) hr
  refine ⟨hinv.consistent, hinv.fair, ?_⟩
  intro key value bytesEstimate pinned s' hfits hs
  cases hs
  exact ((hinv.put hfits).evictIfNeeded hmax).2

/-- Two components under a limit of three bytes, the first of them hit: the second goes. -/
def hitThenOver : List (Call Nat Unit) :=
  [.insert 1 () 2 false, .get 1, .insert 2 () 1 false, .insert 3 () 1 true]

instance (s : MemoryState Nat Unit) (call : Call Nat Unit) : Decidable (Fits s call) := by
  cases call with
  | get key => exact instDecidableTrue
  | insert key value bytesEstimate pinned => exact inferInstanceAs (Decidable (_ ≤ _))

/-- The protected component stays and the other one is evicted. -/
theorem memory_cache_invariant_hit : ∃ s : MemoryState Nat Unit,
    Reach (step ⟨3, 1⟩) Fits MemoryState.default s ∧ s.evicted.map (·.key) = [2] ∧ s.lru = [1, 3] ∧
      Consistent s := by
  have hplay : (play (step ⟨3, 1⟩) Fits MemoryState.default hitThenOver).any
      (fun s => s.evicted.map (·.key) = [2] && s.lru = [1, 3]) = true := by decide +kernel
  obtain ⟨s, hr, htest⟩ := Reach.of_test hitThenOver hplay
  simp only [Bool.and_eq_true, decide_eq_true_eq] at htest
  exact ⟨s, hr, htest.1, htest.2, (memory_cache_invariant ⟨3, 1⟩ (by decide) hr).1⟩

end Greentic.ComponentCache
