import GreenticRunner.RecencyTable

/-! # The table of error attempts

    `ErrorAttempts` counts the handler errors of each stream sequence.  Its two structures, a map
    of counts and a queue of sequences, are changed one after the other, and the oldest sequence
    is dropped when a new one finds the table full.

    * `Logged.Faithful` — what the table holds, read off the log alone;
    * `attempt_table_law` — the table holds that after every list of calls. -/

namespace Greentic.ErrorAttempts

open FinMaps RecencyTable

/-- `ERROR_ATTEMPTS_CAP`. -/
def ERROR_ATTEMPTS_CAP : Nat := 4096

/-- `i64::MAX`. -/
def maxCount : Nat := 2 ^ 63 - 1

/-- `AttemptTable`; the counts are never negative. -/
structure AttemptTable where
  counts : FinMap Nat Nat
  order : List Nat

/-- `AttemptTable::default`. -/
def AttemptTable.default : AttemptTable := ⟨.empty, []⟩

/-- The table when `sequence` is about to be counted: its place in the order is renewed, or the
    oldest sequences are dropped until there is room. -/
def makePlace (table : AttemptTable) (sequence : Nat) : AttemptTable :=
  if sequence ∈ table.counts.keys then ⟨table.counts, table.order.erase sequence ++ [sequence]⟩
  else
    let (counts, order) := dropOldest ERROR_ATTEMPTS_CAP table.counts table.order
    ⟨counts, order ++ [sequence]⟩

/-- `ErrorAttempts::record`: the new count, and the table. -/
def record (table : AttemptTable) (sequence : Nat) : Nat × AttemptTable :=
  let table := makePlace table sequence
  let count := min (table.counts.count sequence + 1) maxCount
  (count, ⟨table.counts.insert sequence count, table.order⟩)

/-- `ErrorAttempts::clear`. -/
def clear (table : AttemptTable) (sequence : Nat) : AttemptTable :=
  if sequence ∈ table.counts.keys then
    ⟨table.counts.erase sequence, table.order.filter (· ≠ sequence)⟩
  else table

/-! ## The log -/

/-- What happens to a sequence. -/
inductive Event where
  | recorded (sequence : Nat)
  | cleared (sequence : Nat)
  | evicted (sequence : Nat)
deriving DecidableEq

/-- A table and the log of all that happened, the latest event first. -/
structure Logged where
  table : AttemptTable
  log : List Event

/-- The sequences that a record drops. -/
def evictedBy (table : AttemptTable) (sequence : Nat) : List Nat :=
  table.order.filter fun k => k ∉ (record table sequence).2.order

/-- A call. -/
inductive Call where
  | record (sequence : Nat)
  | clear (sequence : Nat)

/-- One call: what it returns, and the table with its log. -/
def runCall (s : Logged) : Call → Option Nat × Logged
  | .record sequence =>
      (some (record s.table sequence).1, ⟨(record s.table sequence).2,
        .recorded sequence :: ((evictedBy s.table sequence).map .evicted ++ s.log)⟩)
  | .clear sequence => (none, ⟨clear s.table sequence, .cleared sequence :: s.log⟩)

/-- All calls, from the empty table on. -/
def runs (calls : List Call) : Logged := calls.foldl (fun s call => (runCall s call).2) ⟨.default, []⟩

/-- The records of a sequence since it was last cleared or evicted. -/
def since (sequence : Nat) : List Event → Nat
  | [] => 0
  | .recorded k :: log => if k = sequence then since sequence log + 1 else since sequence log
  | .cleared k :: log => if k = sequence then 0 else since sequence log
  | .evicted k :: log => if k = sequence then 0 else since sequence log

/-- The time of the last record of a sequence. -/
def lastRecord (sequence : Nat) : List Event → Nat
  | [] => 0
  | .recorded k :: log => if k = sequence then log.length + 1 else lastRecord sequence log
  | .cleared _ :: log => lastRecord sequence log
  | .evicted _ :: log => lastRecord sequence log

theorem lastRecord_le (k : Nat) (log : List Event) : lastRecord k log ≤ log.length := by
  induction log with
  | nil => exact Nat.le_refl 0
  | cons e log ih =>
      rw [List.length_cons]
      cases e with
      | recorded j =>
          rw [lastRecord]
          split
          · exact Nat.le_refl _
          · omega
      | cleared j =>
          rw [lastRecord]
          omega
      | evicted j =>
          rw [lastRecord]
          omega

/-- **WHAT THE TABLE HOLDS**: each tracked sequence once, in the order of the last records, and the
    count of its records. -/
structure Logged.Faithful (s : Logged) : Prop where
  nodup : s.table.order.Nodup
  tracked : ∀ k, k ∈ s.table.order ↔ k ∈ s.table.counts.keys
  bound : s.table.order.length ≤ ERROR_ATTEMPTS_CAP
  ordered : s.table.order.Pairwise fun a b => lastRecord a s.log < lastRecord b s.log
  counted : ∀ k, s.table.counts.count k = min (since k s.log) maxCount
  forgotten : ∀ k, k ∉ s.table.order → since k s.log = 0

theorem faithful_default : Logged.Faithful ⟨.default, []⟩ where
  nodup := List.nodup_nil
  tracked := fun k => by simp [AttemptTable.default, FinMap.empty]
  bound := Nat.zero_le _
  ordered := List.Pairwise.nil
  counted := fun k => by simp [AttemptTable.default, FinMap.count, since]
  forgotten := fun k _ => rfl

/-! ## Room for one more -/

section Room

variable {table : AttemptTable} {sequence : Nat} (hnd : table.order.Nodup)
  (hmem : ∀ k, k ∈ table.order ↔ k ∈ table.counts.keys)

include hnd hmem

omit hnd in
/-- A tracked sequence moves to the back. -/
theorem makePlace_tracked (h : sequence ∈ table.order) :
    makePlace table sequence = ⟨table.counts, table.order.erase sequence ++ [sequence]⟩ :=
  if_pos ((hmem sequence).mp h)

/-- A new sequence in a table with room is added at the back. -/
theorem makePlace_room (h : sequence ∉ table.order)
    (hroom : table.order.length < ERROR_ATTEMPTS_CAP) :
    makePlace table sequence = ⟨table.counts, table.order ++ [sequence]⟩ := by
  have hcard := card_keys hnd hmem
  have hdrop : dropOldest ERROR_ATTEMPTS_CAP table.counts table.order =
      (table.counts, table.order) := by
    cases horder : table.order with
    | nil => rfl
    | cons oldest rest =>
        rw [dropOldest, if_neg (by rw [hcard]; omega)]
  rw [makePlace, if_neg (fun hk => h ((hmem sequence).mpr hk)), hdrop]

/-- A new sequence in a full table pushes out the oldest one. -/
theorem makePlace_full (h : sequence ∉ table.order) {oldest : Nat} {rest : List Nat}
    (horder : table.order = oldest :: rest) (hfull : table.order.length = ERROR_ATTEMPTS_CAP) :
    makePlace table sequence = ⟨table.counts.erase oldest, rest ++ [sequence]⟩ := by
  have hcard := card_keys hnd hmem
  have hdrop : dropOldest ERROR_ATTEMPTS_CAP table.counts table.order =
      (table.counts.erase oldest, rest) := by
    rw [horder] at hnd hmem ⊢
    obtain ⟨hnd', hmem'⟩ := erase_keys table.counts hnd hmem
    have hcard' := card_keys hnd' hmem'
    rw [dropOldest, if_pos (by rw [hcard, hfull])]
    rw [horder, List.length_cons] at hfull
    cases hrest : rest with
    | nil => rfl
    | cons second rest' =>
        rw [hrest] at hcard' hfull
        rw [dropOldest, if_neg (by rw [hcard']; omega)]
  rw [makePlace, if_neg (fun hk => h ((hmem sequence).mpr hk)), hdrop]

end Room

/-! ## One call -/

theorem since_evicted (k : Nat) (gone : List Nat) (log : List Event) :
    since k (gone.map .evicted ++ log) = if k ∈ gone then 0 else since k log := by
  induction gone with
  | nil => rfl
  | cons j gone ih =>
      rw [List.map_cons, List.cons_append, since, ih]
      by_cases hj : j = k
      · rw [if_pos hj, if_pos (by rw [hj]; exact List.mem_cons_self ..)]
      · rw [if_neg hj]
        have hiff : k ∈ j :: gone ↔ k ∈ gone := by
          rw [List.mem_cons]
          exact ⟨fun h => h.resolve_left fun he => hj he.symm, Or.inr⟩
        simp only [hiff]

theorem lastRecord_evicted (k : Nat) (gone : List Nat) (log : List Event) :
    lastRecord k (gone.map .evicted ++ log) = lastRecord k log := by
  induction gone with
  | nil => rfl
  | cons j gone ih => rw [List.map_cons, List.cons_append, lastRecord, ih]

/-- A record that keeps some sequences, in their order, and adds its own behind them. -/
structure Places (table : AttemptTable) (sequence : Nat) (kept : List Nat) : Prop where
  order : (makePlace table sequence).order = kept ++ [sequence]
  sublist : kept.Sublist table.order
  fresh : sequence ∉ kept
  bound : kept.length < ERROR_ATTEMPTS_CAP
  keys : ∀ k, k ≠ sequence → (k ∈ kept ↔ k ∈ (makePlace table sequence).counts.keys)
  same : ∀ k, k ∈ kept ∨ k = sequence →
    (makePlace table sequence).counts.count k = table.counts.count k

/-- Every record does so: it renews the place of its sequence, or it finds room, or it drops the
    one sequence that was recorded longest ago. -/
theorem Logged.Faithful.places {s : Logged} (h : s.Faithful) (sequence : Nat) :
    ∃ kept, Places s.table sequence kept ∧
      (kept = s.table.order.erase sequence ∨
        sequence ∉ s.table.order ∧ s.table.order.length = ERROR_ATTEMPTS_CAP ∧
          ∃ oldest, s.table.order = oldest :: kept) := by
  by_cases hseq : sequence ∈ s.table.order
  · refine ⟨s.table.order.erase sequence, ?_, Or.inl rfl⟩
    have hplace := makePlace_tracked h.tracked hseq
    have hfresh : sequence ∉ s.table.order.erase sequence :=
      fun hmem => (h.nodup.mem_erase_iff.mp hmem).1 rfl
    have hlen := List.length_erase_of_mem hseq
    have hpos := List.length_pos_of_mem hseq
    have hbound := h.bound
    refine ⟨by rw [hplace], List.erase_sublist, hfresh, by omega, ?_, fun k _ => by rw [hplace]⟩
    intro k hk
    rw [hplace, ← h.tracked k, h.nodup.mem_erase_iff]
    exact ⟨fun hm => hm.2, fun hm => ⟨hk, hm⟩⟩
  · by_cases hfull : s.table.order.length < ERROR_ATTEMPTS_CAP
    · refine ⟨s.table.order, ?_, Or.inl (List.erase_of_not_mem hseq).symm⟩
      have hplace := makePlace_room h.nodup h.tracked hseq hfull
      refine ⟨by rw [hplace], List.Sublist.refl _, hseq, hfull, ?_, fun k _ => by rw [hplace]⟩
      intro k _
      rw [hplace, ← h.tracked k]
    · have hlen : s.table.order.length = ERROR_ATTEMPTS_CAP := by
        have hbound := h.bound
        omega
      cases horder : s.table.order with
      | nil =>
          rw [horder] at hlen
          cases hlen
      | cons oldest rest =>
          have hplace := makePlace_full h.nodup h.tracked hseq horder hlen
          have hnd := h.nodup
          have hmem := h.tracked
          rw [horder] at hnd hmem hseq hlen
          have hkeys := (erase_keys s.table.counts hnd hmem).2
          refine ⟨rest, ⟨by rw [hplace], by rw [horder]; exact List.sublist_cons_self _ _,
            fun hm => hseq (List.mem_cons_of_mem _ hm), ?_, ?_, ?_⟩, Or.inr ⟨hseq, hlen, oldest, rfl⟩⟩
          · rw [List.length_cons] at hlen
            omega
          · intro k _
            rw [hplace]
            exact hkeys k
          · intro k hk
            have hne : k ≠ oldest := by
              rintro rfl
              rcases hk with hk | hk
              · exact (List.nodup_cons.mp hnd).1 hk
              · exact hseq (hk ▸ List.mem_cons_self ..)
            rw [hplace]
            simp [FinMap.count, hne]

section Record

variable {s : Logged} {sequence : Nat} {kept : List Nat}

/-- What is dropped: the tracked sequences that are not kept. -/
theorem mem_evictedBy (p : Places s.table sequence kept) (k : Nat) :
    k ∈ evictedBy s.table sequence ↔ k ∈ s.table.order ∧ k ∉ kept ∧ k ≠ sequence := by
  have horder : (record s.table sequence).2.order = kept ++ [sequence] := p.order
  rw [evictedBy, List.mem_filter, horder, decide_eq_true_eq, List.mem_append, List.mem_singleton,
    not_or]

/-- **A RECORD KEEPS THE TABLE FAITHFUL**. -/
theorem Logged.Faithful.record (h : s.Faithful) (sequence : Nat) :
    (runCall s (.record sequence)).2.Faithful := by
  obtain ⟨kept, p, -⟩ := h.places sequence
  have horder : (ErrorAttempts.record s.table sequence).2.order = kept ++ [sequence] := p.order
  have hgone := mem_evictedBy p
  have hsame : sequence ∉ evictedBy s.table sequence := fun hm => ((hgone sequence).mp hm).2.2 rfl
  -- the log of a sequence that is neither recorded nor tracked any more says that it is forgotten
  have hzero : ∀ k, k ∉ kept → k ≠ sequence →
      since k ((evictedBy s.table sequence).map .evicted ++ s.log) = 0 := by
    intro k hk hne
    rw [since_evicted]
    split
    · rfl
    · rename_i hnot
      refine h.forgotten k fun hm => hnot ((hgone k).mpr ⟨hm, hk, hne⟩)
  constructor
  · show ((ErrorAttempts.record s.table sequence).2.order).Nodup
    rw [horder, List.nodup_append]
    refine ⟨p.sublist.nodup h.nodup, List.nodup_singleton _, ?_⟩
    rintro a ha b hb rfl
    rw [List.mem_singleton.mp hb] at ha
    exact p.fresh ha
  · intro k
    show k ∈ (ErrorAttempts.record s.table sequence).2.order ↔
      k ∈ Insert.insert sequence (makePlace s.table sequence).counts.keys
    rw [horder, List.mem_append, List.mem_singleton, Finset.mem_insert]
    by_cases hk : k = sequence
    · exact ⟨fun _ => Or.inl hk, fun _ => Or.inr hk⟩
    · rw [p.keys k hk]
      exact Or.comm
  · show ((ErrorAttempts.record s.table sequence).2.order).length ≤ _
    rw [horder, List.length_append]
    exact p.bound
  · show ((ErrorAttempts.record s.table sequence).2.order).Pairwise _
    rw [horder, List.pairwise_append]
    have hlast : ∀ k, k ∈ kept → lastRecord k (runCall s (.record sequence)).2.log =
        lastRecord k s.log := by
      intro k hk
      show lastRecord k (.recorded sequence :: _) = _
      rw [lastRecord, if_neg (by rintro rfl; exact p.fresh hk), lastRecord_evicted]
    refine ⟨?_, List.pairwise_singleton _ _, ?_⟩
    · refine (h.ordered.sublist p.sublist).imp_of_mem ?_
      intro a b ha hb hab
      rw [hlast a ha, hlast b hb]
      exact hab
    · intro a ha b hb
      rw [List.mem_singleton.mp hb, hlast a ha]
      show _ < lastRecord sequence (.recorded sequence :: _)
      rw [lastRecord, if_pos rfl, List.length_append]
      have hle := lastRecord_le a s.log
      omega
  · intro k
    show ((makePlace s.table sequence).counts.insert sequence _).count k =
      min (since k (.recorded sequence :: _)) _
    rw [since]
    by_cases hk : k = sequence
    · subst hk
      rw [FinMap.count_insert_self, if_pos rfl, since_evicted, if_neg hsame, p.same k (Or.inr rfl),
        h.counted k]
      omega
    · rw [FinMap.count_insert_ne _ hk, if_neg fun he => hk he.symm]
      by_cases hkept : k ∈ kept
      · have hnot : k ∉ evictedBy s.table sequence := fun hm => ((hgone k).mp hm).2.1 hkept
        rw [p.same k (Or.inl hkept), since_evicted, if_neg hnot, h.counted k]
      · have hkeys : k ∉ (makePlace s.table sequence).counts.keys := fun hm =>
          hkept ((p.keys k hk).mpr hm)
        rw [hzero k hkept hk, FinMap.count_eq_zero_of_not_mem _ hkeys]
        rfl
  · intro k hk
    have hk' : k ∉ kept ∧ k ≠ sequence := by
      have hk : k ∉ (ErrorAttempts.record s.table sequence).2.order := hk
      rwa [horder, List.mem_append, List.mem_singleton, not_or] at hk
    show since k (.recorded sequence :: _) = 0
    rw [since, if_neg fun he => hk'.2 he.symm, hzero k hk'.1 hk'.2]

/-- **A CLEAR KEEPS THE TABLE FAITHFUL**. -/
theorem Logged.Faithful.clear (h : s.Faithful) (sequence : Nat) :
    (runCall s (.clear sequence)).2.Faithful := by
  have hlast : ∀ k, lastRecord k (runCall s (.clear sequence)).2.log = lastRecord k s.log :=
    fun k => rfl
  have hsince : ∀ k, since k (runCall s (.clear sequence)).2.log =
      if k = sequence then 0 else since k s.log := by
    intro k
    show since k (.cleared sequence :: s.log) = _
    rw [since]
    simp only [eq_comm]
  by_cases hseq : sequence ∈ s.table.counts.keys
  · have htable : (runCall s (.clear sequence)).2.table =
        ⟨s.table.counts.erase sequence, s.table.order.filter (· ≠ sequence)⟩ := if_pos hseq
    refine ⟨?_, ?_, ?_, ?_, ?_, ?_⟩
    · rw [htable]
      exact h.nodup.filter _
    · intro k
      rw [htable]
      show k ∈ s.table.order.filter (· ≠ sequence) ↔ k ∈ s.table.counts.keys.erase sequence
      rw [List.mem_filter, Finset.mem_erase, h.tracked k, decide_eq_true_eq]
      exact And.comm
    · rw [htable]
      exact Nat.le_trans (List.length_filter_le _ _) h.bound
    · rw [htable]
      exact h.ordered.sublist List.filter_sublist
    · intro k
      rw [htable, hsince k]
      show (s.table.counts.erase sequence).count k = _
      by_cases hk : k = sequence
      · simp [FinMap.count, hk]
      · rw [if_neg hk, ← h.counted k]
        simp [FinMap.count, hk]
    · intro k hk
      rw [htable] at hk
      rw [hsince k]
      split
      · rfl
      · rename_i hne
        exact h.forgotten k fun hm => hk (List.mem_filter.mpr ⟨hm, decide_eq_true hne⟩)
  · have htable : (runCall s (.clear sequence)).2.table = s.table := if_neg hseq
    have hzero : since sequence s.log = 0 :=
      h.forgotten sequence fun hm => hseq ((h.tracked sequence).mp hm)
    have hsame : ∀ k, since k (runCall s (.clear sequence)).2.log = since k s.log := by
      intro k
      rw [hsince k]
      split
      · rename_i he
        rw [he, hzero]
      · rfl
    refine ⟨by rw [htable]; exact h.nodup, by rw [htable]; exact h.tracked,
      by rw [htable]; exact h.bound, by rw [htable]; exact h.ordered, ?_, ?_⟩
    · intro k
      rw [htable, hsame k]
      exact h.counted k
    · intro k hk
      rw [htable] at hk
      rw [hsame k]
      exact h.forgotten k hk

end Record

theorem runs_append (calls : List Call) (call : Call) :
    runs (calls ++ [call]) = (runCall (runs calls) call).2 := by
  rw [runs, List.foldl_append]
  rfl

/-- The table is faithful after every list of calls. -/
theorem runs_faithful (calls : List Call) : (runs calls).Faithful := by
  induction calls using List.reverseRecOn with
  | nil => exact faithful_default
  | append_singleton calls call ih =>
      rw [runs_append]
      cases call with
      | record sequence => exact ih.record sequence
      | clear sequence => exact ih.clear sequence

/-- The count that a record returns. -/
theorem Logged.Faithful.count {s : Logged} (h : s.Faithful) (sequence : Nat) :
    (ErrorAttempts.record s.table sequence).1 = min (since sequence s.log + 1) maxCount := by
  obtain ⟨kept, p, -⟩ := h.places sequence
  show min ((makePlace s.table sequence).counts.count sequence + 1) maxCount = _
  rw [p.same sequence (Or.inr rfl), h.counted sequence]
  omega

/-- What a record evicts, it evicts for a sequence that was not tracked, and the table is then full
    of sequences that were recorded more recently. -/
theorem Logged.Faithful.evicts {s : Logged} (h : s.Faithful) {sequence k : Nat}
    (hk : k ∈ evictedBy s.table sequence) :
    sequence ∉ s.table.order ∧ k ∈ s.table.order ∧
      (ErrorAttempts.record s.table sequence).2.order.length = ERROR_ATTEMPTS_CAP ∧
      ∀ j ∈ (ErrorAttempts.record s.table sequence).2.order, j ≠ k ∧
        lastRecord k (runCall s (.record sequence)).2.log <
          lastRecord j (runCall s (.record sequence)).2.log := by
  obtain ⟨kept, p, hcases⟩ := h.places sequence
  obtain ⟨hmem, hkept, hne⟩ := (mem_evictedBy p k).mp hk
  have horder : (ErrorAttempts.record s.table sequence).2.order = kept ++ [sequence] := p.order
  rcases hcases with rfl | ⟨hfresh, hfull, oldest, hsplit⟩
  · exact absurd (List.mem_erase_of_ne hne |>.mpr hmem) hkept
  · have hold : k = oldest := by
      rw [hsplit] at hmem
      exact (List.mem_cons.mp hmem).resolve_right hkept
    subst hold
    have hafter := h.record sequence
    have hfirst := h.ordered
    rw [hsplit] at hfirst hfull
    refine ⟨hfresh, hmem, ?_, ?_⟩
    · rw [horder, List.length_append]
      exact hfull
    · have hlast : lastRecord k (runCall s (.record sequence)).2.log = lastRecord k s.log := by
        show lastRecord k (.recorded sequence :: _) = _
        rw [lastRecord, if_neg fun he => hne he.symm, lastRecord_evicted]
      intro j hj
      rw [horder] at hj
      rcases List.mem_append.mp hj with hj | hj
      · refine ⟨fun he => hkept (he ▸ hj), ?_⟩
        have hlast' : lastRecord j (runCall s (.record sequence)).2.log = lastRecord j s.log := by
          show lastRecord j (.recorded sequence :: _) = _
          rw [lastRecord, if_neg (by rintro rfl; exact p.fresh hj), lastRecord_evicted]
        rw [hlast, hlast']
        exact (List.pairwise_cons.mp hfirst).1 j hj
      · rw [List.mem_singleton.mp hj]
        refine ⟨fun he => hne he.symm, ?_⟩
        rw [hlast]
        show _ < lastRecord sequence (.recorded sequence :: _)
        rw [lastRecord, if_pos rfl, List.length_append]
        have hle := lastRecord_le k s.log
        omega

/-- **THE LAW OF THE TABLE**, after every list of calls: both structures hold the same sequences,
    each once and in the order of their last records; a record returns one more than the records
    since the last clear or eviction, up to the largest count there is; and a sequence is evicted
    only for an untracked one that fills the table with more recent sequences. -/
theorem attempt_table_law (calls : List Call) :
    ((runs calls).table.order.Nodup ∧
      (∀ k, k ∈ (runs calls).table.order ↔ k ∈ (runs calls).table.counts.keys) ∧
      (runs calls).table.order.length ≤ ERROR_ATTEMPTS_CAP ∧
      (runs calls).table.order.Pairwise
        fun a b => lastRecord a (runs calls).log < lastRecord b (runs calls).log) ∧
    (∀ sequence, (record (runs calls).table sequence).1 =
      min (since sequence (runs calls).log + 1) maxCount) ∧
    ∀ sequence, ∀ k ∈ evictedBy (runs calls).table sequence,
      sequence ∉ (runs calls).table.order ∧ k ∈ (runs calls).table.order ∧
        (record (runs calls).table sequence).2.order.length = ERROR_ATTEMPTS_CAP ∧
        ∀ j ∈ (record (runs calls).table sequence).2.order, j ≠ k ∧
          lastRecord k (runs (calls ++ [.record sequence])).log <
            lastRecord j (runs (calls ++ [.record sequence])).log := by
  have h := runs_faithful calls
  refine ⟨⟨h.nodup, h.tracked, h.bound, h.ordered⟩, h.count, ?_⟩
  intro sequence k hk
  rw [runs_append]
  exact h.evicts hk

/-- Records of one sequence alone are all counted. -/
theorem since_replicate (n : Nat) : since 0 (runs (List.replicate n (.record 0))).log = n := by
  induction n with
  | zero => rfl
  | succ n ih =>
      have hnone : evictedBy (runs (List.replicate n (.record 0))).table 0 = [] := by
        refine List.eq_nil_iff_forall_not_mem.mpr fun k hk => ?_
        have hall : ∀ m, ∀ j ∈ (runs (List.replicate m (.record 0))).table.order, j = 0 := by
          intro m
          induction m with
          | zero => intro j hj; cases hj
          | succ m ihm =>
              intro j hj
              rw [List.replicate_succ', runs_append] at hj
              obtain ⟨kept, p, -⟩ := (runs_faithful (List.replicate m (.record 0))).places 0
              have hj : j ∈ (makePlace (runs (List.replicate m (.record 0))).table 0).order := hj
              rw [p.order] at hj
              rcases List.mem_append.mp hj with hj | hj
              · exact ihm j (p.sublist.subset hj)
              · exact List.mem_singleton.mp hj
        obtain ⟨kept, p, -⟩ := (runs_faithful (List.replicate n (.record 0))).places 0
        obtain ⟨hmem, -, hne⟩ := (mem_evictedBy p k).mp hk
        exact hne (hall n k hmem)
      rw [List.replicate_succ', runs_append]
      show since 0 (.recorded 0 :: ((evictedBy _ 0).map .evicted ++ _)) = n + 1
      rw [hnone, since, if_pos rfl]
      exact congrArg (· + 1) ih

/-- The count does not go beyond its type: after `2 ^ 63` records one more returns less. -/
theorem count_saturates :
    (record (runs (List.replicate (2 ^ 63) (.record 0))).table 0).1 ≠
      since 0 (runs (List.replicate (2 ^ 63) (.record 0))).log + 1 := by
  rw [(runs_faithful _).count 0, since_replicate]
  decide

end Greentic.ErrorAttempts
