import GreenticRunner.KvModel

/-! # One TTL-map specification for two backends

    Each backend is shown to serve a call as the reference map does, `MemoryKv` at the
    resolution of its clock and `RedbKv` in whole milliseconds; a row of calls then follows
    from the refinement rule for maps of leases.

    * `MemoryKv.serves`, `RedbKv.serves` — one call;
    * `backends_refine` — every row of calls at nondecreasing times;
    * `halfMillisecond_lost` — a TTL under a millisecond is over at once on disk. -/

namespace Greentic.Kv

open FinMaps TtlMaps

/-! ## Counters -/

@[simp] theorem toBeBytes_length (n : UInt64) : (toBeBytes n).length = 8 := rfl

/-- The eight bytes give the number back. -/
theorem fromBeBytes_toBeBytes (n : UInt64) : fromBeBytes (toBeBytes n) = n := by
  have hlt : n.toNat < 2 ^ 64 := n.toNat_lt
  have hsum : (toBeBytes n).foldl (fun m b => m * 256 + b.toNat) 0 = n.toNat := by
    simp only [toBeBytes, List.map_cons, List.map_nil, List.foldl_cons, List.foldl_nil,
      UInt8.toNat_ofNat']
    omega
  rw [fromBeBytes, hsum]
  exact UInt64.ofNat_toNat

/-! ## `MemoryKv` -/

namespace MemoryKv

/-- The leases of the map. -/
def leases (map : FinMap String Entry) : String → Option (Lease Bytes Nat) :=
  fun k => (map.get? k).map fun e => ⟨e.bytes, e.expiresAt⟩

/-- A written entry is a lease. -/
theorem leases_insert (map : FinMap String Entry) (key : String) (e : Entry) :
    leases (map.insert key e)
      = Function.update (leases map) key (some ⟨e.bytes, e.expiresAt⟩) := by
  funext k
  by_cases hk : k = key
  · simp [leases, hk]
  · simp [leases, hk]

/-- A removed one is none. -/
theorem leases_erase (map : FinMap String Entry) (key : String) :
    leases (map.erase key) = Function.update (leases map) key none := by
  funext k
  by_cases hk : k = key
  · simp [leases, hk]
  · simp [leases, hk]

variable {map : FinMap String Entry} {key : String} {entry : Entry} {now : Nat}

theorem live_absent (h : map.get? key = none) : live now (leases map) key = none := by
  simp [live, held, leases, h]

theorem live_fresh (h : map.get? key = some entry) (hnow : now < entry.expiresAt) :
    live now (leases map) key = some entry.bytes := by
  simp [live, held, leases, h, Option.filter_some, hnow]

theorem held_lapsed (h : map.get? key = some entry) (hnow : ¬ now < entry.expiresAt) :
    held now (leases map) key = none := by
  simp [held, leases, h, Option.filter_some, hnow]

/-- Nor is it live. -/
theorem live_lapsed (h : map.get? key = some entry) (hnow : ¬ now < entry.expiresAt) :
    live now (leases map) key = none := by
  rw [live, held_lapsed h hnow]
  rfl

/-- The value `incr_by` counts from. -/
theorem live_eq (map : FinMap String Entry) (key : String) (now : Nat) :
    live now (leases map) key
      = ((map.get? key).filter fun e => decide (now < e.expiresAt)).map Entry.bytes := by
  cases h : map.get? key with
  | none => rw [live_absent h]; rfl
  | some entry =>
    by_cases hnow : now < entry.expiresAt
    · rw [live_fresh h hnow]
      simp [Option.filter_some, hnow]
    · rw [live_lapsed h hnow]
      simp [Option.filter_some, hnow]

theorem evicted (h : map.get? key = some entry) (hnow : ¬ now < entry.expiresAt) :
    Agree now (leases (map.erase key)) (leases map) := by
  rw [leases_erase]
  exact Agree.drop (held_lapsed h hnow)

variable {lastInstant ttl : Nat} {val expected : Bytes} {delta : UInt64} {op : KvOp}
  {s : MemoryKv} {expires : Nat}

theorem addInstant_eq (h : now + ttl ≤ lastInstant) :
    addInstant lastInstant now ttl = some (now + ttl) :=
  if_pos h

/-- A call ended as the reference's does, and the store still holds what that holds. -/
structure Served (op : KvOp) (now expires : Nat) (s : MemoryKv) (x : Outcome × MemoryKv) :
    Prop where
  answer : x.1 = op.answer (live now (leases s.map) op.key)
  agree : Agree now (leases x.2.map)
    ((op.change expires (live now (leases s.map) op.key)).apply (leases s.map) op.key)
  healthy : x.2.poisoned = false

/-- The closure of a call ran to its end and did what the reference does. -/
def Ran (op : KvOp) (now expires : Nat) (map : FinMap String Entry)
    (x : Option (Reply × FinMap String Entry)) : Prop :=
  ∃ out map', x = some (out, map') ∧ .ok out = op.answer (live now (leases map) op.key)
    ∧ Agree now (leases map')
      ((op.change expires (live now (leases map) op.key)).apply (leases map) op.key)

/-- An operation that read what is live, and agrees on what it wrote. -/
theorem Ran.of {v : Option Bytes} {x : Option (Reply × FinMap String Entry)} (out : Reply)
    (map' : FinMap String Entry) (hlive : live now (leases map) op.key = v)
    (hx : x = some (out, map')) (hout : .ok out = op.answer v)
    (hagree : Agree now (leases map') ((op.change expires v).apply (leases map) op.key)) :
    Ran op now expires map x := by
  subst hlive
  exact ⟨out, map', hx, hout, hagree⟩

/-- A read under the lock. -/
theorem withMap_served {f : FinMap String Entry → Option (Reply × FinMap String Entry)}
    (hs : s.poisoned = false) (h : Ran op now expires s.map (f s.map)) :
    Served op now expires s (s.withMap f) := by
  obtain ⟨out, map', hf, hout, hagree⟩ := h
  have hrun : s.withMap f = (.ok out, { s with map := map' }) := by
    simp [withMap, hs, hf]
  rw [hrun]
  exact ⟨hout, hagree, hs⟩

/-- A sweep is due or it is not: nobody can tell. -/
theorem noteWrite_agree (s : MemoryKv) (now : Nat) :
    Agree now (leases (s.noteWrite now).map) (leases s.map) := by
  unfold noteWrite
  dsimp only
  split
  · have hswept : leases (s.map.retain fun _ entry => decide (now < entry.expiresAt))
        = fun k => (leases s.map k).filter fun e => decide (now < e.expires) := by
      funext k
      show ((s.map.get? k).filter _).map _ = _
      cases hk : s.map.get? k with
      | none => simp [leases, hk]
      | some entry =>
        by_cases hnow : now < entry.expiresAt
        · simp [leases, hk, Option.filter_some, hnow]
        · simp [leases, hk, Option.filter_some, hnow]
    show Agree now (leases (s.map.retain _)) (leases s.map)
    rw [hswept]
    exact Agree.sweep _
  · exact fun _ => rfl

/-- Noting a write does not poison the lock. -/
theorem noteWrite_poisoned (s : MemoryKv) (now : Nat) :
    (s.noteWrite now).poisoned = s.poisoned := by
  unfold noteWrite
  dsimp only
  split <;> rfl

/-- A write under the lock. -/
theorem withMapWrite_served {f : FinMap String Entry → Option (Reply × FinMap String Entry)}
    (hs : s.poisoned = false) (h : Ran op now expires s.map (f s.map)) :
    Served op now expires s (s.withMapWrite now f) := by
  obtain ⟨out, map', hf, hout, hagree⟩ := h
  have hrun : s.withMapWrite now f = (.ok out, noteWrite { s with map := map' } now) := by
    simp [withMapWrite, hs, hf]
  rw [hrun]
  constructor
  · exact hout
  · exact (noteWrite_agree { s with map := map' } now).trans hagree
  · rw [noteWrite_poisoned]
    exact hs

/-! ### The calls -/

/-- A read of a key. -/
theorem get_served (hs : s.poisoned = false) :
    Served (.get key) now expires s (s.get now key) := by
  refine withMap_served hs ?_
  cases h : s.map.get? key with
  | none => exact Ran.of _ _ (live_absent h) rfl rfl fun _ => rfl
  | some entry =>
    by_cases hnow : now < entry.expiresAt
    · exact Ran.of _ _ (live_fresh h hnow) (if_pos hnow) rfl fun _ => rfl
    · exact Ran.of _ _ (live_lapsed h hnow) (if_neg hnow) rfl (evicted h hnow)

/-- A read of a counter. -/
theorem getU64_served (hs : s.poisoned = false) :
    Served (.getU64 key) now expires s (s.getU64 now key) := by
  have hget : Served (.get key) now expires s (s.get now key) := get_served hs
  obtain ⟨hanswer, hagree, hhealthy⟩ := hget
  refine ⟨?_, hagree, hhealthy⟩
  show readU64 (s.get now key).1 = readU64 (.ok (.bytes (live now (leases s.map) key)))
  rw [hanswer]
  rfl

/-- A write with an expiry. -/
theorem setEx_served (hs : s.poisoned = false) (hlast : now + ttl ≤ lastInstant) :
    Served (.setEx key val ttl) now (now + ttl) s (s.setEx lastInstant now key val ttl) := by
  refine withMapWrite_served hs ⟨.unit, s.map.insert key ⟨val, now + ttl⟩, ?_, rfl, ?_⟩
  · rw [addInstant_eq hlast]
    rfl
  · rw [leases_insert]
    exact fun _ => rfl

/-- A removal. -/
theorem del_served (hs : s.poisoned = false) :
    Served (.del key) now expires s (s.del key) := by
  refine withMap_served hs ⟨.unit, s.map.erase key, rfl, rfl, ?_⟩
  rw [leases_erase]
  exact fun _ => rfl

/-- The test of `set_nx`: an expired entry counts as absent. -/
theorem occupied_iff (map : FinMap String Entry) (key : String) (now : Nat) :
    ((map.get? key).any fun entry => decide (now < entry.expiresAt))
      = (live now (leases map) key).isSome := by
  rw [live_eq]
  cases map.get? key with
  | none => rfl
  | some entry =>
    by_cases hnow : now < entry.expiresAt
    · simp [Option.filter_some, hnow]
    · simp [Option.filter_some, hnow]

/-- A write where nothing is live. -/
theorem setNx_served (hs : s.poisoned = false) (hlast : now + ttl ≤ lastInstant) :
    Served (.setNx key val ttl) now (now + ttl) s (s.setNx lastInstant now key val ttl) := by
  refine withMapWrite_served hs ?_
  rw [occupied_iff]
  cases hlive : live now (leases s.map) key with
  | none =>
    refine Ran.of (.flag true) (s.map.insert key ⟨val, now + ttl⟩) hlive ?_ rfl ?_
    · simp [addInstant_eq hlast]
    · rw [leases_insert]
      exact fun _ => rfl
  | some bytes => exact Ran.of _ _ hlive rfl rfl fun _ => rfl

/-- A comparison with a live value. -/
theorem answer_compare (bytes : Bytes) :
    (some bytes == some expected) = decide (bytes = expected) := by
  by_cases h : bytes = expected
  · simp [h]
  · simp [h]

/-- A new expiry for a value that is still the expected one. -/
theorem compareRefresh_served (hs : s.poisoned = false) (hlast : now + ttl ≤ lastInstant) :
    Served (.compareRefresh key expected ttl) now (now + ttl) s
      (s.compareRefresh lastInstant now key expected ttl) := by
  refine withMap_served hs ?_
  cases h : s.map.get? key with
  | none => exact Ran.of _ _ (live_absent h) rfl rfl fun _ => rfl
  | some entry =>
    by_cases hnow : now < entry.expiresAt
    · have hold : ¬ entry.expiresAt ≤ now := Nat.not_le.mpr hnow
      by_cases hbytes : entry.bytes = expected
      · subst hbytes
        refine Ran.of (.flag true) (s.map.insert key ⟨entry.bytes, now + ttl⟩)
          (live_fresh h hnow) ?_ ?_ ?_
        · simp [hold, addInstant_eq hlast]
        · simp [KvOp.answer]
        · rw [leases_insert]
          simp only [KvOp.change, beq_self_eq_true, if_true]
          exact fun _ => rfl
      · refine Ran.of (.flag false) s.map (live_fresh h hnow) ?_ ?_ ?_
        · simp [hold, hbytes]
        · simp [KvOp.answer, hbytes]
        · simp only [KvOp.change, answer_compare, hbytes, decide_false]
          exact fun _ => rfl
    · exact Ran.of _ _ (live_lapsed h hnow) (if_pos (Nat.not_lt.mp hnow)) rfl (evicted h hnow)

/-- A removal of such a value. -/
theorem compareDel_served (hs : s.poisoned = false) :
    Served (.compareDel key expected) now expires s (s.compareDel now key expected) := by
  refine withMap_served hs ?_
  cases h : s.map.get? key with
  | none => exact Ran.of _ _ (live_absent h) rfl rfl fun _ => rfl
  | some entry =>
    by_cases hnow : now < entry.expiresAt
    · have hold : ¬ entry.expiresAt ≤ now := Nat.not_le.mpr hnow
      by_cases hbytes : entry.bytes = expected
      · subst hbytes
        refine Ran.of (.flag true) (s.map.erase key) (live_fresh h hnow) ?_ ?_ ?_
        · simp [hold]
        · simp [KvOp.answer]
        · rw [leases_erase]
          simp only [KvOp.change, beq_self_eq_true, if_true]
          exact fun _ => rfl
      · refine Ran.of (.flag false) s.map (live_fresh h hnow) ?_ ?_ ?_
        · simp [hold, hbytes]
        · simp [KvOp.answer, hbytes]
        · simp only [KvOp.change, answer_compare, hbytes, decide_false]
          exact fun _ => rfl
    · refine Ran.of (.flag false) (s.map.erase key) (live_lapsed h hnow) ?_ rfl (evicted h hnow)
      simp [Nat.not_lt.mp hnow]

/-- A counter that is raised. -/
theorem incrBy_served (hs : s.poisoned = false) (hlast : now + ttl ≤ lastInstant) :
    Served (.incrBy key delta ttl) now (now + ttl) s
      (s.incrBy lastInstant now key delta ttl) := by
  refine withMapWrite_served hs ⟨.count (saturatingAdd (counter (live now (leases s.map) key))
    delta), s.map.insert key ⟨encodeU64 (saturatingAdd (counter (live now (leases s.map) key))
    delta), now + ttl⟩, ?_, rfl, ?_⟩
  · rw [addInstant_eq hlast, live_eq]
    rfl
  · rw [leases_insert]
    exact fun _ => rfl

end MemoryKv

/-- A call and the instant it read. -/
structure MemoryCall where
  op : KvOp
  now : Nat

/-- `MemoryKv` as a store of leases: a new lease ends at the instant plus the TTL. -/
def memoryBackend (lastInstant : Nat) :
    Backend MemoryKv MemoryCall String Bytes Nat Outcome where
  view := fun s => MemoryKv.leases s.map
  request := fun c => c.op.at c.now (c.now + c.op.ttl)
  step := fun s c => s.call lastInstant c.now c.op

/-- **MEMORY, ONE CALL**: served as the reference serves it, unless the expiry leaves the
    range of instants. -/
theorem MemoryKv.serves {lastInstant : Nat} {s : MemoryKv} {c : MemoryCall}
    (hs : s.poisoned = false) (hlast : c.now + c.op.ttl ≤ lastInstant) :
    (memoryBackend lastInstant).Serves (fun s => s.poisoned = false) s c := by
  have hserved : Served c.op c.now (c.now + c.op.ttl) s (s.call lastInstant c.now c.op) := by
    obtain ⟨op, now⟩ := c
    cases op with
    | get key => exact get_served hs
    | setEx key val ttl => exact setEx_served hs hlast
    | del key => exact del_served hs
    | setNx key val ttl => exact setNx_served hs hlast
    | compareRefresh key expected ttl => exact compareRefresh_served hs hlast
    | compareDel key expected => exact compareDel_served hs
    | incrBy key delta ttl => exact incrBy_served hs hlast
    | getU64 key => exact getU64_served hs
  exact ⟨hserved.answer, hserved.agree, hserved.healthy⟩

/-! ## `RedbKv` -/

namespace RedbKv

/-- The lease in a framed row. -/
def unframe (stored : Bytes) : Option (Lease Bytes Nat) :=
  if stored.length < 8 then none
  else some ⟨stored.drop 8, (fromBeBytes (stored.take 8)).toNat⟩

/-- The leases of the table. -/
def rows (table : FinMap String Bytes) : String → Option (Lease Bytes Nat) :=
  fun k => (table.get? k).bind unframe

/-- A framed payload is read back. -/
theorem unframe_frame (expiresAtMs : UInt64) (payload : Bytes) :
    unframe (frame expiresAtMs payload) = some ⟨payload, expiresAtMs.toNat⟩ := by
  have hlen : ¬ (toBeBytes expiresAtMs ++ payload).length < 8 := by
    rw [List.length_append, toBeBytes_length]
    omega
  have htake : (toBeBytes expiresAtMs ++ payload).take 8 = toBeBytes expiresAtMs :=
    List.take_left' (toBeBytes_length expiresAtMs)
  have hdrop : (toBeBytes expiresAtMs ++ payload).drop 8 = payload :=
    List.drop_left' (toBeBytes_length expiresAtMs)
  rw [unframe, frame, if_neg hlen, htake, hdrop, fromBeBytes_toBeBytes]

/-- The action as a change of the leases. -/
def toChange : WriteAction → Change Bytes Nat
  | .none => .keep
  | .remove => .remove
  | .put expiresAtMs payload => .put payload expiresAtMs.toNat

/-- A write changes its own row only. -/
theorem rows_run (table : FinMap String Bytes) (key : String) (action : WriteAction) :
    rows (WriteAction.run table key action) = (toChange action).apply (rows table) key := by
  funext k
  cases action with
  | none => rfl
  | remove =>
    by_cases hk : k = key
    · simp [rows, WriteAction.run, toChange, Change.apply, hk]
    · simp [rows, WriteAction.run, toChange, Change.apply, hk]
  | put expiresAtMs payload =>
    by_cases hk : k = key
    · simp [rows, WriteAction.run, toChange, Change.apply, hk, unframe_frame]
    · simp [rows, WriteAction.run, toChange, Change.apply, hk]

/-- The payload the code reads is the live value. -/
theorem live_rows (table : FinMap String Bytes) (key : String) (ms : UInt64) :
    (table.get? key).bind (fun stored => livePayload stored ms)
      = live ms.toNat (rows table) key := by
  unfold live held rows
  cases table.get? key with
  | none => rfl
  | some stored =>
    show livePayload stored ms = ((unframe stored).filter _).map _
    unfold livePayload unframe
    by_cases hlen : stored.length < 8
    · rw [if_pos hlen, if_pos hlen]
      rfl
    · rw [if_neg hlen, if_neg hlen, Option.filter_some]
      by_cases hle : fromBeBytes (stored.take 8) ≤ ms
      · have hnot : ¬ ms.toNat < (fromBeBytes (stored.take 8)).toNat :=
          Nat.not_lt.mpr (UInt64.le_iff_toNat_le.mp hle)
        simp [hle, hnot]
      · have hlt : ms.toNat < (fromBeBytes (stored.take 8)).toNat := by
          have := mt UInt64.le_iff_toNat_le.mpr hle
          omega
        simp [hle, hlt]

/-- The sweep drops lapsed and short rows, and nothing else. -/
theorem sweepExpired_agree (table : FinMap String Bytes) (ms : UInt64) :
    Agree ms.toNat (rows (sweepExpired table ms)) (rows table) := by
  intro k
  unfold held rows sweepExpired
  rw [FinMap.retain_get?]
  cases table.get? k with
  | none => rfl
  | some stored =>
    rw [Option.filter_some]
    by_cases hexp : isExpired stored ms = true
    · have hlapsed : (unframe stored).filter (fun e => decide (ms.toNat < e.expires)) = none := by
        unfold isExpired at hexp
        unfold unframe
        by_cases hlen : stored.length < 8
        · rw [if_pos hlen]
          rfl
        · rw [if_neg hlen] at hexp ⊢
          have hle := UInt64.le_iff_toNat_le.mp (of_decide_eq_true hexp)
          have hnot : ¬ ms.toNat < (fromBeBytes (stored.take 8)).toNat := Nat.not_lt.mpr hle
          simp [Option.filter_some, hnot]
      simp only [hexp, Bool.not_true, Bool.false_eq_true, if_false, Option.bind_none,
        Option.bind_some, hlapsed]
      rfl
    · simp [hexp]

variable {op : KvOp} {s : RedbKv} {now issued : Int} {expires : Nat} {key : String}
  {checks : Bool} {ttl : Nat} {val expected : Bytes} {delta : UInt64}

/-- A call ended as the reference's does, and the table still holds what that holds. -/
structure Served (op : KvOp) (now : Int) (expires : Nat) (s : RedbKv) (x : Outcome × RedbKv) :
    Prop where
  answer : x.1 = op.answer (live (nowMs now).toNat (rows s.table) op.key)
  agree : Agree (nowMs now).toNat (rows x.2.table)
    ((op.change expires (live (nowMs now).toNat (rows s.table) op.key)).apply (rows s.table)
      op.key)

/-- One write transaction: a closure that answers and acts as the reference does. -/
theorem writeOp_served {f : Option Bytes → Reply × WriteAction}
    (hanswer : ∀ live, .ok (f live).1 = op.answer live)
    (haction : ∀ live, toChange (f live).2 = op.change expires live) :
    Served op now expires s (s.writeOp now op.key f) := by
  unfold writeOp
  dsimp only
  rw [live_rows]
  constructor
  · exact hanswer _
  · rw [← haction, ← rows_run]
    dsimp only
    split
    · exact sweepExpired_agree _ _
    · exact fun _ => rfl

/-- A read of a key. -/
theorem get_served : Served (.get key) now expires s (s.get now key) := by
  constructor
  · show Outcome.ok (.bytes (s.readLive now key)) = .ok (.bytes _)
    rw [readLive, live_rows]
    rfl
  · exact fun _ => rfl

/-- A read of a counter. -/
theorem getU64_served : Served (.getU64 key) now expires s (s.getU64 now key) := by
  have hget : Served (.get key) now expires s (s.get now key) := get_served
  obtain ⟨hanswer, hagree⟩ := hget
  refine ⟨?_, hagree⟩
  show readU64 (s.get now key).1 = readU64 (.ok (.bytes (live _ (rows s.table) key)))
  rw [hanswer]
  rfl

theorem del_served : Served (.del key) now expires s (s.del now key) :=
  writeOp_served (fun _ => rfl) (fun _ => rfl)

/-- A removal of an expected value. -/
theorem compareDel_served :
    Served (.compareDel key expected) now expires s (s.compareDel now key expected) := by
  refine writeOp_served ?_ ?_
  · rintro (_ | payload)
    · rfl
    · by_cases h : payload = expected
      · simp [KvOp.answer, h]
      · simp [KvOp.answer, h]
  · rintro (_ | payload)
    · rfl
    · by_cases h : payload = expected
      · simp [KvOp.change, toChange, h]
      · simp [KvOp.change, toChange, h]

/-! ### The calls that add to the clock -/

/-- Whole milliseconds since the epoch. -/
def millis (t : Int) : Nat := t.toNat / 1000000

theorem nowMs_toNat (h : millis now < 2 ^ 64) : (nowMs now).toNat = millis now := by
  rw [nowMs, UInt64.toNat_ofNat']
  exact Nat.mod_eq_of_lt h

/-- The sum, when it is in range: with or without checks. -/
theorem addMs_eq (checks : Bool) (h : millis issued + ttl / 1000000 < 2 ^ 64) :
    ∃ e, addMs checks issued ttl = some e ∧ e.toNat = millis issued + ttl / 1000000 := by
  have hissued : (nowMs issued).toNat = millis issued := nowMs_toNat (by omega)
  have httl : (asMillis ttl).toNat = ttl / 1000000 := by
    rw [asMillis, UInt64.toNat_ofNat']
    exact Nat.mod_eq_of_lt (by omega)
  refine ⟨nowMs issued + asMillis ttl, ?_, ?_⟩
  · rw [addMs, hissued, httl, if_neg (by omega)]
  · rw [UInt64.toNat_add, hissued, httl]
    exact Nat.mod_eq_of_lt h

/-- A write whose expiry is in range. -/
theorem expiring_served {f : UInt64 → Option Bytes → Reply × WriteAction}
    (h : millis issued + ttl / 1000000 < 2 ^ 64)
    (hanswer : ∀ e live, .ok (f e live).1 = op.answer live)
    (haction : ∀ e live, toChange (f e live).2 = op.change e.toNat live) :
    Served op now (millis issued + ttl / 1000000) s
      (s.expiring checks issued ttl fun e => s.writeOp now op.key (f e)) := by
  obtain ⟨e, hadd, he⟩ := addMs_eq checks h
  unfold expiring
  rw [hadd, ← he]
  exact writeOp_served (hanswer e) (haction e)

theorem setEx_served (h : millis issued + ttl / 1000000 < 2 ^ 64) :
    Served (.setEx key val ttl) now (millis issued + ttl / 1000000) s
      (s.setEx checks issued now key val ttl) :=
  expiring_served h (fun _ _ => rfl) (fun _ _ => rfl)

/-- A write where nothing is live. -/
theorem setNx_served (h : millis issued + ttl / 1000000 < 2 ^ 64) :
    Served (.setNx key val ttl) now (millis issued + ttl / 1000000) s
      (s.setNx checks issued now key val ttl) := by
  refine expiring_served h ?_ ?_
  · rintro e (_ | payload) <;> rfl
  · rintro e (_ | payload) <;> rfl

/-- A new expiry for an expected value. -/
theorem compareRefresh_served (h : millis issued + ttl / 1000000 < 2 ^ 64) :
    Served (.compareRefresh key expected ttl) now (millis issued + ttl / 1000000) s
      (s.compareRefresh checks issued now key expected ttl) := by
  refine expiring_served h ?_ ?_
  · rintro e (_ | payload)
    · rfl
    · by_cases heq : payload = expected
      · simp [KvOp.answer, heq]
      · simp [KvOp.answer, heq]
  · rintro e (_ | payload)
    · rfl
    · by_cases heq : payload = expected
      · simp [KvOp.change, toChange, heq]
      · simp [KvOp.change, toChange, heq]

theorem incrBy_served (h : millis issued + ttl / 1000000 < 2 ^ 64) :
    Served (.incrBy key delta ttl) now (millis issued + ttl / 1000000) s
      (s.incrBy checks issued now key delta ttl) :=
  expiring_served h (fun _ _ => rfl) (fun _ _ => rfl)

theorem millis_mono (h : now ≤ issued) : millis now ≤ millis issued :=
  Nat.div_le_div_right (Int.toNat_le_toNat h)

end RedbKv

/-- A call, the clock reading its expiry is made from and the one of its transaction. -/
structure RedbCall where
  op : KvOp
  issued : Int
  now : Int

/-- The clock and the expiry fit the eight bytes of the frame. -/
def RedbCall.InRange (c : RedbCall) : Prop :=
  RedbKv.millis c.now < 2 ^ 64 ∧ RedbKv.millis c.issued + c.op.ttl / 1000000 < 2 ^ 64

instance (c : RedbCall) : Decidable c.InRange := inferInstanceAs (Decidable (_ ∧ _))

/-- `RedbKv` as a store of leases, in whole milliseconds. -/
def redbBackend (checks : Bool) : Backend RedbKv RedbCall String Bytes Nat Outcome where
  view := fun s => RedbKv.rows s.table
  request := fun c =>
    c.op.at (RedbKv.millis c.now) (RedbKv.millis c.issued + c.op.ttl / 1000000)
  step := fun s c => s.call checks c.issued c.now c.op

/-- **DISK, ONE CALL**: served as the reference serves it, the clock in milliseconds. -/
theorem RedbKv.serves {checks : Bool} {s : RedbKv} {c : RedbCall} (hrange : c.InRange) :
    (redbBackend checks).Serves (fun _ => True) s c := by
  obtain ⟨hnow, hsum⟩ := hrange
  have hserved : Served c.op c.now (millis c.issued + c.op.ttl / 1000000) s
      (s.call checks c.issued c.now c.op) := by
    obtain ⟨op, issued, now⟩ := c
    cases op with
    | get key => exact get_served
    | setEx key val ttl => exact setEx_served hsum
    | del key => exact del_served
    | setNx key val ttl => exact setNx_served hsum
    | compareRefresh key expected ttl => exact compareRefresh_served hsum
    | compareDel key expected => exact compareDel_served
    | incrBy key delta ttl => exact incrBy_served hsum
    | getU64 key => exact getU64_served
  obtain ⟨hanswer, hagree⟩ := hserved
  rw [nowMs_toNat hnow] at hanswer hagree
  exact ⟨hanswer, hagree, trivial⟩

/-! ## Rows of calls -/

/-- The clock and the TTL are whole milliseconds, and the clock stands still in the call. -/
def RedbCall.Whole (c : RedbCall) : Prop :=
  c.issued = c.now ∧ c.now.toNat % 1000000 = 0 ∧ c.op.ttl % 1000000 = 0

instance (c : RedbCall) : Decidable c.Whole := inferInstanceAs (Decidable (_ ∧ _))

/-- In whole milliseconds the two clocks of the reference differ by a factor. -/
theorem RedbCall.Whole.request_eq {c : RedbCall} (h : c.Whole) :
    c.op.at c.now.toNat (c.now.toNat + c.op.ttl)
      = (c.op.at (RedbKv.millis c.now) (RedbKv.millis c.issued + c.op.ttl / 1000000)).map
          (fun n => 1000000 * n) := by
  obtain ⟨hissued, hnow, httl⟩ := h
  have hms : 1000000 * RedbKv.millis c.now = c.now.toNat := by
    unfold RedbKv.millis
    omega
  have hsum : 1000000 * (RedbKv.millis c.issued + c.op.ttl / 1000000)
      = c.now.toNat + c.op.ttl := by
    rw [hissued]
    omega
  unfold KvOp.at Request.map
  dsimp only
  rw [hms]
  congr 1
  funext v
  rw [← hsum]
  cases c.op with
  | setNx key val ttl => cases v <;> rfl
  | compareRefresh key expected ttl =>
    show (if _ then _ else _) = Change.map _ (if _ then _ else _)
    split <;> rfl
  | compareDel key expected =>
    show (if _ then _ else _) = Change.map _ (if _ then _ else _)
    split <;> rfl
  | _ => rfl

/-- **ONE SPECIFICATION**: at nondecreasing times, and as long as no expiry leaves its range,
    both backends return what the reference map answers, `MemoryKv` at the clock's own
    resolution and `RedbKv` in whole milliseconds, whatever its file held when it was opened
    and whether or not the build checks for overflow; when all times and TTLs are whole
    milliseconds, `RedbKv` too returns what the reference answers at the clock's own. -/
theorem backends_refine (lastInstant : Nat) (checks : Bool) :
    (∀ calls : List MemoryCall, calls.Pairwise (fun c d => c.now ≤ d.now) →
      (∀ c ∈ calls, c.now + c.op.ttl ≤ lastInstant) →
      (memoryBackend lastInstant).results .new calls
        = answers (fun _ => none) (calls.map fun c => c.op.at c.now (c.now + c.op.ttl)))
    ∧ (∀ (table : FinMap String Bytes) (calls : List RedbCall),
      calls.Pairwise (fun c d => c.now ≤ d.now) → (∀ c ∈ calls, c.InRange) →
      (redbBackend checks).results (.openFile table) calls
        = answers (RedbKv.rows table) (calls.map fun c =>
            c.op.at (RedbKv.millis c.now) (RedbKv.millis c.issued + c.op.ttl / 1000000)))
    ∧ (∀ calls : List RedbCall, calls.Pairwise (fun c d => c.now ≤ d.now) →
      (∀ c ∈ calls, c.InRange) → (∀ c ∈ calls, c.Whole) →
      (redbBackend checks).results (.openFile .empty) calls
        = answers (fun _ => none)
            (calls.map fun c => c.op.at c.now.toNat (c.now.toNat + c.op.ttl))) := by
  have hdisk : ∀ (table : FinMap String Bytes) (calls : List RedbCall),
      calls.Pairwise (fun c d => c.now ≤ d.now) → (∀ c ∈ calls, c.InRange) →
      (redbBackend checks).results (.openFile table) calls
        = answers (RedbKv.rows table) (calls.map (redbBackend checks).request) := by
    intro table calls htimes hrange
    refine (redbBackend checks).results_eq (fun _ => True) calls ?_ ?_ trivial ?_
    · exact fun s _ c hc => RedbKv.serves (hrange c hc)
    · exact htimes.imp RedbKv.millis_mono
    · exact fun _ _ _ => rfl
  refine ⟨?_, hdisk, ?_⟩
  · intro calls htimes hlast
    refine (memoryBackend lastInstant).results_eq (fun s => s.poisoned = false) calls ?_ htimes
      rfl ?_
    · exact fun s hs c hc => MemoryKv.serves hs (hlast c hc)
    · exact fun _ _ _ => rfl
  · intro calls htimes hrange hwhole
    rw [hdisk .empty calls htimes hrange]
    have hmap : (calls.map fun c => c.op.at c.now.toNat (c.now.toNat + c.op.ttl))
        = (calls.map (redbBackend checks).request).map (Request.map fun n => 1000000 * n) := by
      rw [List.map_map]
      exact List.map_congr_left fun c hc => (hwhole c hc).request_eq
    have hf : StrictMono fun n : Nat => 1000000 * n := by
      intro a b hab
      show 1000000 * a < 1000000 * b
      omega
    rw [hmap]
    exact (answers_map hf _ (RedbKv.rows .empty)).symm

/-- A lock that is taken, lapses and is taken again, and a counter that reaches its end and
    is overwritten by bytes that are no counter. -/
def lockAndCounter : List (KvOp × Nat) :=
  [(.setNx "lock" [1] 5000000, 0), (.setNx "lock" [2] 5000000, 4000000),
    (.setNx "lock" [2] 5000000, 5000000), (.compareDel "lock" [1], 6000000),
    (.incrBy "c" 18446744073709551615 9000000, 6000000), (.incrBy "c" 7 9000000, 6000000),
    (.getU64 "c", 7000000), (.setEx "c" [3, 4] 9000000, 8000000), (.getU64 "c", 8000000),
    (.incrBy "c" 7 9000000, 8000000)]

/-- A lock and a counter, in memory. -/
theorem backends_refine_lockAndCounter :
    (memoryBackend (2 ^ 63 * 1000000000)).results .new
        (lockAndCounter.map fun c => ⟨c.1, c.2⟩)
      = [.ok (.flag true), .ok (.flag false), .ok (.flag true), .ok (.flag false),
        .ok (.count 18446744073709551615), .ok (.count 18446744073709551615),
        .ok (.count 18446744073709551615), .ok .unit,
        .err (.decode "counter not 8 bytes: len=2"), .ok (.count 7)]
    ∧ (redbBackend true).results (.openFile .empty)
        (lockAndCounter.map fun c => ⟨c.1, c.2, c.2⟩)
      = (memoryBackend (2 ^ 63 * 1000000000)).results .new
        (lockAndCounter.map fun c => ⟨c.1, c.2⟩)
    ∧ (redbBackend false).results (.openFile .empty)
        (lockAndCounter.map fun c => ⟨c.1, c.2, c.2⟩)
      = (memoryBackend (2 ^ 63 * 1000000000)).results .new
        (lockAndCounter.map fun c => ⟨c.1, c.2⟩) := by
  have hmemory := (backends_refine (2 ^ 63 * 1000000000) true).1
    (lockAndCounter.map fun c => ⟨c.1, c.2⟩) (by decide) (by decide)
  have hdisk := (backends_refine (2 ^ 63 * 1000000000) true).2.2
    (lockAndCounter.map fun c => ⟨c.1, c.2, c.2⟩) (by decide) (by decide) (by decide)
  have hdisk' := (backends_refine (2 ^ 63 * 1000000000) false).2.1 .empty
    (lockAndCounter.map fun c => ⟨c.1, c.2, c.2⟩) (by decide) (by decide)
  refine ⟨hmemory.trans (by decide +kernel), ?_, ?_⟩
  · exact hdisk.trans hmemory.symm
  · exact hdisk'.trans (Eq.trans (by decide +kernel) hmemory.symm)

/-- **BELOW THE RESOLUTION**: on disk a TTL of half a millisecond is over at once, where the
    reference at the clock's own resolution still holds the value; `MemoryKv` does too. -/
theorem halfMillisecond_lost :
    let op := KvOp.setEx "k" [1] 500000
    let calls : List RedbCall := [⟨op, 1700000000000000000, 1700000000000000000⟩,
      ⟨.get "k", 1700000000000000000, 1700000000000000000⟩]
    calls.Pairwise (fun c d => c.now ≤ d.now) ∧ (∀ c ∈ calls, c.InRange)
      ∧ (redbBackend true).results (.openFile .empty) calls = [.ok .unit, .ok (.bytes none)]
      ∧ answers (fun _ => none)
          (calls.map fun c => c.op.at c.now.toNat (c.issued.toNat + c.op.ttl))
        = [.ok .unit, .ok (.bytes (some [1]))]
      ∧ (memoryBackend (2 ^ 63 * 1000000000)).results .new [⟨op, 0⟩, ⟨.get "k", 0⟩]
        = [.ok .unit, .ok (.bytes (some [1]))] := by
  decide +kernel

end Greentic.Kv
