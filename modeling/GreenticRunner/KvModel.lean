import GreenticRunner.FinMap
import GreenticRunner.TtlMap

/-! # The key-value backends

    `AwKv` and its two in-tree implementations: `MemoryKv`, a locked hash map with an instant
    of expiry per entry, and `RedbKv`, one table whose rows are framed by eight bytes of
    expiry in unix milliseconds.  The redb table is a transactional map.  Times are
    nanoseconds; an `Instant` counts from the clock's origin, a `SystemTime` from the unix
    epoch and may lie before it.

    Two sums can leave their range: `now + ttl` of an `Instant` panics, under the lock of
    `MemoryKv`; `now_ms() + ttl` of `RedbKv` panics in a build with overflow checks and wraps
    in one without. -/

namespace Greentic.Kv

open FinMaps TtlMaps

abbrev Bytes := List UInt8

/-- `StateError`, the variants a backend returns. -/
inductive StateError where
  | redis (msg : String)
  | decode (msg : String)
  deriving DecidableEq, Repr

/-- The calls of `AwKv`; a TTL is in nanoseconds. -/
inductive KvOp where
  | get (key : String)
  | setEx (key : String) (val : Bytes) (ttl : Nat)
  | del (key : String)
  | setNx (key : String) (val : Bytes) (ttl : Nat)
  | compareRefresh (key : String) (expected : Bytes) (ttl : Nat)
  | compareDel (key : String) (expected : Bytes)
  | incrBy (key : String) (delta : UInt64) (ttl : Nat)
  | getU64 (key : String)
  deriving DecidableEq, Repr

/-- What a call returns. -/
inductive Reply where
  | bytes (v : Option Bytes)
  | unit
  | flag (b : Bool)
  | count (n : UInt64)
  deriving DecidableEq, Repr

/-- How a call ends. -/
inductive Outcome where
  | ok (r : Reply)
  | err (e : StateError)
  | panicked
  deriving DecidableEq, Repr

def KvOp.key : KvOp → String
  | .get key => key
  | .setEx key _ _ => key
  | .del key => key
  | .setNx key _ _ => key
  | .compareRefresh key _ _ => key
  | .compareDel key _ => key
  | .incrBy key _ _ => key
  | .getU64 key => key

/-- The TTL a call gives; the calls without one do not add to the clock. -/
def KvOp.ttl : KvOp → Nat
  | .setEx _ _ ttl => ttl
  | .setNx _ _ ttl => ttl
  | .compareRefresh _ _ ttl => ttl
  | .incrBy _ _ ttl => ttl
  | _ => 0

/-! ## Counters -/

/-- `u64::to_be_bytes` -/
def toBeBytes (n : UInt64) : Bytes :=
  [7, 6, 5, 4, 3, 2, 1, 0].map fun i => UInt8.ofNat (n.toNat / 256 ^ i)

/-- `u64::from_be_bytes` -/
def fromBeBytes (bytes : Bytes) : UInt64 :=
  UInt64.ofNat (bytes.foldl (fun n b => n * 256 + b.toNat) 0)

/-- `encode_u64` -/
def encodeU64 (value : UInt64) : Bytes := toBeBytes value

/-- `decode_u64` -/
def decodeU64 (bytes : Bytes) : Except StateError UInt64 :=
  if bytes.length = 8 then
    .ok (fromBeBytes bytes)
  else
    .error (.decode ("counter not 8 bytes: len=" ++ toString bytes.length))

/-- `u64::saturating_add` -/
def saturatingAdd (a b : UInt64) : UInt64 := UInt64.ofNat (min (a.toNat + b.toNat) (2 ^ 64 - 1))

/-- The counter `incr_by` starts from: bytes that are no counter count as zero. -/
def counter (live : Option Bytes) : UInt64 :=
  (live.bind fun b => (decodeU64 b).toOption).getD 0

/-- `get_u64`, from what `get` returned. -/
def readU64 : Outcome → Outcome
  | .ok (.bytes (some bytes)) =>
    match decodeU64 bytes with
    | .ok n => .ok (.count n)
    | .error e => .err e
  | .ok (.bytes none) => .ok (.count 0)
  | other => other

/-! ## The reference: a map from keys to leases -/

/-- What a call answers, given the live value of its key. -/
def KvOp.answer : KvOp → Option Bytes → Outcome
  | .get _, live => .ok (.bytes live)
  | .setEx _ _ _, _ => .ok .unit
  | .del _, _ => .ok .unit
  | .setNx _ _ _, live => .ok (.flag live.isNone)
  | .compareRefresh _ expected _, live => .ok (.flag (live == some expected))
  | .compareDel _ expected, live => .ok (.flag (live == some expected))
  | .incrBy _ delta _, live => .ok (.count (saturatingAdd (counter live) delta))
  | .getU64 _, live => readU64 (.ok (.bytes live))

/-- What a call does to its key, given the live value and the expiry a new lease gets. -/
def KvOp.change {τ : Type} (expires : τ) : KvOp → Option Bytes → Change Bytes τ
  | .get _, _ => .keep
  | .setEx _ val _, _ => .put val expires
  | .del _, _ => .remove
  | .setNx _ val _, live => if live.isNone then .put val expires else .keep
  | .compareRefresh _ expected _, live =>
    if live == some expected then .put expected expires else .keep
  | .compareDel _ expected, live => if live == some expected then .remove else .keep
  | .incrBy _ delta _, live => .put (encodeU64 (saturatingAdd (counter live) delta)) expires
  | .getU64 _, _ => .keep

/-- A call to the reference at a moment. -/
def KvOp.at {τ : Type} (op : KvOp) (now expires : τ) : Request String Bytes τ Outcome where
  key := op.key
  now := now
  answer := op.answer
  change := op.change expires

/-! ## `MemoryKv` -/

structure Entry where
  bytes : Bytes
  expiresAt : Nat
  deriving DecidableEq, Repr

/-- `MIN_WRITES_PER_SWEEP` -/
def minWritesPerSweep : Nat := 256

/-- `MemoryKv`, with the poison flag of its mutex. -/
structure MemoryKv where
  map : FinMap String Entry
  writesSinceSweep : Nat
  poisoned : Bool

namespace MemoryKv

def new : MemoryKv where
  map := .empty
  writesSinceSweep := 0
  poisoned := false

/-- `State::note_write` -/
def noteWrite (s : MemoryKv) (now : Nat) : MemoryKv :=
  let writes := s.writesSinceSweep + 1
  if max minWritesPerSweep s.map.keys.card ≤ writes then
    { s with
      map := s.map.retain fun _ entry => decide (now < entry.expiresAt)
      writesSinceSweep := 0 }
  else
    { s with writesSinceSweep := writes }

/-- `Instant + Duration`; `lastInstant` is the latest that can be represented. -/
def addInstant (lastInstant now ttl : Nat) : Option Nat :=
  if now + ttl ≤ lastInstant then some (now + ttl) else none

def poisonedErr : StateError :=
  .redis "memory kv poisoned: poisoned lock: another task failed inside"

/-- `with_map`: a closure that panics (`none`) leaves the map as it is and the mutex
    poisoned. -/
def withMap (s : MemoryKv) (f : FinMap String Entry → Option (Reply × FinMap String Entry)) :
    Outcome × MemoryKv :=
  if s.poisoned then
    (.err poisonedErr, s)
  else
    match f s.map with
    | none => (.panicked, { s with poisoned := true })
    | some (out, map) => (.ok out, { s with map := map })

/-- `with_map_write` -/
def withMapWrite (s : MemoryKv) (now : Nat)
    (f : FinMap String Entry → Option (Reply × FinMap String Entry)) : Outcome × MemoryKv :=
  if s.poisoned then
    (.err poisonedErr, s)
  else
    match f s.map with
    | none => (.panicked, { s with poisoned := true })
    | some (out, map) => (.ok out, noteWrite { s with map := map } now)

variable (lastInstant : Nat) (s : MemoryKv) (now : Nat)

def get (key : String) : Outcome × MemoryKv :=
  s.withMap fun map =>
    match map.get? key with
    | some entry =>
      if now < entry.expiresAt then
        some (.bytes (some entry.bytes), map)
      else
        some (.bytes none, map.erase key)
    | none => some (.bytes none, map)

def setEx (key : String) (val : Bytes) (ttl : Nat) : Outcome × MemoryKv :=
  s.withMapWrite now fun map => do
    let expiresAt ← addInstant lastInstant now ttl
    some (.unit, map.insert key ⟨val, expiresAt⟩)

def del (key : String) : Outcome × MemoryKv :=
  s.withMap fun map => some (.unit, map.erase key)

def setNx (key : String) (val : Bytes) (ttl : Nat) : Outcome × MemoryKv :=
  s.withMapWrite now fun map =>
    let occupied := (map.get? key).any fun entry => decide (now < entry.expiresAt)
    if occupied then
      some (.flag false, map)
    else do
      let expiresAt ← addInstant lastInstant now ttl
      some (.flag true, map.insert key ⟨val, expiresAt⟩)

def compareRefresh (key : String) (expected : Bytes) (ttl : Nat) : Outcome × MemoryKv :=
  s.withMap fun map =>
    match map.get? key with
    | none => some (.flag false, map)
    | some entry =>
      if entry.expiresAt ≤ now then
        some (.flag false, map.erase key)
      else if entry.bytes = expected then do
        let expiresAt ← addInstant lastInstant now ttl
        some (.flag true, map.insert key { entry with expiresAt := expiresAt })
      else
        some (.flag false, map)

def compareDel (key : String) (expected : Bytes) : Outcome × MemoryKv :=
  s.withMap fun map =>
    match map.get? key with
    | none => some (.flag false, map)
    | some entry =>
      let expired := decide (entry.expiresAt ≤ now)
      let matching := decide (entry.bytes = expected)
      some (.flag (!expired && matching), if expired || matching then map.erase key else map)

def incrBy (key : String) (delta : UInt64) (ttl : Nat) : Outcome × MemoryKv :=
  s.withMapWrite now fun map => do
    let current := counter (((map.get? key).filter fun e => decide (now < e.expiresAt)).map
      Entry.bytes)
    let next := saturatingAdd current delta
    let expiresAt ← addInstant lastInstant now ttl
    some (.count next, map.insert key ⟨encodeU64 next, expiresAt⟩)

def getU64 (key : String) : Outcome × MemoryKv :=
  let (out, s') := s.get now key
  (readU64 out, s')

/-- The `AwKv` impl. -/
def call : KvOp → Outcome × MemoryKv
  | .get key => s.get now key
  | .setEx key val ttl => s.setEx lastInstant now key val ttl
  | .del key => s.del key
  | .setNx key val ttl => s.setNx lastInstant now key val ttl
  | .compareRefresh key expected ttl => s.compareRefresh lastInstant now key expected ttl
  | .compareDel key expected => s.compareDel now key expected
  | .incrBy key delta ttl => s.incrBy lastInstant now key delta ttl
  | .getU64 key => s.getU64 now key

end MemoryKv

/-! ## `RedbKv` -/

/-- `WRITES_PER_SWEEP` -/
def writesPerSweep : UInt64 := 1024

/-- `is_expired` -/
def isExpired (stored : Bytes) (now : UInt64) : Bool :=
  if stored.length < 8 then true else decide (fromBeBytes (stored.take 8) ≤ now)

/-- `now_ms`: a clock before the epoch reads zero. -/
def nowMs (t : Int) : UInt64 := UInt64.ofNat (t.toNat / 1000000)

/-- `ttl.as_millis() as u64` -/
def asMillis (ttl : Nat) : UInt64 := UInt64.ofNat (ttl / 1000000)

/-- `frame` -/
def frame (expiresAtMs : UInt64) (payload : Bytes) : Bytes := toBeBytes expiresAtMs ++ payload

/-- `live_payload` -/
def livePayload (stored : Bytes) (now : UInt64) : Option Bytes :=
  if stored.length < 8 then
    none
  else if fromBeBytes (stored.take 8) ≤ now then
    none
  else
    some (stored.drop 8)

inductive WriteAction where
  | none
  | remove
  | put (expiresAtMs : UInt64) (payload : Bytes)
  deriving DecidableEq, Repr

/-- `RedbKv`: the table and the count of writes since it was opened. -/
structure RedbKv where
  table : FinMap String Bytes
  writes : UInt64

namespace RedbKv

/-- `open`, on a file with a table. -/
def openFile (table : FinMap String Bytes) : RedbKv where
  table := table
  writes := 0

/-- `sweep_expired` -/
def sweepExpired (table : FinMap String Bytes) (now : UInt64) : FinMap String Bytes :=
  table.retain fun _ stored => !isExpired stored now

variable (s : RedbKv)

/-- `read_live` -/
def readLive (now : Int) (key : String) : Option Bytes :=
  (s.table.get? key).bind fun stored => livePayload stored (nowMs now)

def WriteAction.run (table : FinMap String Bytes) (key : String) :
    WriteAction → FinMap String Bytes
  | .none => table
  | .remove => table.erase key
  | .put expiresAtMs payload => table.insert key (frame expiresAtMs payload)

/-- `write_op`: one write transaction. -/
def writeOp (now : Int) (key : String) (f : Option Bytes → Reply × WriteAction) :
    Outcome × RedbKv :=
  let ms := nowMs now
  let live := (s.table.get? key).bind fun stored => livePayload stored ms
  let (result, action) := f live
  let table := WriteAction.run s.table key action
  let table :=
    if s.writes % writesPerSweep = writesPerSweep - 1 then sweepExpired table ms else table
  (.ok result, { table := table, writes := s.writes + 1 })

/-- `now_ms() + ttl.as_millis() as u64`, from the clock reading before the transaction's. -/
def addMs (checks : Bool) (issued : Int) (ttl : Nat) : Option UInt64 :=
  if checks ∧ 2 ^ 64 ≤ (nowMs issued).toNat + (asMillis ttl).toNat then none
  else some (nowMs issued + asMillis ttl)

/-- A write with an expiry: the sum is made, or panics, before the transaction begins. -/
def expiring (checks : Bool) (issued : Int) (ttl : Nat) (f : UInt64 → Outcome × RedbKv) :
    Outcome × RedbKv :=
  match addMs checks issued ttl with
  | none => (.panicked, s)
  | some expiresAtMs => f expiresAtMs

variable (checks : Bool) (issued now : Int)

def get (key : String) : Outcome × RedbKv := (.ok (.bytes (s.readLive now key)), s)

def setEx (key : String) (val : Bytes) (ttl : Nat) : Outcome × RedbKv :=
  s.expiring checks issued ttl fun expiresAtMs =>
    s.writeOp now key fun _ => (.unit, .put expiresAtMs val)

def del (key : String) : Outcome × RedbKv :=
  s.writeOp now key fun _ => (.unit, .remove)

def setNx (key : String) (val : Bytes) (ttl : Nat) : Outcome × RedbKv :=
  s.expiring checks issued ttl fun expiresAtMs =>
    s.writeOp now key fun live =>
      match live with
      | some _ => (.flag false, .none)
      | none => (.flag true, .put expiresAtMs val)

def compareRefresh (key : String) (expected : Bytes) (ttl : Nat) : Outcome × RedbKv :=
  s.expiring checks issued ttl fun expiresAtMs =>
    s.writeOp now key fun live =>
      match live with
      | some payload =>
        if payload = expected then (.flag true, .put expiresAtMs payload)
        else (.flag false, .none)
      | none => (.flag false, .none)

def compareDel (key : String) (expected : Bytes) : Outcome × RedbKv :=
  s.writeOp now key fun live =>
    match live with
    | some payload => if payload = expected then (.flag true, .remove) else (.flag false, .none)
    | none => (.flag false, .none)

def incrBy (key : String) (delta : UInt64) (ttl : Nat) : Outcome × RedbKv :=
  s.expiring checks issued ttl fun expiresAtMs =>
    s.writeOp now key fun live =>
      let next := saturatingAdd (counter live) delta
      (.count next, .put expiresAtMs (encodeU64 next))

def getU64 (key : String) : Outcome × RedbKv :=
  let (out, s') := s.get now key
  (readU64 out, s')

/-- The `AwKv` impl. -/
def call : KvOp → Outcome × RedbKv
  | .get key => s.get now key
  | .setEx key val ttl => s.setEx checks issued now key val ttl
  | .del key => s.del now key
  | .setNx key val ttl => s.setNx checks issued now key val ttl
  | .compareRefresh key expected ttl => s.compareRefresh checks issued now key expected ttl
  | .compareDel key expected => s.compareDel now key expected
  | .incrBy key delta ttl => s.incrBy checks issued now key delta ttl
  | .getU64 key => s.getU64 now key

end RedbKv

end Greentic.Kv
