import GreenticRunner.AssocMap
import GreenticRunner.Transition

/-! # The in-memory memory provider

    `InMemoryMemoryProvider` keeps one bucket of records for each session, under caps on the
    sizes of a record, the records and bytes of a bucket and the number of buckets.  A
    session that is new to a FULL provider evicts the least recently used one, and the caps
    of the bucket are looked at only afterwards.

    * `Overruns` — the calls that evict a session for a record that no bucket takes;
    * `remember_atomic_iff` — every run keeps the caps, and a `remember` that fails changes no
      record unless it has evicted one first. -/

namespace Greentic.Memory

open AssocMaps Transition

/-! ## The provider -/

/-- `MemoryRecord`. -/
structure MemoryRecord where
  key : String
  value : String
  deriving DecidableEq

/-- The bytes that a record counts for. -/
def MemoryRecord.size (r : MemoryRecord) : Nat := r.key.utf8ByteSize + r.value.utf8ByteSize

/-- `MemoryLimits`. -/
structure MemoryLimits where
  maxKeyBytes : Nat
  maxValueBytes : Nat
  maxEntriesPerSession : Nat
  maxBytesPerSession : Nat
  maxSessions : Nat

/-- `MemoryError::LimitExceeded`, with its text. -/
inductive MemoryError where
  | limitExceeded (text : String)
  deriving DecidableEq

/-- `Bucket`. -/
structure Bucket where
  entries : AssocMap String MemoryRecord
  bytes : Nat
  lastUsed : Nat

/-- `Bucket::default`. -/
def Bucket.default : Bucket := ⟨.empty, 0, 0⟩

/-- A tenant's prefix and a session id. -/
abbrev BucketKey : Type := String × String

/-- `Inner`. -/
structure Inner where
  sessions : AssocMap BucketKey Bucket
  clock : Nat

/-- `Inner::default`. -/
def Inner.default : Inner := ⟨.empty, 0⟩

/-- The session that makes room for a new one: the least recently used one, if there is a bucket
    too many. -/
def evicted (limits : MemoryLimits) (s : Inner) (key : BucketKey) : Option (BucketKey × Bucket) :=
  if (s.sessions.get? key).isNone ∧ limits.maxSessions ≤ s.sessions.size then
    s.sessions.least? Bucket.lastUsed
  else none

/-- The buckets that are left then. -/
def roomFor (limits : MemoryLimits) (s : Inner) (key : BucketKey) : AssocMap BucketKey Bucket :=
  match evicted limits s key with
  | some oldest => s.sessions.erase oldest.1
  | none => s.sessions

/-- What a record does to a bucket, or the cap that refuses it. -/
def Bucket.put (limits : MemoryLimits) (b : Bucket) (r : MemoryRecord) : Except MemoryError Bucket :=
  let existing := (b.entries.get? r.key).map MemoryRecord.size
  if existing.isNone ∧ limits.maxEntriesPerSession ≤ b.entries.size then
    .error (.limitExceeded
      ("at most " ++ toString limits.maxEntriesPerSession ++ " entries per session"))
  else
    -- `saturating_sub`.
    let bytes := b.bytes - existing.getD 0 + r.size
    if limits.maxBytesPerSession < bytes then
      .error (.limitExceeded
        ("at most " ++ toString limits.maxBytesPerSession ++ " bytes per session"))
    else .ok { b with entries := b.entries.insert r.key r, bytes }

/-- `InMemoryMemoryProvider::store`. -/
def store (limits : MemoryLimits) (s : Inner) (key : BucketKey) (r : MemoryRecord) :
    Except MemoryError Unit × Inner :=
  if limits.maxKeyBytes < r.key.utf8ByteSize then
    (.error (.limitExceeded ("key is longer than " ++ toString limits.maxKeyBytes ++ " bytes")), s)
  else if limits.maxValueBytes < r.value.utf8ByteSize then
    (.error (.limitExceeded
      ("value is longer than " ++ toString limits.maxValueBytes ++ " bytes")), s)
  else
    let now := s.clock + 1
    let sessions := roomFor limits s key
    let bucket := { (sessions.get? key).getD Bucket.default with lastUsed := now }
    match bucket.put limits r with
    -- The bucket is in the map before its caps are looked at.
    | .error e => (.error e, ⟨sessions.insert key bucket, now⟩)
    | .ok bucket => (.ok (), ⟨sessions.insert key bucket, now⟩)

/-- `InMemoryMemoryProvider::load`. -/
def load (s : Inner) (key : BucketKey) (name : String) : Option MemoryRecord × Inner :=
  match s.sessions.get? key with
  | none => (none, { s with clock := s.clock + 1 })
  | some b =>
      (b.entries.get? name,
        ⟨s.sessions.insert key { b with lastUsed := s.clock + 1 }, s.clock + 1⟩)

/-- A call of the provider. -/
inductive Call where
  | remember (key : BucketKey) (r : MemoryRecord)
  | recall (key : BucketKey) (name : String)

/-- The calls are served one at a time, under the mutex. -/
def serve (limits : MemoryLimits) (s : Inner) : Call → Option Inner
  | .remember key r => some (store limits s key r).2
  | .recall key name => some (load s key name).2

/-- What a `recall` finds. -/
def readable (s : Inner) (key : BucketKey) (name : String) : Option MemoryRecord :=
  (s.sessions.get? key).bind fun b => b.entries.get? name

/-! ## The caps -/

/-- A bucket within its caps. -/
structure Bucket.Within (limits : MemoryLimits) (b : Bucket) : Prop where
  entries : b.entries.size ≤ limits.maxEntriesPerSession
  counted : b.bytes = b.entries.total MemoryRecord.size
  bytes : b.bytes ≤ limits.maxBytesPerSession

/-- The provider within its caps. -/
structure Within (limits : MemoryLimits) (s : Inner) : Prop where
  sessions : s.sessions.size ≤ limits.maxSessions
  buckets : ∀ e ∈ s.sessions.entries, e.2.Within limits

variable {limits : MemoryLimits} {s s' : Inner} {key : BucketKey} {r : MemoryRecord}

theorem Bucket.default_within (limits : MemoryLimits) : Bucket.default.Within limits :=
  ⟨Nat.zero_le _, rfl, Nat.zero_le _⟩

/-- A bucket that takes a record stays within its caps. -/
theorem Bucket.Within.put {b b' : Bucket} (h : b.Within limits) (hp : b.put limits r = .ok b') :
    b'.Within limits := by
  unfold Bucket.put at hp
  simp only at hp
  split at hp
  next => exact nomatch hp
  next hcount =>
    split at hp
    next => exact nomatch hp
    next hbytes =>
      cases hp
      cases hget : b.entries.get? r.key with
      | none =>
          rw [hget] at hcount hbytes
          simp only [Option.map_none, Option.isNone_none, true_and, Option.getD_none,
            Nat.sub_zero, Nat.not_le, Nat.not_lt] at hcount hbytes
          refine ⟨?_, ?_, ?_⟩
          · show (b.entries.insert r.key r).size ≤ _
            rw [AssocMap.size_insert_new hget]
            exact hcount
          · show b.bytes - _ + r.size = (b.entries.insert r.key r).total _
            rw [AssocMap.total_insert, AssocMap.total_erase_none _ hget, ← h.counted]
            exact Nat.add_comm _ _
          · exact hbytes
      | some old =>
          rw [hget] at hbytes
          have htotal := AssocMap.total_erase MemoryRecord.size hget
          refine ⟨?_, ?_, ?_⟩
          · show (b.entries.insert r.key r).size ≤ _
            rw [AssocMap.size_insert_old hget]
            exact h.entries
          · show b.bytes - _ + r.size = (b.entries.insert r.key r).total _
            rw [AssocMap.total_insert, h.counted, ← htotal]
            simp only [Option.map_some, Option.getD_some]
            omega
          · exact Nat.not_lt.mp hbytes

theorem Bucket.Within.used {b : Bucket} (h : b.Within limits) (now : Nat) :
    Bucket.Within limits { b with lastUsed := now } :=
  ⟨h.entries, h.counted, h.bytes⟩

/-! ## One call -/

theorem Within.kept (h : Within limits s) (key : BucketKey) :
    ∀ e ∈ (roomFor limits s key).entries, e.2.Within limits := by
  intro e he
  unfold roomFor at he
  split at he
  next => exact h.buckets e (AssocMap.mem_erase he)
  next => exact h.buckets e he

/-- A session that is new stays without a bucket when another one is evicted. -/
theorem erase_new (hnew : s.sessions.get? key = none) (oldest : BucketKey) :
    (s.sessions.erase oldest).get? key = none := by
  by_cases hk : key = oldest
  · rw [hk]
    exact AssocMap.get?_erase_self _ _
  · rw [AssocMap.get?_erase_of_ne hk]
    exact hnew

/-- There is room for the bucket of the session. -/
theorem Within.room (hmax : 1 ≤ limits.maxSessions) (h : Within limits s) (b : Bucket) :
    ((roomFor limits s key).insert key b).size ≤ limits.maxSessions := by
  unfold roomFor evicted
  by_cases hev : (s.sessions.get? key).isNone ∧ limits.maxSessions ≤ s.sessions.size
  · -- A full map: one bucket goes, one comes.
    rw [if_pos hev]
    obtain ⟨oldest, holdest⟩ := AssocMap.least?_isSome (f := Bucket.lastUsed) (m := s.sessions)
      (Nat.lt_of_lt_of_le hmax hev.2)
    have hnone := Option.isNone_iff_eq_none.mp hev.1
    have hsize := AssocMap.size_erase (AssocMap.get?_of_least? holdest)
    have hnew := erase_new hnone oldest.1
    rw [holdest]
    show ((s.sessions.erase oldest.1).insert key b).size ≤ _
    rw [AssocMap.size_insert_new hnew, hsize]
    exact h.sessions
  · rw [if_neg hev]
    show (s.sessions.insert key b).size ≤ _
    cases hget : s.sessions.get? key with
    | some old =>
        rw [AssocMap.size_insert_old hget]
        exact h.sessions
    | none =>
        rw [AssocMap.size_insert_new hget]
        rw [hget] at hev
        exact Nat.lt_of_not_le fun hle => hev ⟨rfl, hle⟩

/-- The bucket that a record is put in. -/
theorem Within.bucket (h : Within limits s) (now : Nat) :
    Bucket.Within limits
      { ((roomFor limits s key).get? key).getD Bucket.default with lastUsed := now } := by
  cases hget : (roomFor limits s key).get? key with
  | none => exact (Bucket.default_within limits).used now
  | some b =>
      have hmem := (AssocMap.get?_eq_some_iff _ _ _).mp hget
      exact (h.kept key (key, b) hmem).used now

theorem Within.insert (hmax : 1 ≤ limits.maxSessions) (h : Within limits s) {b : Bucket}
    (hb : b.Within limits) (now : Nat) :
    Within limits ⟨(roomFor limits s key).insert key b, now⟩ := by
  refine ⟨h.room hmax b, ?_⟩
  intro e he
  rcases AssocMap.mem_insert he with rfl | he
  · exact hb
  · exact h.kept key e he

/-- `remember` keeps the caps, whether it succeeds or not. -/
theorem Within.stored (hmax : 1 ≤ limits.maxSessions) (h : Within limits s) (key : BucketKey)
    (r : MemoryRecord) : Within limits (store limits s key r).2 := by
  unfold store
  split
  next => exact h
  next =>
    split
    next => exact h
    next =>
      simp only
      split
      next => exact h.insert hmax (h.bucket _) _
      next b hb => exact h.insert hmax ((h.bucket _).put hb) _

theorem Within.loaded (h : Within limits s) (key : BucketKey) (name : String) :
    Within limits (load s key name).2 := by
  unfold load
  split
  next => exact ⟨h.sessions, h.buckets⟩
  next b hb =>
    refine ⟨?_, ?_⟩
    · show (s.sessions.insert key _).size ≤ _
      rw [AssocMap.size_insert_old hb]
      exact h.sessions
    · intro e he
      rcases AssocMap.mem_insert he with rfl | he
      · exact (h.buckets (key, b) ((AssocMap.get?_eq_some_iff _ _ _).mp hb)).used _
      · exact h.buckets e he

/-- Every run keeps the caps. -/
theorem Within.reach (hmax : 1 ≤ limits.maxSessions)
    (h : Reach (serve limits) Any Inner.default s) : Within limits s := by
  refine Reach.inv ?_ ?_ h
  · exact ⟨Nat.zero_le _, fun _ he => nomatch he⟩
  · intro s l s' hs _ hstep
    cases l with
    | remember key r =>
        cases hstep
        exact hs.stored hmax key r
    | _ =>
        rename_i key name _
        cases hstep
        exact hs.loaded key name

/-! ## Failures -/

/-- A record that no bucket can take comes for a new session, the provider is full, and the least
    recently used session has something to lose. -/
structure Overruns (limits : MemoryLimits) (s : Inner) (key : BucketKey) (r : MemoryRecord) :
    Prop where
  keyFits : r.key.utf8ByteSize ≤ limits.maxKeyBytes
  valueFits : r.value.utf8ByteSize ≤ limits.maxValueBytes
  new : s.sessions.get? key = none
  full : limits.maxSessions ≤ s.sessions.size
  large : limits.maxBytesPerSession < r.size
  loses : ∃ oldest, s.sessions.least? Bucket.lastUsed = some oldest ∧ oldest.2.entries.size ≠ 0

/-- What a session holds once its bucket is in the map. -/
theorem readable_insert (sessions : AssocMap BucketKey Bucket) (b : Bucket) (now : Nat)
    (key' : BucketKey) (name : String) :
    readable ⟨sessions.insert key b, now⟩ key' name
      = if key' = key then b.entries.get? name else (sessions.get? key').bind (·.entries.get? name) := by
  unfold readable
  by_cases hk : key' = key
  · rw [if_pos hk, hk, AssocMap.get?_insert_self]
    rfl
  · rw [if_neg hk, AssocMap.get?_insert_of_ne hk]

/-- The state of a `remember` whose bucket refuses the record. -/
theorem store_refused (hkey : r.key.utf8ByteSize ≤ limits.maxKeyBytes)
    (hvalue : r.value.utf8ByteSize ≤ limits.maxValueBytes) {e : MemoryError} {b : Bucket}
    (hb : { ((roomFor limits s key).get? key).getD Bucket.default with lastUsed := s.clock + 1 } = b)
    (hp : b.put limits r = .error e) :
    store limits s key r = (.error e, ⟨(roomFor limits s key).insert key b, s.clock + 1⟩) := by
  unfold store
  rw [if_neg (Nat.not_lt.mpr hkey), if_neg (Nat.not_lt.mpr hvalue)]
  simp only [hb, hp]

/-- A bucket is evicted for a new session of a full provider. -/
theorem evicted_eq (hnew : s.sessions.get? key = none) (hfull : limits.maxSessions ≤ s.sessions.size) :
    evicted limits s key = s.sessions.least? Bucket.lastUsed := by
  unfold evicted
  rw [if_pos ⟨by rw [hnew]; rfl, hfull⟩]

theorem roomFor_eq {oldest : BucketKey × Bucket} (hnew : s.sessions.get? key = none)
    (hfull : limits.maxSessions ≤ s.sessions.size)
    (ho : s.sessions.least? Bucket.lastUsed = some oldest) :
    roomFor limits s key = s.sessions.erase oldest.1 := by
  unfold roomFor
  rw [evicted_eq hnew hfull, ho]

/-- A new bucket refuses a record by its size, or because it may have no entry at all. -/
theorem put_new_error (now : Nat) (r : MemoryRecord) :
    (∃ e, Bucket.put limits { Bucket.default with lastUsed := now } r = .error e) ↔
      limits.maxEntriesPerSession = 0 ∨ limits.maxBytesPerSession < r.size := by
  have hget : (AssocMap.empty : AssocMap String MemoryRecord).get? r.key = none := rfl
  have hsize : (AssocMap.empty : AssocMap String MemoryRecord).size = 0 := rfl
  simp only [Bucket.put, Bucket.default, hget, hsize, Option.map_none, Option.isNone_none, true_and,
    Nat.le_zero, Option.getD_none, Nat.sub_zero, Nat.zero_add]
  constructor
  · rintro ⟨e, he⟩
    split at he
    next hzero => exact .inl hzero
    next =>
      split at he
      next hlarge => exact .inr hlarge
      next => exact nomatch he
  · intro h
    by_cases hzero : limits.maxEntriesPerSession = 0
    · rw [if_pos hzero]
      exact ⟨_, rfl⟩
    · rw [if_neg hzero, if_pos (h.resolve_left hzero)]
      exact ⟨_, rfl⟩

/-- A record that overruns takes the evicted session with it. -/
theorem Overruns.loses_records (h : Overruns limits s key r) :
    ∃ e, (store limits s key r).1 = .error e ∧
      ∃ key' name, readable (store limits s key r).2 key' name ≠ readable s key' name := by
  obtain ⟨oldest, ho, hsize⟩ := h.loses
  have hgone := erase_new h.new oldest.1
  obtain ⟨e, he⟩ := (put_new_error (s.clock + 1) r).mpr (.inr h.large)
  have hbucket : { ((roomFor limits s key).get? key).getD Bucket.default with
      lastUsed := s.clock + 1 } = { Bucket.default with lastUsed := s.clock + 1 } := by
    rw [roomFor_eq h.new h.full ho, hgone]
    rfl
  have hstore := store_refused h.keyFits h.valueFits hbucket he
  -- The evicted session has a record that is no longer there.
  obtain ⟨entry, hentry⟩ := List.exists_mem_of_length_pos (Nat.pos_of_ne_zero hsize)
  have hread : oldest.2.entries.get? entry.1 = some entry.2 :=
    (AssocMap.get?_eq_some_iff _ _ _).mpr hentry
  have hold : s.sessions.get? oldest.1 = some oldest.2 := AssocMap.get?_of_least? ho
  have hne : oldest.1 ≠ key := by
    intro heq
    rw [heq, h.new] at hold
    exact nomatch hold
  refine ⟨e, by rw [hstore], oldest.1, entry.1, ?_⟩
  rw [hstore, readable_insert, if_neg hne, roomFor_eq h.new h.full ho, AssocMap.get?_erase_self,
    readable, hold, Option.bind_some, hread]
  exact fun hnone => nomatch hnone

/-- Without an eviction a refusal leaves every record. -/
theorem refused_kept (hnone : evicted limits s key = none) (now : Nat) (key' : BucketKey)
    (name : String) :
    readable ⟨(roomFor limits s key).insert key
      { ((roomFor limits s key).get? key).getD Bucket.default with lastUsed := now }, now⟩ key' name
      = readable s key' name := by
  have hroom : roomFor limits s key = s.sessions := by
    unfold roomFor
    rw [hnone]
  rw [readable_insert, hroom]
  by_cases hk : key' = key
  · rw [if_pos hk, hk, readable]
    cases s.sessions.get? key with
    | none => rfl
    | some b => rfl
  · rw [if_neg hk]
    rfl

/-- So does one that evicted a session without records. -/
theorem refused_empty {oldest : BucketKey × Bucket} (hnew : s.sessions.get? key = none)
    (hfull : limits.maxSessions ≤ s.sessions.size)
    (ho : s.sessions.least? Bucket.lastUsed = some oldest) (hempty : oldest.2.entries.size = 0)
    (now : Nat) (key' : BucketKey) (name : String) :
    readable ⟨(roomFor limits s key).insert key
      { ((roomFor limits s key).get? key).getD Bucket.default with lastUsed := now }, now⟩ key' name
      = readable s key' name := by
  have hold : s.sessions.get? oldest.1 = some oldest.2 := AssocMap.get?_of_least? ho
  rw [readable_insert, roomFor_eq hnew hfull ho, erase_new hnew oldest.1]
  by_cases hk : key' = key
  · rw [if_pos hk, hk, readable, hnew]
    rfl
  · rw [if_neg hk, readable]
    by_cases hoold : key' = oldest.1
    · have hnil : oldest.2.entries.entries = [] := List.length_eq_zero_iff.mp hempty
      rw [hoold, AssocMap.get?_erase_self, hold, Option.bind_none, Option.bind_some, AssocMap.get?,
        hnil]
      rfl
    · rw [AssocMap.get?_erase_of_ne hoold]

/-- A refusal that does not overrun leaves every record. -/
theorem Within.refused (h : Within limits s) (hnot : ¬ Overruns limits s key r) {e : MemoryError}
    (he : (store limits s key r).1 = .error e) (key' : BucketKey) (name : String) :
    readable (store limits s key r).2 key' name = readable s key' name := by
  by_cases hkey : r.key.utf8ByteSize ≤ limits.maxKeyBytes
  · by_cases hvalue : r.value.utf8ByteSize ≤ limits.maxValueBytes
    · obtain ⟨b, hb⟩ : ∃ b, { ((roomFor limits s key).get? key).getD Bucket.default with
          lastUsed := s.clock + 1 } = b := ⟨_, rfl⟩
      cases hp : b.put limits r with
      | ok b' =>
          unfold store at he
          rw [if_neg (Nat.not_lt.mpr hkey), if_neg (Nat.not_lt.mpr hvalue)] at he
          simp only [hb, hp] at he
          exact nomatch he
      | error e' =>
          rw [store_refused hkey hvalue hb hp, ← hb]
          cases hev : evicted limits s key with
          | none => exact refused_kept hev _ key' name
          | some oldest =>
              obtain ⟨⟨hisnone, hfull⟩, ho⟩ : ((s.sessions.get? key).isNone ∧
                  limits.maxSessions ≤ s.sessions.size) ∧
                    s.sessions.least? Bucket.lastUsed = some oldest := by
                unfold evicted at hev
                split at hev
                next hcond => exact ⟨hcond, hev⟩
                next => exact nomatch hev
              have hnew := Option.isNone_iff_eq_none.mp hisnone
              refine refused_empty hnew hfull ho ?_ _ key' name
              -- The evicted session can have had no record: the caps allow none.
              by_contra hsize
              have hdefault : b = { Bucket.default with lastUsed := s.clock + 1 } := by
                rw [← hb, roomFor_eq hnew hfull ho, erase_new hnew oldest.1]
                rfl
              rw [hdefault] at hp
              rcases (put_new_error (s.clock + 1) r).mp ⟨e', hp⟩ with hzero | hlarge
              · have hwithin := (h.buckets oldest (List.argmin_mem ho)).entries
                omega
              · exact hnot ⟨hkey, hvalue, hnew, hfull, hlarge, oldest, ho, hsize⟩
    · have hstate : (store limits s key r).2 = s := by
        unfold store
        rw [if_neg (Nat.not_lt.mpr hkey), if_pos (Nat.not_le.mp hvalue)]
      rw [hstate]
  · have hstate : (store limits s key r).2 = s := by
      unfold store
      rw [if_pos (Nat.not_le.mp hkey)]
    rw [hstate]

/-- **THE CAPS ALWAYS HOLD, AND A FAILURE LOSES RECORDS ONLY BY EVICTION**: in every state that any
    calls lead to, the buckets, their entries and their bytes are within the caps and the byte
    counters are right; and a `remember` leaves every record readable when it fails, exactly unless
    its record is too large for any bucket, its session is new, the provider is full and the
    session that it evicts has a record. -/
theorem remember_atomic_iff (limits : MemoryLimits) (hmax : 1 ≤ limits.maxSessions) {s : Inner}
    (h : Reach (serve limits) Any Inner.default s) :
    Within limits s ∧ ∀ key r,
      (∀ e, (store limits s key r).1 = .error e →
        ∀ key' name, readable (store limits s key r).2 key' name = readable s key' name) ↔
      ¬ Overruns limits s key r := by
  have hwithin := Within.reach hmax h
  refine ⟨hwithin, fun key r => ⟨?_, ?_⟩⟩
  · intro hkept hover
    obtain ⟨e, he, key', name, hne⟩ := hover.loses_records
    exact hne (hkept e he key' name)
  · intro hnot e he key' name
    exact hwithin.refused hnot he key' name

/-- One session with four bytes. -/
def tiny : MemoryLimits := ⟨8, 8, 3, 4, 1⟩

/-- Its provider once the first session has remembered something. -/
def tinyFull : Inner := (store tiny Inner.default ("acme", "s1") ⟨"k", "1"⟩).2

theorem tinyFull_reach : Reach (serve tiny) Any Inner.default tinyFull :=
  .next (l := .remember ("acme", "s1") ⟨"k", "1"⟩) .start rfl trivial

theorem remember_atomic_iff_tiny :
    Within tiny tinyFull ∧
      readable (store tiny tinyFull ("acme", "s1") ⟨"k", "large"⟩).2 ("acme", "s1") "k"
        = some ⟨"k", "1"⟩ := by
  obtain ⟨hwithin, hkept⟩ := remember_atomic_iff tiny (by decide) tinyFull_reach
  refine ⟨hwithin, ?_⟩
  have hnot : ¬ Overruns tiny tinyFull ("acme", "s1") ⟨"k", "large"⟩ :=
    fun h => absurd h.new (by decide +kernel)
  have hsame := (hkept ("acme", "s1") ⟨"k", "large"⟩).mpr hnot
    (.limitExceeded "at most 4 bytes per session") (by decide +kernel) ("acme", "s1") "k"
  rw [hsame]
  decide +kernel

/-- A record that is refused for its size has evicted the session of another user. -/
theorem refused_record_evicts :
    ¬ ∀ limits : MemoryLimits, 1 ≤ limits.maxSessions →
      ∀ s, Reach (serve limits) Any Inner.default s → ∀ key r e,
        (store limits s key r).1 = .error e →
          ∀ key' name, readable (store limits s key r).2 key' name = readable s key' name := by
  intro h
  have hsame := h tiny (by decide) tinyFull tinyFull_reach ("acme", "s2") ⟨"k", "large"⟩
    (.limitExceeded "at most 4 bytes per session") (by decide +kernel) ("acme", "s1") "k"
  exact absurd hsame (by decide +kernel)

end Greentic.Memory
