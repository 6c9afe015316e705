import GreenticRunner.DispatchBridge
import GreenticRunner.Transition

/-! # A request over all its deliveries

    The durable consumer redelivers a message, with a growing count, until it is
    acked, terminated or the count is exhausted.  Each delivery may land on
    another process, find the session busy, fail, run out of time or lose its
    settlement; other messages fail beside it and share the table that counts
    failed attempts.

    * `Settled` — it is dropped only after an answer, and a busy session is handed
      back only while another delivery is allowed;
    * `Counted` — the failures in a row on one process never reach the bound,
      unless its count was pushed out of the table;
    * `awaited_request_answered`, `evicted_overruns`. -/

namespace Greentic.Bridge

open RecencyTable Transition

/-! ## The stream -/

/-- Where a message is. -/
inductive Fate where
  | pending
  | acked
  | terminated
  | exhausted
  deriving DecidableEq

/-- A message in the stream: its delivery count and fate, the responses published
    for it, and the table of each process.  The rest is history: the counts at
    which a busy session was handed back, the failures in a row on each process
    since it last settled the message, and the other messages that failed there
    since the last of them. -/
structure Stream where
  delivered : Nat
  fate : Fate
  responses : List Published
  tables : Nat → Table Nat
  busyNaks : List Nat
  streak : Nat → Nat
  others : Nat → Finset Nat

/-- A message just published. -/
def Stream.published : Stream :=
  ⟨0, .pending, [], fun _ => .empty, [], fun _ => 0, fun _ => ∅⟩

/-- One delivery: the process that gets it, its count, whether its metadata can
    be read, how its handler ends and whether its settlement arrives. -/
structure Delivery where
  process : Nat
  count : Nat
  readable : Bool
  age : Nat
  stepTimeout : Option Nat
  handling : Handling
  settled : Bool

/-- The metadata of a delivery of the message `sequence`. -/
def Delivery.info (d : Delivery) (sequence : Nat) : Option Info :=
  if d.readable then some ⟨d.count, sequence, d.age⟩ else none

/-- What happens: a delivery, or another message fails or settles on a process. -/
inductive Label where
  | deliver (d : Delivery)
  | otherFails (process sequence : Nat)
  | otherSettles (process sequence : Nat)

/-- The consumer drops a message on an ack or a termination that arrives, and when
    its count is exhausted. -/
def fateAfter (kind : AckKind) (settled : Bool) (count : Nat) : Fate :=
  match kind, settled with
  | .ack, true => .acked
  | .term, true => .terminated
  | _, _ => if consumerMaxDeliver ≤ count then .exhausted else .pending

/-- The failures in a row after a delivery. -/
def streakAfter (r : Delivered) (streak : Nat) : Nat :=
  match r.kind, r.result with
  | .nak _, .error _ => streak + 1
  | .nak _, .ok _ => streak
  | _, _ => 0

/-- The other messages that failed since the last failure, after a delivery. -/
def othersAfter (r : Delivered) (others : Finset Nat) : Finset Nat :=
  match r.result with
  | .error _ => ∅
  | .ok _ => others

/-- The counts at which a busy session was handed back, after a delivery. -/
def busyNaksAfter (r : Delivered) (count : Nat) (naks : List Nat) : List Nat :=
  match r.result with
  | .ok .busy => naks ++ [count]
  | _ => naks

section

variable (decode : List UInt8 → Except String RuntimeDispatchRequest) (msg : Message)
  (sequence : Nat)

/-- What a delivery does on its process. -/
def Stream.handle (s : Stream) (d : Delivery) : Delivered :=
  handleOne decode msg (s.tables d.process) (d.info sequence) d.stepTimeout d.handling

/-- The stream after a delivery. -/
def Stream.deliver (s : Stream) (d : Delivery) : Stream :=
  let r := s.handle decode msg sequence d
  { delivered := d.count
    fate := fateAfter r.kind d.settled d.count
    responses := s.responses ++ r.responses
    tables := Function.update s.tables d.process r.table
    busyNaks := busyNaksAfter r d.count s.busyNaks
    streak := Function.update s.streak d.process (streakAfter r (s.streak d.process))
    others := Function.update s.others d.process (othersAfter r (s.others d.process)) }

/-- The stream after another message failed on a process. -/
def Stream.otherFails (s : Stream) (process other : Nat) : Stream :=
  { s with
    tables := Function.update s.tables process
      ((s.tables process).record errorAttemptsCap other)
    others := Function.update s.others process (insert other (s.others process)) }

/-- The stream after another message was settled on a process. -/
def Stream.otherSettles (s : Stream) (process other : Nat) : Stream :=
  { s with tables := Function.update s.tables process ((s.tables process).clear other) }

/-- One step of the stream. -/
def step (s : Stream) : Label → Option Stream
  | .deliver d =>
      if s.fate = .pending ∧ s.delivered < d.count ∧ d.count ≤ consumerMaxDeliver then
        some (s.deliver decode msg sequence d)
      else none
  | .otherFails process other =>
      if other ≠ sequence then some (s.otherFails process other) else none
  | .otherSettles process other =>
      if other ≠ sequence then some (s.otherSettles process other) else none

/-- What a step of the stream can be. -/
theorem step_cases {s s' : Stream} {l : Label} (h : step decode msg sequence s l = some s') :
    (∃ d, l = .deliver d ∧ d.count ≤ consumerMaxDeliver ∧ s' = s.deliver decode msg sequence d)
      ∨ (∃ p x, l = .otherFails p x ∧ x ≠ sequence ∧ s' = s.otherFails p x)
      ∨ ∃ p x, l = .otherSettles p x ∧ x ≠ sequence ∧ s' = s.otherSettles p x := by
  cases l with
  | deliver d =>
      simp only [step] at h
      split at h
      · rename_i hg
        exact Or.inl ⟨d, rfl, hg.2.2, (Option.some.inj h).symm⟩
      · exact nomatch h
  | otherFails p x =>
      simp only [step] at h
      split at h
      · exact Or.inr (Or.inl ⟨p, x, rfl, ‹_›, (Option.some.inj h).symm⟩)
      · exact nomatch h
  | otherSettles p x =>
      simp only [step] at h
      split at h
      · exact Or.inr (Or.inr ⟨p, x, rfl, ‹_›, (Option.some.inj h).symm⟩)
      · exact nomatch h

/-! ## No request is dropped unanswered -/

/-- A dropped message was answered, and no busy session was handed back on the last
    delivery. -/
structure Settled (correlation : String) (s : Stream) : Prop where
  answered : s.fate ≠ .pending → Answered correlation s.responses
  busy : ∀ n ∈ s.busyNaks, n < consumerMaxDeliver

theorem fateAfter_nak (delay : Nat) (settled : Bool) {count : Nat}
    (h : count < consumerMaxDeliver) : fateAfter (.nak delay) settled count = .pending := by
  unfold fateAfter
  rw [if_neg (Nat.not_le.mpr h)]

variable {decode msg sequence}

/-- Metadata that leaves a delivery was read from the message. -/
theorem deliveryInfo_count {d : Delivery}
    (h : (deliveryInfo (d.info sequence)).delivered < consumerMaxDeliver) :
    (deliveryInfo (d.info sequence)).delivered = d.count := by
  unfold Delivery.info at h ⊢
  cases hr : d.readable with
  | true => rfl
  | false =>
      rw [hr] at h
      exact absurd h (Nat.lt_irrefl _)

/-- A delivery that was not busy adds no refusal. -/
theorem busyNaksAfter_of_ne {r : Delivered} (h : r.result ≠ .ok .busy) (count : Nat)
    (naks : List Nat) : busyNaksAfter r count naks = naks := by
  unfold busyNaksAfter
  split
  · rename_i hbusy
    exact absurd hbusy h
  · rfl

/-- A busy delivery is refused. -/
theorem handleOne_busy_nak {table : Table Nat} {info : Option Info} {stepTimeout : Option Nat}
    {handling : Handling}
    (h : (handleOne decode msg table info stepTimeout handling).result = .ok .busy) :
    (handleOne decode msg table info stepTimeout handling).kind
      = .nak (busyRedeliverDelay (deliveryInfo info).delivered) := by
  unfold handleOne at h ⊢
  dsimp only at h ⊢
  rw [h]
  rcases settleDelivery_ok table .busy (deliveryInfo info).sequence (deliveryInfo info).delivered
    with ⟨-, hs⟩ | ⟨hs, -⟩
  · rw [hs]
  · exact absurd (by cases (deliveryInfo info).sequence <;> rfl) (hs (busyRedeliverDelay
      (deliveryInfo info).delivered))

/-- **ONE STEP** keeps the message answered before it is dropped. -/
theorem settled_step {correlation : String} (hc : msg.header correlationHeader = some correlation)
    {s s' : Stream} {l : Label} (h : Settled correlation s)
    (hs : step decode msg sequence s l = some s') : Settled correlation s' := by
  rcases step_cases decode msg sequence hs with ⟨d, -, -, rfl⟩ | ⟨p, x, -, -, rfl⟩ |
    ⟨p, x, -, -, rfl⟩
  · have hcases := handleOne_answered decode (s.tables d.process) (d.info sequence)
      d.stepTimeout d.handling hc
    -- handed back: the count leaves another delivery, so the message is still pending
    have hback : ∀ delay, (s.handle decode msg sequence d).kind = .nak delay →
        (deliveryInfo (d.info sequence)).delivered < consumerMaxDeliver →
        d.count < consumerMaxDeliver ∧ (s.deliver decode msg sequence d).fate = .pending := by
      intro delay hkind hlt
      have hcount : d.count < consumerMaxDeliver := deliveryInfo_count hlt ▸ hlt
      refine ⟨hcount, ?_⟩
      show fateAfter (s.handle decode msg sequence d).kind d.settled d.count = .pending
      rw [hkind]
      exact fateAfter_nak delay d.settled hcount
    rcases hcases with ⟨hres, hlt⟩ | ⟨hne, ⟨delay, hkind⟩, hlt⟩ | ⟨hne, hans⟩
    · obtain ⟨hcount, hpending⟩ := hback _ (handleOne_busy_nak hres) (Nat.lt_of_succ_lt hlt)
      refine ⟨fun hf => absurd hpending hf, ?_⟩
      intro n hn
      have hnaks : (s.deliver decode msg sequence d).busyNaks = s.busyNaks ++ [d.count] := by
        show busyNaksAfter (s.handle decode msg sequence d) d.count s.busyNaks = _
        unfold busyNaksAfter Stream.handle
        rw [hres]
      rw [hnaks] at hn
      rcases List.mem_append.mp hn with hn | hn
      · exact h.busy n hn
      · rw [List.mem_singleton.mp hn]
        exact hcount
    · obtain ⟨-, hpending⟩ := hback delay hkind hlt
      refine ⟨fun hf => absurd hpending hf, ?_⟩
      show ∀ n ∈ busyNaksAfter (s.handle decode msg sequence d) d.count s.busyNaks, _
      rw [busyNaksAfter_of_ne (r := s.handle decode msg sequence d) hne]
      exact h.busy
    · refine ⟨fun _ => hans.right, ?_⟩
      show ∀ n ∈ busyNaksAfter (s.handle decode msg sequence d) d.count s.busyNaks, _
      rw [busyNaksAfter_of_ne (r := s.handle decode msg sequence d) hne]
      exact h.busy
  · exact ⟨h.answered, h.busy⟩
  · exact ⟨h.answered, h.busy⟩

/-! ## Failures on one process -/

/-- Between two failures of the message on a process, fewer other messages fail
    there than its table tracks. -/
def Spared (s : Stream) : Label → Prop
  | .otherFails p x => 0 < s.streak p → (insert x (s.others p)).card < errorAttemptsCap
  | _ => True

/-- The table of a process has counted every failure of the streak. -/
structure Counted (sequence : Nat) (table : Table Nat) (streak : Nat) (others : Finset Nat) :
    Prop where
  le_count : streak ≤ table.count sequence
  bound : table.count sequence < maxDeliver
  recent : 0 < streak → table.Recent sequence others

theorem Counted.reset {table table' : Table Nat} {streak : Nat} {others others' : Finset Nat}
    (h : Counted sequence table streak others)
    (hle : table'.count sequence ≤ table.count sequence) : Counted sequence table' 0 others' :=
  ⟨Nat.zero_le _, Nat.lt_of_le_of_lt hle h.bound, fun h0 => absurd h0 (Nat.lt_irrefl 0)⟩

/-- A delivery that was not refused ends the streak. -/
theorem streakAfter_settled {r : Delivered} (h : ∀ delay, r.kind ≠ .nak delay) (streak : Nat) :
    streakAfter r streak = 0 := by
  unfold streakAfter
  split
  · rename_i delay _ hk _
    exact absurd hk (h delay)
  · rename_i delay _ hk _
    exact absurd hk (h delay)
  · rfl

/-- The sequence of a delivery is that of the message. -/
theorem deliveryInfo_sequence {d : Delivery} {x : Nat}
    (h : (deliveryInfo (d.info sequence)).sequence = some x) : x = sequence := by
  unfold Delivery.info at h
  cases hr : d.readable with
  | true =>
      rw [hr] at h
      exact (Option.some.inj h).symm
  | false =>
      rw [hr] at h
      exact nomatch h

/-- One more delivery is counted. -/
theorem counted_deliver {s : Stream} {d : Delivery}
    (h : Counted sequence (s.tables d.process) (s.streak d.process) (s.others d.process)) :
    Counted sequence (s.handle decode msg sequence d).table
      (streakAfter (s.handle decode msg sequence d) (s.streak d.process))
      (othersAfter (s.handle decode msg sequence d) (s.others d.process)) := by
  unfold Stream.handle handleOne
  dsimp only
  cases (handled decode msg (deliveryInfo (d.info sequence)) d.stepTimeout d.handling).1 with
  | error e =>
      rcases settleDelivery_error (s.tables d.process) e (deliveryInfo (d.info sequence)).sequence
        (deliveryInfo (d.info sequence)).delivered with ⟨hterm, hle⟩ | ⟨x, hx, -, hlt, hnak⟩
      · rw [streakAfter_settled (by rw [hterm]; exact fun _ h => nomatch h)]
        exact h.reset (hle sequence)
      · obtain rfl := deliveryInfo_sequence hx
        rw [hnak]
        -- counted under its own sequence, which is now the most recent one
        refine ⟨?_, hlt, fun _ => Table.recent_record_self _ _ _⟩
        rw [Table.count_record]
        exact Nat.succ_le_succ h.le_count
  | ok disposition =>
      rcases settleDelivery_ok (s.tables d.process) disposition
        (deliveryInfo (d.info sequence)).sequence (deliveryInfo (d.info sequence)).delivered with
        ⟨-, hbusy⟩ | ⟨hkind, hle⟩
      · rw [hbusy]
        exact h
      · rw [streakAfter_settled hkind]
        exact h.reset (hle sequence)

/-- **ONE STEP** keeps the failures counted while the message is spared. -/
theorem counted_step {s s' : Stream} {l : Label}
    (h : ∀ p, Counted sequence (s.tables p) (s.streak p) (s.others p)) (hspared : Spared s l)
    (hs : step decode msg sequence s l = some s') :
    ∀ p, Counted sequence (s'.tables p) (s'.streak p) (s'.others p) := by
  intro p
  rcases step_cases decode msg sequence hs with ⟨d, -, -, rfl⟩ | ⟨q, x, rfl, hx, rfl⟩ |
    ⟨q, x, -, hx, rfl⟩
  · unfold Stream.deliver
    dsimp only
    by_cases hp : p = d.process
    · subst hp
      rw [Function.update_self, Function.update_self, Function.update_self]
      exact counted_deliver (h d.process)
    · rw [Function.update_of_ne hp, Function.update_of_ne hp, Function.update_of_ne hp]
      exact h p
  · unfold Stream.otherFails
    dsimp only
    by_cases hp : p = q
    · subst hp
      rw [Function.update_self, Function.update_self]
      have hx' : sequence ≠ x := fun e => hx e.symm
      by_cases hstreak : 0 < s.streak p
      · obtain ⟨hrecent, hcount⟩ :=
          Table.record_recent ((h p).recent hstreak) hx (hspared hstreak)
        exact ⟨hcount ▸ (h p).le_count, hcount ▸ (h p).bound, fun _ => hrecent⟩
      · have hzero : s.streak p = 0 := Nat.eq_zero_of_not_pos hstreak
        rw [hzero]
        exact (h p).reset (Table.count_record_le _ _ hx')
    · rw [Function.update_of_ne hp, Function.update_of_ne hp]
      exact h p
  · unfold Stream.otherSettles
    dsimp only
    by_cases hp : p = q
    · subst hp
      rw [Function.update_self]
      have hcount := Table.count_clear_ne (s.tables p) fun e : sequence = x => hx e.symm
      refine ⟨hcount ▸ (h p).le_count, hcount ▸ (h p).bound, ?_⟩
      intro hstreak
      exact Table.clear_recent ((h p).recent hstreak) hx
    · rw [Function.update_of_ne hp]
      exact h p

/-- **NO AWAITED REQUEST VANISHES**: over all deliveries the message is dropped only
    after a response that echoes its correlation id, a busy session is handed back
    only while a further delivery is allowed, and a process that keeps failing on
    it gives up within its bound, unless as many other messages as its table
    tracks fail there between two of its failures. -/
theorem awaited_request_answered (decode : List UInt8 → Except String RuntimeDispatchRequest)
    (msg : Message) (sequence : Nat) (correlation : String)
    (hc : msg.header correlationHeader = some correlation) :
    (∀ s, Reach (step decode msg sequence) Any .published s →
      (s.fate ≠ .pending → Answered correlation s.responses)
        ∧ ∀ n ∈ s.busyNaks, n < consumerMaxDeliver)
      ∧ ∀ s, Reach (step decode msg sequence) Spared .published s →
        ∀ p, s.streak p < maxDeliver := by
  constructor
  · intro s hreach
    have hsettled : Settled correlation s := by
      refine hreach.inv (I := Settled correlation) ⟨fun h => absurd rfl h, ?_⟩ ?_
      · intro n hn
        exact absurd hn List.not_mem_nil
      · intro s l s' h _ hs
        exact settled_step hc h hs
    exact ⟨hsettled.answered, hsettled.busy⟩
  · intro s hreach p
    have hcounted : ∀ p, Counted sequence (s.tables p) (s.streak p) (s.others p) := by
      refine hreach.inv
        (I := fun s => ∀ p, Counted sequence (s.tables p) (s.streak p) (s.others p)) ?_ ?_
      · intro p
        have hempty : (Stream.published.tables p).count sequence = 0 := rfl
        exact ⟨Nat.zero_le _, by rw [hempty]; decide, fun h => absurd h (Nat.lt_irrefl 0)⟩
      · intro s l s' h hspared hs
        exact counted_step h hspared hs
    exact Nat.lt_of_le_of_lt (hcounted p).le_count (hcounted p).bound

end

/-! ## A count that was pushed out -/

/-- A request of a parked flow. -/
def awaited : Message where
  header name :=
    if name = correlationHeader then some "sess-1::pack=p::flow=f"
    else if name = tenantHeader then some "acme"
    else none
  payload := []

/-- `serde_json::from_slice` on the payload of the request. -/
def decodeGreeter (_ : List UInt8) : Except String RuntimeDispatchRequest :=
  .ok ⟨"greeter", "", .obj [("user_text", .str "ping")]⟩

/-- The greeting of the example is answered. -/
theorem awaited_request_answered_greeter :
    awaited.header correlationHeader = some "sess-1::pack=p::flow=f"
      ∧ ∀ s, Reach (step decodeGreeter awaited 7) Spared .published s →
        ∀ p, s.streak p < maxDeliver := by
  have hc : awaited.header correlationHeader = some "sess-1::pack=p::flow=f" := by
    simp [awaited]
  exact ⟨hc, (awaited_request_answered decodeGreeter awaited 7 _ hc).2⟩

/-- A delivery on the process `0` whose step runs but whose response cannot be
    published. -/
def unpublished (count : Nat) : Delivery where
  process := 0
  count := count
  readable := true
  age := 0
  stepTimeout := none
  handling := .finished (fun _ => .ok ⟨true, .obj [("reply", .str "pong")], [], none⟩)
    (.error "broken pipe")
  settled := true

/-- The stream after a failure on the process `0` that was handed back. -/
def Stream.failed (s : Stream) (sequence count : Nat) : Stream :=
  { s with
    delivered := count
    tables := Function.update s.tables 0 ((s.tables 0).record errorAttemptsCap sequence)
    streak := Function.update s.streak 0 (s.streak 0 + 1)
    others := Function.update s.others 0 ∅ }

/-- A delivery whose reply cannot be published. -/
theorem handle_unpublished (s : Stream) (sequence : Nat) {count : Nat}
    (hn : count < consumerMaxDeliver) (hcount : (s.tables 0).count sequence + 1 < maxDeliver) :
    s.handle decodeGreeter awaited sequence (unpublished count)
      = ⟨.error "broken pipe", [], .nak (2 * second),
          (s.tables 0).record errorAttemptsCap sequence⟩ := by
  have hresult : handled decodeGreeter awaited
      (deliveryInfo ((unpublished count).info sequence)) none (unpublished count).handling
        = (.error "broken pipe", []) := by
    simp only [handled, boundedResult, unpublished, handleMessageOutcome]
    cases parseRequest decodeGreeter awaited with
    | error rejection => simp [awaited, publishResponse]
    | ok parsed => rfl
  have hrecord : ((s.tables 0).record errorAttemptsCap sequence).count sequence < maxDeliver := by
    rw [Table.count_record]
    exact hcount
  have hsettle : settleDelivery (s.tables 0) (.error "broken pipe") (some sequence) count
      = (.nak (2 * second), (s.tables 0).record errorAttemptsCap sequence) := by
    unfold settleDelivery errorAttempt settlement
    dsimp only
    rw [if_neg (not_or.mpr ⟨Nat.not_le.mpr hrecord, Nat.not_le.mpr hn⟩)]
  unfold Stream.handle handleOne
  have hinfo : deliveryInfo ((unpublished count).info sequence) = ⟨count, some sequence, 0⟩ := rfl
  have htimeout : (unpublished count).stepTimeout = none := rfl
  have hprocess : (unpublished count).process = 0 := rfl
  dsimp only
  rw [htimeout, hresult, hinfo, hprocess]
  dsimp only
  rw [hsettle]
  rfl

/-- As a step of the stream. -/
theorem step_unpublished {s : Stream} {sequence count : Nat} (hp : s.fate = .pending)
    (hlt : s.delivered < count) (hn : count < consumerMaxDeliver)
    (hcount : (s.tables 0).count sequence + 1 < maxDeliver) :
    step decodeGreeter awaited sequence s (.deliver (unpublished count))
      = some (s.failed sequence count) := by
  have hguard : s.fate = .pending ∧ s.delivered < (unpublished count).count
      ∧ (unpublished count).count ≤ consumerMaxDeliver := ⟨hp, hlt, Nat.le_of_lt hn⟩
  simp only [step]
  rw [if_pos hguard]
  unfold Stream.deliver
  dsimp only
  rw [handle_unpublished s sequence hn hcount]
  have hfate : fateAfter (.nak (2 * second)) true count = s.fate := by
    rw [fateAfter_nak _ _ hn, hp]
  simp [Stream.failed, unpublished, streakAfter, othersAfter, busyNaksAfter, hfate]

/-- The message after `k` failures in a row on the process `0`. -/
structure FailedTimes (k : Nat) (s : Stream) : Prop where
  reach : Reach (step decodeGreeter awaited 7) Any .published s
  fate : s.fate = .pending
  delivered : s.delivered = k
  streak : s.streak 0 = k
  count : (s.tables 0).count 7 = k
  order : (s.tables 0).order = if k = 0 then [] else [7]

/-- A table of the one message keeps it. -/
theorem record_only {t : Table Nat} (h : t.order ⊆ [7]) :
    (t.record errorAttemptsCap 7).order = [7] := by
  have hnil : (makeRoom errorAttemptsCap t 7).2 = [] := by
    obtain ⟨-, hnot, -⟩ := makeRoom_tracked errorAttemptsCap t 7
    have hsub : (makeRoom errorAttemptsCap t 7).2 ⊆ t.order := by
      unfold makeRoom
      split
      · exact List.erase_subset
      · exact (dropOldest_tracked _ t.order t.counts t.nodup t.mem_order).2.2
    refine List.eq_nil_iff_forall_not_mem.mpr ?_
    intro x hx
    have h7 : x = 7 := List.mem_singleton.mp (h (hsub hx))
    exact hnot (h7 ▸ hx)
  show (makeRoom errorAttemptsCap t 7).2 ++ [7] = [7]
  rw [hnil]
  rfl

/-- It can fail any number of times below the cap. -/
theorem failed_times : ∀ k, k < maxDeliver → ∃ s, FailedTimes k s := by
  intro k
  induction k with
  | zero =>
      intro _
      exact ⟨.published, .start, rfl, rfl, rfl, rfl, rfl⟩
  | succ k ih =>
      intro hk
      obtain ⟨s, hs⟩ := ih (Nat.lt_of_succ_lt hk)
      refine ⟨s.failed 7 (k + 1), ?_, hs.fate, rfl, ?_, ?_, ?_⟩
      · refine .next hs.reach (step_unpublished hs.fate ?_ ?_ ?_) trivial
        · rw [hs.delivered]
          exact Nat.lt_succ_self k
        · exact Nat.lt_trans hk (by decide)
        · rw [hs.count]
          exact hk
      · simp [Stream.failed, hs.streak]
      · simp [Stream.failed, Table.count_record, hs.count]
      · have honly : (s.tables 0).order ⊆ [7] := by
          rw [hs.order]
          split <;> simp
        simp [Stream.failed, record_only honly]

/-- Other messages failing on the process `0`, one after the other. -/
theorem others_fail : ∀ (ks : List Nat) (s : Stream), (∀ k ∈ ks, k ≠ 7) →
    Reach (step decodeGreeter awaited 7) Any .published s →
    ∃ s', Reach (step decodeGreeter awaited 7) Any .published s' ∧ s'.fate = s.fate
      ∧ s'.delivered = s.delivered ∧ s'.streak = s.streak
      ∧ s'.tables 0 = (s.tables 0).records errorAttemptsCap ks := by
  intro ks
  induction ks with
  | nil =>
      intro s _ hs
      exact ⟨s, hs, rfl, rfl, rfl, rfl⟩
  | cons k ks ih =>
      intro s hne hs
      have hk : k ≠ 7 := hne k (List.mem_cons_self ..)
      have hnext : Reach (step decodeGreeter awaited 7) Any .published (s.otherFails 0 k) := by
        refine .next hs (l := .otherFails 0 k) ?_ trivial
        simp only [step]
        rw [if_pos hk]
      obtain ⟨s', hreach, hfate, hdel, hstreak, htable⟩ :=
        ih (s.otherFails 0 k) (fun x hx => hne x (List.mem_cons_of_mem _ hx)) hnext
      refine ⟨s', hreach, hfate, hdel, hstreak, ?_⟩
      rw [htable]
      show (Function.update s.tables 0 _ 0).records _ ks = _
      rw [Function.update_self]
      rfl

/-- After five failures 4096 other messages fail: the sixth failure is counted as
    the first one and the message is still handed back. -/
theorem evicted_overruns :
    ∃ s, Reach (step decodeGreeter awaited 7) Any .published s
      ∧ s.fate = .pending ∧ s.streak 0 = maxDeliver := by
  obtain ⟨s, hs⟩ := failed_times 5 (by decide)
  have horder : (s.tables 0).order = [7] := hs.order
  obtain ⟨s', hreach, hfate, hdel, hstreak, htable⟩ :=
    others_fail (List.range' 100 4095 ++ [4195]) s (by
      intro k hk
      rcases List.mem_append.mp hk with hk | hk
      · rw [List.mem_range'_1] at hk
        omega
      · rw [List.mem_singleton.mp hk]
        decide) hs.reach
  have hgone : (s'.tables 0).count 7 = 0 := by
    rw [htable]
    refine Table.records_evict horder ?_ ?_
    · rw [List.nodup_cons, List.nodup_append]
      refine ⟨?_, List.nodup_range', List.nodup_singleton _, ?_⟩
      · simp [List.mem_range'_1]
      · intro a ha b hb
        rw [List.mem_range'_1] at ha
        rw [List.mem_singleton.mp hb]
        omega
    · rw [List.length_range']
      rfl
  refine ⟨s'.failed 7 6, ?_, ?_, ?_⟩
  · refine .next hreach (step_unpublished (hfate.trans hs.fate) ?_ (by decide) ?_) trivial
    · rw [hdel, hs.delivered]
      decide
    · rw [hgone]
      decide
  · exact hfate.trans hs.fate
  · show Function.update s'.streak 0 (s'.streak 0 + 1) 0 = maxDeliver
    rw [Function.update_self, hstreak, hs.streak]
    rfl

end Greentic.Bridge
