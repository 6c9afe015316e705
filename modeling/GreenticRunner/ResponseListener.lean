import GreenticRunner.Transition

/-! # The response listener

    `run_response_listener_scoped` and `KeyedSerializer` of `runner/dispatch_listener.rs`.
    The receive loop takes a permit for every response and hands it with the response to
    the serializer, which runs the jobs of one correlation id one after another.

    * `blocked_all_busy` — under `Unhandled` a blocked loop has `AllBusy`;
    * `oneId_blocks` — responses of one id alone block the loop. -/

namespace Greentic.ResponseListener

open Transition

/-- `MAX_CONCURRENT_RESUMES`. -/
def maxConcurrentResumes : Nat := 32

/-- A message as far as the loop reads it; `decodes` says whether the tenant and env ids and
    the body pass `decode_response`. -/
structure Message where
  tenant : Option String
  correlationId : Option String
  decodes : Bool

/-- `tenant_matches`. -/
def tenantMatches (scope header : Option String) : Bool :=
  match scope with
  | none => true
  | some scope =>
      match header with
      | some header => !header.isEmpty && header == scope
      | none => false

/-- The correlation id `decode_response` returns. -/
def decodeResponse (m : Message) : Option String :=
  match m.correlationId with
  | some id => if id.isEmpty || !m.decodes then none else some id
  | none => none

/-- What the worker of a key is doing. -/
inductive Work where
  | running (job : Nat)
  /-- the job has ended, `pop_front` is next -/
  | between
  | ended
  deriving DecidableEq

/-- The task that runs the jobs of a key. -/
structure Worker where
  key : String
  work : Work

def Worker.isRunning (w : Worker) : Bool :=
  match w.work with
  | .running _ => true
  | _ => false

/-- The listener: free permits, the serializer's queues, its workers, the response that waits
    for a permit and the number of responses so far. -/
structure Listener where
  permits : Nat
  queues : String → Option (List Nat)
  workers : List Worker
  pending : Option String
  received : Nat

/-- A listener that has just subscribed. -/
def Listener.start : Listener := ⟨maxConcurrentResumes, fun _ => none, [], none, 0⟩

/-- `KeyedSerializer::submit`. -/
def submit (s : Listener) (key : String) (job : Nat) : Listener :=
  match s.queues key with
  | some queue => { s with queues := Function.update s.queues key (some (queue ++ [job])) }
  | none => { s with
      queues := Function.update s.queues key (some [])
      workers := s.workers ++ [⟨key, .running job⟩] }

/-- What happens next. -/
inductive Act where
  /-- the subscription yields a message -/
  | receive (m : Message)
  /-- the loop gets its permit -/
  | acquire
  /-- a job returns or panics and drops its permit -/
  | finish (i : Nat)
  /-- a worker takes the next job of its key or removes the key -/
  | next (i : Nat)

/-- One step of the listener with the tenant filter `scope`. -/
def step (scope : Option String) (s : Listener) : Act → Option Listener
  | .receive m =>
      match s.pending with
      | some _ => none
      | none =>
          if tenantMatches scope m.tenant then some { s with pending := decodeResponse m }
          else some s
  | .acquire =>
      match s.pending with
      | none => none
      | some key =>
          if s.permits = 0 then none
          else some (submit
            { s with permits := s.permits - 1, pending := none, received := s.received + 1 } key
            s.received)
  | .finish i => do
      let w ← s.workers[i]?
      match w.work with
      | .running _ => some { s with
          permits := s.permits + 1, workers := s.workers.set i { w with work := .between } }
      | _ => none
  | .next i => do
      let w ← s.workers[i]?
      match w.work with
      | .between =>
          match s.queues w.key with
          | some (job :: queue) => some { s with
              queues := Function.update s.queues w.key (some queue)
              workers := s.workers.set i { w with work := .running job } }
          | _ => some { s with
              queues := Function.update s.queues w.key none
              workers := s.workers.set i { w with work := .ended } }
      | _ => none

/-- The receive loop waits for a permit. -/
def Blocked (s : Listener) : Prop := s.pending.isSome ∧ s.permits = 0

/-- A resume of `id` is running. -/
def Running (s : Listener) (id : String) : Prop := ∃ w ∈ s.workers, w.key = id ∧ w.isRunning

/-- As many resumes as there are permits are running, of pairwise different ids. -/
def AllBusy (s : Listener) : Prop :=
  ∃ ids : List String, ids.Nodup ∧ ids.length = maxConcurrentResumes ∧ ∀ id ∈ ids, Running s id

/-- No response is handed over while an earlier one of its id is being handled. -/
def Unhandled (s : Listener) : Act → Prop
  | .acquire => ∀ key, s.pending = some key → s.queues key = none
  | _ => True

/-! ## Nothing is queued -/

/-- Every permit that is taken is with a running job, and the keys of the workers that
    have not ended are different. -/
structure Inv (s : Listener) : Prop where
  empty : ∀ key queue, s.queues key = some queue → queue = []
  live : ∀ w ∈ s.workers, w.work ≠ .ended → s.queues w.key = some []
  keys : ∀ (i j : Nat) (v w : Worker), s.workers[i]? = some v → s.workers[j]? = some w → v.work ≠ .ended →
    w.work ≠ .ended → v.key = w.key → i = j
  count : s.permits + s.workers.countP Worker.isRunning = maxConcurrentResumes

theorem inv_start : Inv .start :=
  ⟨fun _ _ h => (nomatch h), fun _ h => (nomatch h), fun _ _ _ _ h => (nomatch h), rfl⟩

/-- A worker changes what it is doing, without ending. -/
theorem Inv.worker {s : Listener} {i : Nat} {w : Worker} {work : Work} {permits : Nat}
    (h : Inv s) (hw : s.workers[i]? = some w) (hlive : w.work ≠ .ended)
    (hcount : permits + (if Worker.isRunning ⟨w.key, work⟩ then 1 else 0) =
      s.permits + if w.isRunning then 1 else 0) :
    Inv { s with permits, workers := s.workers.set i { w with work } } where
  empty := h.empty
  live := by
    intro v hv hne
    rcases mem_of_set hv with rfl | hv
    · exact h.live w (List.mem_of_getElem? hw) hlive
    · exact h.live v hv hne
  keys := by
    -- Seen from its key, the changed worker is the one that was there.
    have hback {j : Nat} {v : Worker} (hv : (s.workers.set i { w with work })[j]? = some v)
        (hne : v.work ≠ .ended) : ∃ v', s.workers[j]? = some v' ∧ v'.work ≠ .ended ∧
          v'.key = v.key := by
      by_cases hj : i = j
      · subst hj
        rw [List.getElem?_set_self (List.getElem?_eq_some_iff.mp hw).1] at hv
        cases hv
        exact ⟨w, hw, hlive, rfl⟩
      · rw [List.getElem?_set_ne hj] at hv
        exact ⟨v, hv, hne, rfl⟩
    intro j k v v' hv hv' hne hne' hkey
    obtain ⟨u, hu, hune, huk⟩ := hback hv hne
    obtain ⟨u', hu', hune', huk'⟩ := hback hv' hne'
    exact h.keys j k u u' hu hu' hune hune' (by rw [huk, huk', hkey])
  count := by
    have hset := countP_set_add Worker.isRunning hw { w with work }
    have hold := h.count
    show permits + (s.workers.set i { w with work }).countP Worker.isRunning = _
    omega

/-- A worker ends and its key is removed. -/
theorem Inv.ended {s : Listener} {i : Nat} {w : Worker} (h : Inv s)
    (hw : s.workers[i]? = some w) (hwork : w.work = .between) :
    Inv { s with
      queues := Function.update s.queues w.key none
      workers := s.workers.set i { w with work := .ended } } where
  empty := by
    intro key queue hq
    by_cases hk : key = w.key
    · subst hk
      exact nomatch (Function.update_self ..).symm.trans hq
    · exact h.empty key queue ((Function.update_of_ne hk ..).symm.trans hq)
  live := by
    intro v hv hne
    obtain ⟨j, hj⟩ := List.getElem?_of_mem hv
    by_cases hij : i = j
    · subst hij
      rw [List.getElem?_set_self (List.getElem?_eq_some_iff.mp hw).1] at hj
      cases hj
      exact absurd rfl hne
    · rw [List.getElem?_set_ne hij] at hj
      have hk : v.key ≠ w.key := by
        intro hk
        exact hij (h.keys i j w v hw hj (by rw [hwork]; exact Work.noConfusion) hne hk.symm)
      show Function.update s.queues w.key none v.key = some []
      rw [Function.update_of_ne hk]
      exact h.live v (List.mem_of_getElem? hj) hne
  keys := by
    have hback {j : Nat} {v : Worker}
        (hv : (s.workers.set i { w with work := .ended })[j]? = some v) (hne : v.work ≠ .ended) :
        s.workers[j]? = some v := by
      by_cases hij : i = j
      · subst hij
        rw [List.getElem?_set_self (List.getElem?_eq_some_iff.mp hw).1] at hv
        cases hv
        exact absurd rfl hne
      · rw [List.getElem?_set_ne hij] at hv
        exact hv
    intro j k v v' hv hv' hne hne' hkey
    exact h.keys j k v v' (hback hv hne) (hback hv' hne') hne hne' hkey
  count := by
    have hset := countP_set_add Worker.isRunning hw { w with work := .ended }
    have hidle : w.isRunning = false := by rw [Worker.isRunning, hwork]
    rw [hidle] at hset
    have hold := h.count
    show s.permits + (s.workers.set i { w with work := .ended }).countP Worker.isRunning = _
    have hnew : Worker.isRunning { w with work := .ended } = false := rfl
    rw [hnew] at hset
    simp only [Bool.false_eq_true, if_false] at hset
    omega

/-- A response whose id has no worker starts one. -/
theorem Inv.submit {s : Listener} {key : String} (h : Inv s) (hq : s.queues key = none)
    (hp : s.permits ≠ 0) (job : Nat) (received : Nat) :
    Inv (submit { s with permits := s.permits - 1, pending := none, received } key job) := by
  rw [ResponseListener.submit]
  simp only [hq]
  have hnone (v : Worker) (hv : v ∈ s.workers) (hne : v.work ≠ .ended) : v.key ≠ key := by
    rintro rfl
    rw [h.live v hv hne] at hq
    exact nomatch hq
  refine ⟨?_, ?_, ?_, ?_⟩
  · intro key' queue hq'
    by_cases hk : key' = key
    · subst hk
      change Function.update s.queues key' (some []) key' = some queue at hq'
      rw [Function.update_self] at hq'
      exact (Option.some.inj hq').symm
    · exact h.empty key' queue ((Function.update_of_ne hk ..).symm.trans hq')
  · intro v hv hne
    show Function.update s.queues key (some []) v.key = some []
    rcases List.mem_append.mp hv with hv | hv
    · rw [Function.update_of_ne (hnone v hv hne)]
      exact h.live v hv hne
    · rw [List.mem_singleton.mp hv, Function.update_self]
  · intro i j v w hv hw hne hne' hkey
    have hlast {i : Nat} {v : Worker} (hv : (s.workers ++ [⟨key, .running job⟩])[i]? = some v) :
        s.workers[i]? = some v ∨ (i = s.workers.length ∧ v.key = key) := by
      rw [List.getElem?_append] at hv
      split at hv
      · exact .inl hv
      next hlt =>
        obtain ⟨hlt', heq⟩ := List.getElem?_eq_some_iff.mp hv
        have hi : i - s.workers.length = 0 := Nat.lt_one_iff.mp hlt'
        refine .inr ⟨by omega, ?_⟩
        rw [List.getElem_singleton] at heq
        rw [← heq]
    rcases hlast hv with hv | ⟨rfl, hvk⟩ <;> rcases hlast hw with hw | ⟨rfl, hwk⟩
    · exact h.keys i j v w hv hw hne hne' hkey
    · exact absurd (hkey.trans hwk) (hnone v (List.mem_of_getElem? hv) hne)
    · exact absurd (hkey.symm.trans hvk) (hnone w (List.mem_of_getElem? hw) hne')
    · rfl
  · show s.permits - 1 + (s.workers ++ [Worker.mk key (.running job)]).countP Worker.isRunning = _
    rw [List.countP_append, List.countP_singleton]
    have hrun : (Worker.mk key (.running job)).isRunning = true := rfl
    have hold := h.count
    rw [hrun, if_pos rfl]
    omega

theorem Inv.step {scope : Option String} {s s' : Listener} {a : Act} (h : Inv s)
    (hc : Unhandled s a) (hs : step scope s a = some s') : Inv s' := by
  cases a with
  | receive m =>
      simp only [ResponseListener.step] at hs
      split at hs
      next => exact nomatch hs
      next =>
        split at hs <;> cases hs
        · exact ⟨h.empty, h.live, h.keys, h.count⟩
        · exact h
  | acquire =>
      simp only [ResponseListener.step] at hs
      split at hs
      next => exact nomatch hs
      next key hkey =>
        split at hs
        next => exact nomatch hs
        next hp =>
          cases hs
          exact h.submit (hc key hkey) hp _ _
  | finish i =>
      obtain ⟨w, hw, hs⟩ := Option.bind_eq_some_iff.mp hs
      split at hs
      next job hwork =>
        cases hs
        refine h.worker hw (by rw [hwork]; exact Work.noConfusion) ?_
        rw [Worker.isRunning, Worker.isRunning, hwork]
        rfl
      next => exact nomatch hs
  | next i =>
      obtain ⟨w, hw, hs⟩ := Option.bind_eq_some_iff.mp hs
      split at hs
      next hwork =>
        split at hs
        next job queue hq => exact nomatch h.empty w.key _ hq
        next =>
          cases hs
          exact h.ended hw hwork
      next => exact nomatch hs

/-- The running workers have different keys. -/
theorem Inv.nodup {s : Listener} (h : Inv s) :
    ((s.workers.filter Worker.isRunning).map Worker.key).Nodup := by
  have hpair : s.workers.Pairwise fun v w => v.isRunning → w.isRunning → v.key ≠ w.key := by
    rw [List.pairwise_iff_getElem]
    intro i j hi hj hij hv hw hkey
    have hlive {w : Worker} (hw : w.isRunning) : w.work ≠ .ended := by
      intro he
      rw [Worker.isRunning, he] at hw
      exact nomatch hw
    exact Nat.ne_of_lt hij (h.keys i j _ _ (List.getElem?_eq_getElem hi)
      (List.getElem?_eq_getElem hj) (hlive hv) (hlive hw) hkey)
  rw [List.Nodup, List.pairwise_map]
  refine (hpair.filter Worker.isRunning).imp_of_mem ?_
  intro v w hv hw hne
  exact hne (List.mem_filter.mp hv).2 (List.mem_filter.mp hw).2

/-- **One slow conversation cannot stall the listener**, as long as no response is handed
    over while an earlier one of its id is being handled: whenever the receive loop waits
    for a permit, resumes of `maxConcurrentResumes` different ids are running. -/
theorem blocked_all_busy (scope : Option String) (s : Listener)
    (h : Reach (step scope) Unhandled .start s) (hb : Blocked s) : AllBusy s := by
  have hi : Inv s := h.inv inv_start fun _ _ _ hi hc hs => hi.step hc hs
  refine ⟨(s.workers.filter Worker.isRunning).map Worker.key, hi.nodup, ?_, ?_⟩
  · have hcount := hi.count
    rw [hb.2, List.countP_eq_length_filter] at hcount
    rw [List.length_map, ← hcount, Nat.zero_add]
  · intro id hid
    obtain ⟨w, hw, hkey⟩ := List.mem_map.mp hid
    obtain ⟨hmem, hrun⟩ := List.mem_filter.mp hw
    exact ⟨w, hmem, hkey, hrun⟩

/-- A response with the correlation id `id`. -/
def responseTo (id : String) : Message := ⟨none, some id, true⟩

/-- A response for each of `ids`, handed over as soon as it was received. -/
def arriving (ids : List String) : List Act :=
  ids.flatMap fun id => [.receive (responseTo id), .acquire]

/-- Ids `"u"`, `"uu"`, `"uuu"`, … -/
def manyIds : Nat → List String
  | 0 => []
  | n + 1 => String.ofList (List.replicate (n + 1) 'u') :: manyIds n

instance (s : Listener) (a : Act) : Decidable (Unhandled s a) :=
  match a with
  | .acquire =>
      match hp : s.pending with
      | none => isTrue fun key hk => nomatch hp.symm.trans hk
      | some key =>
          decidable_of_iff (s.queues key = none)
            ⟨fun hq _ hk => by rw [← Option.some.inj (hp.symm.trans hk)]; exact hq,
              fun hq => hq key hp⟩
  | .receive _ | .finish _ | .next _ => isTrue trivial

theorem blocked_all_busy_manyIds : ∃ s, Blocked s ∧ AllBusy s := by
  obtain ⟨s, hs, ht⟩ : ∃ s, Reach (step none) Unhandled .start s ∧
      (s.pending.isSome && s.permits == 0) = true :=
    Reach.of_test (arriving (manyIds 32) ++ [.receive (responseTo "v")]) (by decide +kernel)
  rw [Bool.and_eq_true, beq_iff_eq] at ht
  exact ⟨s, ht, blocked_all_busy none s hs ht⟩

/-- Responses of one id, one running and the others queued behind it, take all permits. -/
theorem oneId_blocks : ∃ s, Reach (step none) Any .start s ∧ Blocked s ∧ ¬ AllBusy s := by
  obtain ⟨s, hs, ht⟩ : ∃ s, Reach (step none) Any .start s ∧
      (s.pending.isSome && s.permits == 0 && s.workers.length == 1) = true :=
    Reach.of_test (arriving (List.replicate 32 "c") ++ [.receive (responseTo "v")])
      (by decide +kernel)
  rw [Bool.and_eq_true, Bool.and_eq_true, beq_iff_eq, beq_iff_eq] at ht
  refine ⟨s, hs, ht.1, ?_⟩
  rintro ⟨ids, hnodup, hlen, hall⟩
  have hsub : ids ⊆ s.workers.map Worker.key := by
    intro id hid
    obtain ⟨w, hw, hkey, -⟩ := hall id hid
    exact List.mem_map.mpr ⟨w, hw, hkey⟩
  have hle := (List.subperm_of_subset hnodup hsub).length_le
  rw [List.length_map, ht.2, hlen] at hle
  exact absurd hle (by decide)

end Greentic.ResponseListener
