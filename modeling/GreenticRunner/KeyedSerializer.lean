import GreenticRunner.AssocMap
import GreenticRunner.Transition

/-! # Jobs in order, key by key

    `KeyedSerializer` runs the jobs of one key one after the other and those of different keys side by
    side.  A key has a queue while a WORKER runs for it; the worker takes the next job, or removes the
    key when there is none, under the lock that a submission takes.

    * `step_view` — a step is a move of its own key, and of no other;
    * `KeyOk` — one worker for a key with a queue, none for another, every job in its place;
    * `serializer_in_order` — every run keeps the order, and drains. -/

namespace Greentic.KeyedJobs

open AssocMaps Transition

/-! ## The serializer -/

/-- Where a worker is: it has a job, waits for the task of its job, or is about to take the next one. -/
inductive Phase where
  | holding (job : Nat)
  | running (job : Nat)
  | ended
  | gone
  deriving DecidableEq

structure Worker where
  key : String
  phase : Phase
  deriving DecidableEq

/-- The queues, all workers that were spawned, and the jobs that were submitted and started, with their
    keys.  Jobs are numbered as they are submitted. -/
structure KeyedSerializer where
  queues : AssocMap String (List Nat)
  workers : List Worker
  submitted : List (String × Nat)
  started : List (String × Nat)

/-- How the task of a job ends; only the log tells the difference. -/
inductive Ending where
  | returned
  | panicked
  | cancelled

inductive Act where
  /-- `submit`. -/
  | submit (key : String)
  /-- A worker spawns its job. -/
  | start (worker : Nat)
  /-- The task of the job ends. -/
  | finish (worker : Nat) (how : Ending)
  /-- Pop or remove. -/
  | next (worker : Nat)

/-- The phase of a worker changes. -/
def KeyedSerializer.move (s : KeyedSerializer) (i : Nat) (w : Worker) (phase : Phase) : KeyedSerializer :=
  { s with workers := s.workers.set i { w with phase } }

def step (s : KeyedSerializer) : Act → Option KeyedSerializer
  | .submit key =>
      let job := s.submitted.length
      let s := { s with submitted := s.submitted ++ [(key, job)] }
      match s.queues.get? key with
      | some queue => some { s with queues := s.queues.insert key (queue ++ [job]) }
      | none => some { s with
          queues := s.queues.insert key []
          workers := s.workers ++ [⟨key, .holding job⟩] }
  | .start i =>
      match s.workers[i]? with
      | some ⟨key, .holding job⟩ =>
          some { s.move i ⟨key, .holding job⟩ (.running job) with started := s.started ++ [(key, job)] }
      | _ => none
  | .finish i _ =>
      match s.workers[i]? with
      | some ⟨key, .running job⟩ => some (s.move i ⟨key, .running job⟩ .ended)
      | _ => none
  | .next i =>
      match s.workers[i]? with
      | some ⟨key, .ended⟩ =>
          match s.queues.get? key with
          | some (job :: queue) =>
              some { s.move i ⟨key, .ended⟩ (.holding job) with queues := s.queues.insert key queue }
          | _ => some { s.move i ⟨key, .ended⟩ .gone with queues := s.queues.erase key }
      | _ => none

/-- Nothing was submitted yet. -/
def KeyedSerializer.empty : KeyedSerializer := ⟨.empty, [], [], []⟩

/-! ## One key -/

/-- The jobs of a key, in the order of a log. -/
def logOf (k : String) (log : List (String × Nat)) : List Nat := (log.filter (·.1 = k)).map (·.2)

/-- The phases of the workers of a key that are still there. -/
def phasesOf (k : String) (workers : List Worker) : List Phase :=
  (workers.filter fun w => w.key = k ∧ w.phase ≠ .gone).map Worker.phase

/-- What there is of one key. -/
structure KeyView where
  queue : Option (List Nat)
  phases : List Phase
  submitted : List Nat
  started : List Nat

def view (s : KeyedSerializer) (k : String) : KeyView :=
  ⟨s.queues.get? k, phasesOf k s.workers, logOf k s.submitted, logOf k s.started⟩

/-- The moves of one key. -/
inductive KeyStep : KeyView → KeyView → Prop where
  | queued {q ps sub st} (job : Nat) :
      KeyStep ⟨some q, ps, sub, st⟩ ⟨some (q ++ [job]), ps, sub ++ [job], st⟩
  | spawned {ps sub st} (job : Nat) :
      KeyStep ⟨none, ps, sub, st⟩ ⟨some [], ps ++ [.holding job], sub ++ [job], st⟩
  | start {q a b sub st} (job : Nat) :
      KeyStep ⟨q, a ++ .holding job :: b, sub, st⟩ ⟨q, a ++ .running job :: b, sub, st ++ [job]⟩
  | finish {q a b sub st} (job : Nat) :
      KeyStep ⟨q, a ++ .running job :: b, sub, st⟩ ⟨q, a ++ .ended :: b, sub, st⟩
  | pop {q a b sub st} (job : Nat) :
      KeyStep ⟨some (job :: q), a ++ .ended :: b, sub, st⟩ ⟨some q, a ++ .holding job :: b, sub, st⟩
  | remove {q a b sub st} (hq : q = none ∨ q = some []) :
      KeyStep ⟨q, a ++ .ended :: b, sub, st⟩ ⟨none, a ++ b, sub, st⟩

/-- The jobs that a worker has but has not started. -/
def Phase.held : Phase → List Nat
  | .holding job => [job]
  | _ => []

/-- A key without a queue has no worker and nothing left to do; a key with one has one worker, and what
    was submitted is what was started, what the worker has and what is in the queue. -/
def KeyOk (v : KeyView) : Prop :=
  (v.queue = none ∧ v.phases = [] ∧ v.started = v.submitted) ∨
    ∃ q p, v.queue = some q ∧ v.phases = [p] ∧ v.started ++ p.held ++ q = v.submitted ∧
      ∀ job, p = .running job → v.started.getLast? = some job

/-- The worker of a key, when there is one. -/
theorem KeyOk.worker {q : Option (List Nat)} {a b : List Phase} {p : Phase} {sub st : List Nat}
    (h : KeyOk ⟨q, a ++ p :: b, sub, st⟩) :
    a = [] ∧ b = [] ∧ ∃ l, q = some l ∧ st ++ p.held ++ l = sub ∧
      ∀ job, p = .running job → st.getLast? = some job := by
  rcases h with ⟨-, hphases, -⟩ | ⟨l, p', hq, hphases, hjobs, hrun⟩
  · exact absurd hphases (by simp)
  · obtain ⟨ha, hp, hb⟩ : a = [] ∧ p = p' ∧ b = [] := by
      cases a with
      | nil => simpa using hphases
      | cons c a => simp at hphases
    subst hp
    exact ⟨ha, hb, l, hq, hjobs, hrun⟩

/-- One move keeps a key in order. -/
theorem KeyOk.moved {v v' : KeyView} (h : KeyOk v) (hs : KeyStep v v') : KeyOk v' := by
  cases hs with
  | queued job =>
      rcases h with ⟨hq, -, -⟩ | ⟨l, p, hq, hphases, hjobs, hrun⟩
      · exact nomatch hq
      · cases hq
        refine .inr ⟨_, p, rfl, hphases, ?_, hrun⟩
        show _ ++ p.held ++ (_ ++ [job]) = _ ++ [job]
        rw [← List.append_assoc, hjobs]
  | spawned job =>
      rcases h with ⟨-, hphases, hjobs⟩ | ⟨l, p, hq, -, -, -⟩
      · dsimp only at hphases hjobs
        subst hphases
        refine .inr ⟨[], .holding job, rfl, rfl, ?_, nofun⟩
        show _ ++ [job] ++ [] = _ ++ [job]
        rw [List.append_nil, hjobs]
      · exact nomatch hq
  | start job =>
      obtain ⟨rfl, rfl, l, rfl, hjobs, -⟩ := h.worker
      refine .inr ⟨l, .running job, rfl, rfl, ?_, ?_⟩
      · show _ ++ [job] ++ [] ++ l = _
        rw [List.append_nil]
        exact hjobs
      · intro job' heq
        cases heq
        exact List.getLast?_concat
  | finish job =>
      obtain ⟨rfl, rfl, l, rfl, hjobs, -⟩ := h.worker
      exact .inr ⟨l, .ended, rfl, rfl, hjobs, nofun⟩
  | pop job =>
      obtain ⟨rfl, rfl, l, hl, hjobs, -⟩ := h.worker
      cases hl
      refine .inr ⟨_, .holding job, rfl, rfl, ?_, nofun⟩
      show _ ++ [job] ++ _ = _
      rw [List.append_assoc, ← hjobs]
      exact (List.append_assoc _ [] _).symm
  | remove hq =>
      obtain ⟨rfl, rfl, l, hl, hjobs, -⟩ := h.worker
      rcases hq with rfl | rfl
      · exact nomatch hl
      · cases hl
        refine .inl ⟨rfl, rfl, ?_⟩
        rw [← hjobs]
        exact (List.append_nil _).symm.trans (List.append_nil _).symm

/-! ## Steps, key by key -/

variable {s s' : KeyedSerializer} {k : String}

theorem logOf_snoc (k key : String) (job : Nat) (log : List (String × Nat)) :
    logOf k (log ++ [(key, job)]) = logOf k log ++ if key = k then [job] else [] := by
  unfold logOf
  rw [List.filter_append, List.map_append]
  by_cases hk : key = k <;> simp [hk]

theorem phasesOf_append (k : String) (a b : List Worker) :
    phasesOf k (a ++ b) = phasesOf k a ++ phasesOf k b := by
  unfold phasesOf
  rw [List.filter_append, List.map_append]

theorem phasesOf_singleton (k : String) (w : Worker) :
    phasesOf k [w] = if w.key = k ∧ w.phase ≠ .gone then [w.phase] else [] := by
  unfold phasesOf
  by_cases hw : w.key = k ∧ w.phase ≠ .gone
  · rw [List.filter_cons_of_pos (by simpa using hw), if_pos hw]
    rfl
  · rw [List.filter_cons_of_neg (by simpa using hw), if_neg hw]
    rfl

/-- A worker that is still there stands among the phases of its key, and nowhere else. -/
theorem phasesOf_set {workers : List Worker} {i : Nat} {key : String} {p : Phase}
    (hw : workers[i]? = some ⟨key, p⟩) (hp : p ≠ .gone) :
    ∃ a b, phasesOf key workers = a ++ p :: b ∧
      (∀ p' ≠ Phase.gone, phasesOf key (workers.set i ⟨key, p'⟩) = a ++ p' :: b) ∧
      phasesOf key (workers.set i ⟨key, .gone⟩) = a ++ b ∧
      ∀ k ≠ key, ∀ p', phasesOf k (workers.set i ⟨key, p'⟩) = phasesOf k workers := by
  obtain ⟨l, r, hworkers, hset⟩ := exists_set_eq hw
  have hsplit : ∀ k w, phasesOf k (l ++ w :: r)
      = phasesOf k l ++ ((if w.key = k ∧ w.phase ≠ .gone then [w.phase] else []) ++ phasesOf k r) := by
    intro k w
    rw [← phasesOf_singleton, ← phasesOf_append, ← phasesOf_append]
    rfl
  refine ⟨phasesOf key l, phasesOf key r, ?_, ?_, ?_, ?_⟩
  · rw [hworkers, hsplit, if_pos ⟨rfl, hp⟩]
    rfl
  · intro p' hp'
    rw [hset, hsplit, if_pos ⟨rfl, hp'⟩]
    rfl
  · rw [hset, hsplit, if_neg fun h => h.2 rfl]
    rfl
  · intro k hk p'
    rw [hset, hsplit, hworkers, hsplit, if_neg fun h => hk h.1.symm, if_neg fun h => hk h.1.symm]

/-- **A step is a move of one key**, and the others stay as they are. -/
theorem step_view {act : Act} (h : step s act = some s') :
    ∃ k₀, KeyStep (view s k₀) (view s' k₀) ∧ ∀ k ≠ k₀, view s' k = view s k := by
  cases act with
  | submit key =>
      refine ⟨key, ?_⟩
      simp only [step] at h
      have hself : logOf key (s.submitted ++ [(key, s.submitted.length)])
          = logOf key s.submitted ++ [s.submitted.length] := by
        rw [logOf_snoc, if_pos rfl]
      have hother : ∀ k ≠ key, logOf k (s.submitted ++ [(key, s.submitted.length)])
          = logOf k s.submitted := by
        intro k hk
        rw [logOf_snoc, if_neg (Ne.symm hk), List.append_nil]
      split at h
      next queue hq =>
        cases h
        constructor
        · simp only [view, hself, hq, AssocMap.get?_insert_self]
          exact .queued _
        · intro k hk
          simp only [view, hother k hk, AssocMap.get?_insert_of_ne hk]
      next hq =>
        cases h
        constructor
        · simp only [view, hself, hq, AssocMap.get?_insert_self, phasesOf_append, phasesOf_singleton]
          exact .spawned _
        · intro k hk
          have hnone : ¬ (key = k ∧ Phase.holding s.submitted.length ≠ .gone) := fun h => hk h.1.symm
          simp only [view, hother k hk, AssocMap.get?_insert_of_ne hk, phasesOf_append,
            phasesOf_singleton, if_neg hnone, List.append_nil]
  | start i =>
      simp only [step] at h
      split at h
      next key job hw =>
        cases h
        obtain ⟨a, b, hold, hnew, -, hothers⟩ := phasesOf_set hw nofun
        refine ⟨key, ?_, ?_⟩
        · simp only [view, KeyedSerializer.move, hold, hnew (.running job) nofun, logOf_snoc]
          exact .start _
        · intro k hk
          simp only [view, KeyedSerializer.move, hothers k hk, logOf_snoc, if_neg (Ne.symm hk),
            List.append_nil]
      next => exact nomatch h
  | finish i how =>
      simp only [step] at h
      split at h
      next key job hw =>
        cases h
        obtain ⟨a, b, hold, hnew, -, hothers⟩ := phasesOf_set hw nofun
        refine ⟨key, ?_, ?_⟩
        · simp only [view, KeyedSerializer.move, hold, hnew .ended nofun]
          exact .finish _
        · intro k hk
          simp only [view, KeyedSerializer.move, hothers k hk]
      next => exact nomatch h
  | next i =>
      simp only [step] at h
      split at h
      next key hw =>
        obtain ⟨a, b, hold, hnew, hgone, hothers⟩ := phasesOf_set hw nofun
        refine ⟨key, ?_⟩
        split at h
        next job queue hq =>
          cases h
          constructor
          · simp only [view, KeyedSerializer.move, hold, hnew (.holding job) nofun, hq,
              AssocMap.get?_insert_self]
            exact .pop _
          · intro k hk
            simp only [view, KeyedSerializer.move, AssocMap.get?_insert_of_ne hk, hothers k hk]
        next hq =>
          cases h
          constructor
          · simp only [view, KeyedSerializer.move, AssocMap.get?_erase_self, hold, hgone]
            refine .remove ?_
            cases hqueue : s.queues.get? key with
            | none => exact .inl rfl
            | some l =>
                cases l with
                | nil => exact .inr rfl
                | cons job queue => exact absurd hqueue (hq job queue)
          · intro k hk
            simp only [view, KeyedSerializer.move, AssocMap.get?_erase_of_ne hk, hothers k hk]
      next => exact nomatch h

/-- Every key stays in order. -/
theorem KeyOk.reach (h : Reach step Any KeyedSerializer.empty s) (k : String) : KeyOk (view s k) := by
  refine Reach.inv (I := fun s => ∀ k, KeyOk (view s k)) ?_ ?_ h k
  · exact fun k => .inl ⟨rfl, rfl, rfl⟩
  · intro s act s' hall _ hs k
    obtain ⟨k₀, hmove, hothers⟩ := step_view hs
    by_cases hk : k = k₀
    · subst hk
      exact (hall k).moved hmove
    · rw [hothers k hk]
      exact hall k

/-! ## Order -/

/-- The jobs of a key are started in the order in which they were submitted, without a gap. -/
theorem KeyOk.order {v : KeyView} (h : KeyOk v) : v.started <+: v.submitted := by
  rcases h with ⟨-, -, hjobs⟩ | ⟨q, p, -, -, hjobs, -⟩
  · exact hjobs ▸ List.prefix_rfl
  · rw [← hjobs, List.append_assoc]
    exact List.prefix_append _ _

theorem count_logOf (k : String) (job : Nat) (log : List (String × Nat)) :
    (logOf k log).count job = log.count (k, job) := by
  induction log with
  | nil => rfl
  | cons e log ih =>
      obtain ⟨key, n⟩ := e
      unfold logOf at ih ⊢
      by_cases hk : key = k
      · subst hk
        rw [List.filter_cons_of_pos (by simp), List.map_cons, List.count_cons, List.count_cons, ih]
        simp
      · rw [List.filter_cons_of_neg (by simpa using hk), ih, List.count_cons_of_ne]
        exact fun heq => hk (congrArg Prod.fst heq)

/-- Jobs are numbered as they are submitted. -/
theorem submitted_ids (h : Reach step Any KeyedSerializer.empty s) :
    s.submitted.map Prod.snd = List.range s.submitted.length := by
  refine Reach.inv (I := fun s : KeyedSerializer =>
    s.submitted.map Prod.snd = List.range s.submitted.length) rfl ?_ h
  intro s act s' hids _ hs
  cases act with
  | submit key =>
      have hnext : (s.submitted ++ [(key, s.submitted.length)]).map Prod.snd
          = List.range (s.submitted ++ [(key, s.submitted.length)]).length := by
        rw [List.map_append, hids, List.length_append, List.length_singleton, List.range_succ]
        rfl
      simp only [step] at hs
      split at hs <;> cases hs <;> exact hnext
  | start i =>
      simp only [step] at hs
      split at hs
      next =>
        cases hs
        exact hids
      next => exact nomatch hs
  | finish i how =>
      simp only [step] at hs
      split at hs
      next =>
        cases hs
        exact hids
      next => exact nomatch hs
  | next i =>
      simp only [step] at hs
      split at hs
      next => split at hs <;> cases hs <;> exact hids
      next => exact nomatch hs

theorem submitted_nodup (h : Reach step Any KeyedSerializer.empty s) : s.submitted.Nodup := by
  refine List.Nodup.of_map Prod.snd ?_
  rw [submitted_ids h]
  exact List.nodup_range

/-- No job is started twice, and none that was not submitted. -/
theorem started_once (h : Reach step Any KeyedSerializer.empty s) :
    s.started.Nodup ∧ s.started ⊆ s.submitted := by
  have hle : ∀ e, s.started.count e ≤ s.submitted.count e := by
    rintro ⟨k, job⟩
    have horder := (KeyOk.reach h k).order
    have hcount := horder.sublist.count_le job
    rwa [view, count_logOf, count_logOf] at hcount
  constructor
  · rw [List.nodup_iff_count_le_one]
    intro e
    exact Nat.le_trans (hle e) (List.nodup_iff_count_le_one.mp (submitted_nodup h) e)
  · intro e he
    exact List.count_pos_iff.mp (Nat.lt_of_lt_of_le (List.count_pos_iff.mpr he) (hle e))

/-! ## Workers -/

theorem phasesOf_ne_nil {workers : List Worker} {i : Nat} {w : Worker} (hw : workers[i]? = some w)
    (hp : w.phase ≠ .gone) : phasesOf w.key workers ≠ [] := by
  intro hnil
  have hmem : w.phase ∈ phasesOf w.key workers := by
    refine List.mem_map.mpr ⟨w, List.mem_filter.mpr ⟨List.mem_of_getElem? hw, ?_⟩, rfl⟩
    simpa using hp
  rw [hnil] at hmem
  exact nomatch hmem

/-- A key has one worker at a time. -/
theorem worker_unique (h : Reach step Any KeyedSerializer.empty s) {i j : Nat} {w w' : Worker}
    (hi : s.workers[i]? = some w) (hj : s.workers[j]? = some w') (hkey : w.key = w'.key)
    (hw : w.phase ≠ .gone) (hw' : w'.phase ≠ .gone) : i = j := by
  by_contra hne
  obtain ⟨key, p⟩ := w
  have hok := KeyOk.reach h key
  obtain ⟨a, b, hold, -, hgone, -⟩ := phasesOf_set hi hw
  rw [view, hold] at hok
  obtain ⟨rfl, rfl, -⟩ := hok.worker
  -- Without the first worker there would be no phase left.
  have hj' : (s.workers.set i ⟨key, .gone⟩)[j]? = some w' := by
    rw [List.getElem?_set_ne hne, hj]
  have hnil := phasesOf_ne_nil hj' hw'
  rw [← hkey] at hnil
  exact hnil hgone

/-- A key is in the map while it has a worker. -/
theorem queue_iff_worker (h : Reach step Any KeyedSerializer.empty s) (k : String) :
    (s.queues.get? k).isSome ↔ ∃ w ∈ s.workers, w.key = k ∧ w.phase ≠ .gone := by
  rcases KeyOk.reach h k with ⟨hq, hphases, -⟩ | ⟨q, p, hq, hphases, -, -⟩
  · have hq : s.queues.get? k = none := hq
    rw [hq]
    refine ⟨fun hsome => (nomatch hsome), ?_⟩
    rintro ⟨w, hw, rfl, hlive⟩
    obtain ⟨i, hi⟩ := List.getElem?_of_mem hw
    exact absurd hphases (phasesOf_ne_nil hi hlive)
  · have hq : s.queues.get? k = some q := hq
    rw [hq]
    refine ⟨fun _ => ?_, fun _ => rfl⟩
    have hmem : p ∈ phasesOf k s.workers := by
      rw [show phasesOf k s.workers = [p] from hphases]
      exact List.mem_singleton_self p
    obtain ⟨w, hw, -⟩ := List.mem_map.mp hmem
    obtain ⟨hmem, hlive⟩ := List.mem_filter.mp hw
    exact ⟨w, hmem, by simpa using hlive⟩

/-- A worker that is there can always go on, whatever the others do. -/
theorem worker_ready {i : Nat} {w : Worker} (hi : s.workers[i]? = some w) (hw : w.phase ≠ .gone) :
    (∃ s', step s (.start i) = some s') ∨ (∀ how, ∃ s', step s (.finish i how) = some s') ∨
      ∃ s', step s (.next i) = some s' := by
  obtain ⟨key, p⟩ := w
  cases p with
  | holding job =>
      left
      rw [step, hi]
      exact ⟨_, rfl⟩
  | running job =>
      right
      left
      intro how
      rw [step, hi]
      exact ⟨_, rfl⟩
  | ended =>
      right
      right
      rw [step, hi]
      simp only
      split
      next => exact ⟨_, rfl⟩
      next => exact ⟨_, rfl⟩
  | gone => exact absurd rfl hw

/-! ## Draining -/

/-- A step of a worker. -/
def Act.OfWorker : Act → Prop
  | .submit _ => False
  | _ => True

instance : DecidablePred Act.OfWorker
  | .submit _ => isFalse id
  | .start _ => isTrue trivial
  | .finish _ _ => isTrue trivial
  | .next _ => isTrue trivial

/-- The steps that a worker has to take before it looks at its queue again, or goes. -/
def Phase.rank : Phase → Nat
  | .holding _ => 3
  | .running _ => 2
  | .ended => 1
  | .gone => 0

/-- What the workers have to do: three steps for every job that waits. -/
def work (s : KeyedSerializer) : Nat :=
  (s.workers.map fun w => w.phase.rank).sum + 3 * s.queues.total List.length

theorem sum_set {workers : List Worker} {i : Nat} {w : Worker} (hi : workers[i]? = some w) (w' : Worker) :
    ((workers.set i w').map fun w => w.phase.rank).sum + w.phase.rank
      = (workers.map fun w => w.phase.rank).sum + w'.phase.rank := by
  obtain ⟨a, b, hworkers, hset⟩ := exists_set_eq hi
  rw [hset, hworkers]
  simp only [List.map_append, List.map_cons, List.sum_append_nat, List.sum_cons]
  omega

/-- Every step of a worker brings it closer to the end. -/
theorem step_work {act : Act} (hact : act.OfWorker) (h : step s act = some s') :
    work s' + 1 = work s := by
  cases act with
  | submit key => exact hact.elim
  | start i =>
      simp only [step] at h
      split at h
      next key job hw =>
        cases h
        have hsum := sum_set hw ⟨key, .running job⟩
        simp only [work, KeyedSerializer.move, Phase.rank] at hsum ⊢
        omega
      next => exact nomatch h
  | finish i how =>
      simp only [step] at h
      split at h
      next key job hw =>
        cases h
        have hsum := sum_set hw ⟨key, .ended⟩
        simp only [work, KeyedSerializer.move, Phase.rank] at hsum ⊢
        omega
      next => exact nomatch h
  | next i =>
      simp only [step] at h
      split at h
      next key hw =>
        split at h
        next job queue hq =>
          cases h
          have hsum := sum_set hw ⟨key, .holding job⟩
          have htotal := AssocMap.total_erase List.length hq
          simp only [work, KeyedSerializer.move, Phase.rank, AssocMap.total_insert,
            List.length_cons] at hsum htotal ⊢
          omega
        next hq =>
          cases h
          have hsum := sum_set hw ⟨key, .gone⟩
          have htotal : (s.queues.erase key).total List.length = s.queues.total List.length := by
            cases hqueue : s.queues.get? key with
            | none => exact AssocMap.total_erase_none _ hqueue
            | some l =>
                cases l with
                | nil =>
                    have := AssocMap.total_erase List.length hqueue
                    rwa [List.length_nil, Nat.zero_add] at this
                | cons job queue => exact absurd hqueue (hq job queue)
          simp only [work, KeyedSerializer.move, Phase.rank, htotal] at hsum ⊢
          omega
      next => exact nomatch h

/-- A run of the workers alone takes as many steps as it does work. -/
theorem play_work {acts : List Act} (hacts : ∀ act ∈ acts, act.OfWorker)
    (h : play step Any s acts = some s') : work s' + acts.length = work s := by
  induction acts generalizing s with
  | nil =>
      cases h
      rfl
  | cons act acts ih =>
      rw [play, if_pos trivial] at h
      obtain ⟨s₁, hs, hrest⟩ := Option.bind_eq_some_iff.mp h
      have hstep := step_work (hacts act List.mem_cons_self) hs
      have htail := ih (fun a ha => hacts a (List.mem_cons_of_mem _ ha)) hrest
      rw [List.length_cons]
      omega

/-- When no worker can go on, every job was started and the map is empty. -/
theorem drained (h : Reach step Any KeyedSerializer.empty s)
    (hstuck : ∀ act, act.OfWorker → step s act = none) :
    s.queues.entries = [] ∧ s.started.Perm s.submitted := by
  have hgone : ∀ w ∈ s.workers, w.phase = .gone := by
    intro w hw
    by_contra hlive
    obtain ⟨i, hi⟩ := List.getElem?_of_mem hw
    rcases worker_ready hi hlive with ⟨s', hs⟩ | hs | ⟨s', hs⟩
    · rw [hstuck (.start i) trivial] at hs
      exact nomatch hs
    · obtain ⟨s', hs⟩ := hs .returned
      rw [hstuck (.finish i .returned) trivial] at hs
      exact nomatch hs
    · rw [hstuck (.next i) trivial] at hs
      exact nomatch hs
  have hnone : ∀ k, s.queues.get? k = none := by
    intro k
    rw [← Option.not_isSome_iff_eq_none, queue_iff_worker h k]
    rintro ⟨w, hw, -, hlive⟩
    exact hlive (hgone w hw)
  constructor
  · rw [List.eq_nil_iff_forall_not_mem]
    rintro ⟨k, q⟩ hmem
    have hsome := (AssocMap.get?_eq_some_iff s.queues k q).mpr hmem
    rw [hnone k] at hsome
    exact nomatch hsome
  · rw [List.perm_iff_count]
    rintro ⟨k, job⟩
    rcases KeyOk.reach h k with ⟨-, -, hjobs⟩ | ⟨q, p, hq, -, -, -⟩
    · have hjobs : logOf k s.started = logOf k s.submitted := hjobs
      rw [← count_logOf, hjobs, count_logOf]
    · exact absurd ((hnone k).symm.trans hq) nofun

/-! ## Runs -/

/-- What holds in every state of the serializer. -/
structure InOrder (s : KeyedSerializer) : Prop where
  /-- Jobs of a key start in the order of their submission. -/
  order : ∀ k, logOf k s.started <+: logOf k s.submitted
  /-- No job starts twice. -/
  once : s.started.Nodup ∧ s.started ⊆ s.submitted
  /-- Jobs of a key do not overlap: there is one worker for it. -/
  alone : ∀ (i j : Nat) (w w' : Worker), s.workers[i]? = some w → s.workers[j]? = some w' →
    w.key = w'.key → w.phase ≠ .gone → w'.phase ≠ .gone → i = j
  /-- A worker goes on whatever other keys do, and leaves them as they are. -/
  free : ∀ (i : Nat) (w : Worker), s.workers[i]? = some w → w.phase ≠ .gone →
    (∃ s', step s (.start i) = some s') ∨ (∀ how, ∃ s', step s (.finish i how) = some s') ∨
      ∃ s', step s (.next i) = some s'
  apart : ∀ act s', step s act = some s' → ∃ k₀, ∀ k ≠ k₀, view s' k = view s k
  /-- A key is in the map while it has a worker. -/
  keys : ∀ k, (s.queues.get? k).isSome ↔ ∃ w ∈ s.workers, w.key = k ∧ w.phase ≠ .gone

/-- **EVERY JOB RUNS ONCE, IN ORDER**: in every state that submissions and workers lead to, in any
    interleaving and however jobs end, the jobs of a key have started in the order of their submission,
    none of them twice, and do not overlap; a worker never waits for one of another key; and a key is in
    the map while it has a worker.  From there the workers take at most `work s` steps, and when none of
    them can take another one every submitted job has started exactly once and the map is empty. -/
theorem serializer_in_order {s : KeyedSerializer} (h : Reach step Any KeyedSerializer.empty s) :
    InOrder s ∧ ∀ acts s', (∀ act ∈ acts, act.OfWorker) → play step Any s acts = some s' →
      acts.length ≤ work s ∧
        ((∀ act, act.OfWorker → step s' act = none) →
          s'.queues.entries = [] ∧ s'.started.Perm s'.submitted) := by
  constructor
  · constructor
    · exact fun k => (KeyOk.reach h k).order
    · exact started_once h
    · exact fun i j w w' hi hj hkey hw hw' => worker_unique h hi hj hkey hw hw'
    · exact fun i w hi hw => worker_ready hi hw
    · intro act s' hs
      obtain ⟨k₀, -, hothers⟩ := step_view hs
      exact ⟨k₀, hothers⟩
    · exact queue_iff_worker h
  · intro acts s' hacts hplay
    have hwork := play_work hacts hplay
    exact ⟨by omega, fun hstuck => drained (h.of_play hplay) hstuck⟩

/-- Two keys side by side: `a` has two jobs waiting behind a running one, and a job of `b` was
    submitted between the panic of the one before it and the pop of its worker. -/
def sideBySide : List Act :=
  [.submit "a", .submit "b", .start 0, .start 1, .submit "a", .finish 1 .panicked, .submit "b",
    .next 1, .submit "a", .start 1]

/-- The workers go on in turns, and two more jobs do not return. -/
def inTurns : List Act :=
  [.finish 0 .cancelled, .finish 1 .returned, .next 0, .next 1, .start 0, .finish 0 .panicked,
    .next 0, .start 0, .finish 0 .returned, .next 0]

/-- Five jobs of two keys: each starts once, those of a key in their order, none waits for the
    other key, and the map is empty at last. -/
theorem serializer_in_order_two_keys :
    ∃ s s', play step Any KeyedSerializer.empty sideBySide = some s ∧ InOrder s
      ∧ s.submitted = [("a", 0), ("b", 1), ("a", 2), ("b", 3), ("a", 4)]
      ∧ s.started = [("a", 0), ("b", 1), ("b", 3)]
      ∧ play step Any s inTurns = some s' ∧ inTurns.length ≤ work s
      ∧ s'.queues.entries = [] ∧ s'.started.Perm s'.submitted
      ∧ logOf "a" s'.started = [0, 2, 4] ∧ logOf "b" s'.started = [1, 3] := by
  obtain ⟨s, hs⟩ : ∃ s, play step Any KeyedSerializer.empty sideBySide = some s := ⟨_, rfl⟩
  obtain ⟨horder, hdrains⟩ := serializer_in_order (Reach.start.of_play hs)
  have hlogs : (play step Any KeyedSerializer.empty sideBySide).map (fun s => (s.submitted, s.started))
      = some ([("a", 0), ("b", 1), ("a", 2), ("b", 3), ("a", 4)],
        [("a", 0), ("b", 1), ("b", 3)]) := rfl
  have hlast : (play step Any KeyedSerializer.empty sideBySide).bind (fun s =>
      (play step Any s inTurns).map fun s' => (s'.workers, logOf "a" s'.started, logOf "b" s'.started))
      = some ([⟨"a", .gone⟩, ⟨"b", .gone⟩], [0, 2, 4], [1, 3]) := rfl
  rw [hs] at hlogs hlast
  obtain ⟨hsubmitted, hstarted⟩ := Prod.mk.inj (Option.some.inj hlogs)
  obtain ⟨s', hs', hends⟩ := Option.map_eq_some_iff.mp hlast
  obtain ⟨hworkers, hends⟩ := Prod.mk.inj hends
  obtain ⟨ha, hb⟩ := Prod.mk.inj hends
  obtain ⟨hwork, hdrained⟩ := hdrains inTurns s' (by decide) hs'
  have hstuck : ∀ act, act.OfWorker → step s' act = none := by
    intro act hact
    cases act with
    | submit key => exact hact.elim
    | start i =>
        rw [step, hworkers]
        rcases i with _ | _ | i <;> rfl
    | finish i how =>
        rw [step, hworkers]
        rcases i with _ | _ | i <;> rfl
    | next i =>
        rw [step, hworkers]
        rcases i with _ | _ | i <;> rfl
  obtain ⟨hempty, hperm⟩ := hdrained hstuck
  exact ⟨s, s', hs, horder, hsubmitted, hstarted, hs', hwork, hempty, hperm, ha, hb⟩

/-- A job that has just ended. -/
def justEnded : KeyedSerializer :=
  ⟨AssocMap.empty.insert "a" [], [⟨"a", .ended⟩], [("a", 0)], [("a", 0)]⟩

theorem justEnded_reach : Reach step Any KeyedSerializer.empty justEnded := by
  have hplay : play step Any KeyedSerializer.empty [.submit "a", .start 0, .finish 0 .panicked]
      = some justEnded := rfl
  exact Reach.start.of_play hplay

/-- No job is pending or running, and the map has not been cleared yet. -/
theorem justEnded_key_left :
    ¬ ∀ s, Reach step Any KeyedSerializer.empty s →
      (∀ k q, s.queues.get? k = some q → q = []) →
      (∀ w ∈ s.workers, w.phase = .ended ∨ w.phase = .gone) → s.queues.entries = [] := by
  intro h
  have hnil := h justEnded justEnded_reach ?_ ?_
  · exact nomatch hnil
  · intro k q hq
    rw [AssocMap.get?_eq_some_iff] at hq
    rcases List.mem_singleton.mp hq with heq
    cases heq
    rfl
  · intro w hw
    rw [List.mem_singleton.mp hw]
    exact .inl rfl

end Greentic.KeyedJobs
