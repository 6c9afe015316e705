import GreenticRunner.ApprovalRail

/-! # The shutdown of the approval rail

    `HttpApprovalDispatcher::shutdown` cancels the token, clears the map and drops the resumer, one
    lock after the other.  A `dispatch` checks the token only before it sends, so it may register
    its entry at any point of a shutdown or after it.

    * `ShutInv` — an entry that is left after the clear has a poller that will clear it;
    * `shutdown_clean`, `lateDispatch_parked`. -/

namespace Greentic.Approval

open Transition Engine

variable {β : Type}

/-! ## What a shutdown promises -/

/-- The call has returned or was dropped. -/
def DispatchCall.over? (call : DispatchCall) : Bool :=
  match call.phase with
  | .ended _ | .dropped => true
  | _ => false

/-- Every task of the rail has finished. -/
def AllEnded (s : Rail β) : Prop :=
  s.poller.isNone = true ∧ s.tasks.isEmpty = true ∧ s.attaching.isEmpty = true ∧
    s.calls.all DispatchCall.over? = true

/-- The call told its flow to wait. -/
def DispatchCall.parks (call : DispatchCall) : Bool :=
  match call.phase with
  | .ended (.ok (.awaitingResponse _)) => true
  | _ => false

/-- A SHUT-DOWN RAIL HOLDS NOTHING AND PROMISES NOTHING. -/
def ShutClean (s : Rail β) : Prop :=
  (s.shutdown = .returned → AllEnded s → s.pending.isEmpty = true ∧ s.resumer = none) ∧
    s.calls.all (fun c => !(c.late && c.parks)) = true

/-! ## In time -/

/-- The poller comes to the clear at its end. -/
def Poller.willClear : Poller → Bool
  | .dropping | .leaving => false
  | _ => true

/-- The shutdown has cleared the map. -/
def Shutdown.hasCleared : Shutdown → Bool
  | .cleared | .returned => true
  | _ => false

/-- No dispatch registers behind the shutdown, unless it does so before the shutdown returns and a
    poller still comes to its clear, which it then does not miss by a panic; and no resumer is
    attached behind the shutdown. -/
def Timely (s : Rail β) : Label → Prop
  | .register _ _ => s.shutdown ≠ .returned ∧
      (s.shutdown = .cleared → s.poller.any Poller.willClear = true)
  | .attached _ => s.shutdown ≠ .returned
  | .panic => s.shutdown.hasCleared = true → s.pending.isEmpty = true
  | _ => True

/-- What holds in every state of a timely run. -/
structure ShutInv (s : Rail β) : Prop where
  swept : s.shutdown.hasCleared = true → s.pending = [] ∨ s.poller.any Poller.willClear = true
  dropped : s.shutdown = .returned → s.resumer = none
  prompt : ∀ c ∈ s.calls, c.late = false

section Kept

variable {cfg : Config β} {s s' : Rail β} {call : DispatchCall} {k : Nat}

/-- A call goes on. -/
theorem ShutInv.setPhase (h : ShutInv s) (hk : s.calls[k]? = some call) (phase : Phase) :
    ∀ c ∈ (s.setPhase k call phase).calls, c.late = false := by
  intro c hm
  rcases mem_of_set hm with rfl | hold
  · exact h.prompt call (List.mem_of_getElem? hk)
  · exact h.prompt c hold

/-- Nothing is registered, and what was to be cleared still is. -/
theorem ShutInv.kept (h : ShutInv s) (hs : s'.shutdown = s.shutdown)
    (hp : s.pending = [] → s'.pending = [])
    (hw : s.poller.any Poller.willClear = true →
      s'.pending = [] ∨ s'.poller.any Poller.willClear = true)
    (hr : s.resumer = none → s'.resumer = none) (hc : ∀ c ∈ s'.calls, c.late = false) :
    ShutInv s' := by
  constructor
  · intro hcl
    rw [hs] at hcl
    exact (h.swept hcl).elim (fun he => .inl (hp he)) hw
  · intro hret
    rw [hs] at hret
    exact hr (h.dropped hret)
  · exact hc

/-- The poller goes on. -/
theorem ShutInv.poll (h : ShutInv s) {p : Poller} (hp : p.willClear = true) {pending : List Entry}
    (hpend : s.pending = [] → pending = []) (tasks : List (ResumeTask β)) :
    ShutInv { s with poller := some p, pending, tasks } :=
  h.kept rfl hpend (fun _ => .inr hp) id h.prompt

theorem removeEntry_nil {pending : List Entry} (h : pending = []) (id : List Char) :
    removeEntry pending id = [] := by
  rw [h]
  rfl

theorem reschedule_nil {pending : List Entry} (h : pending = []) (timing : Timing) (id : List Char)
    (now : Nat) (after : Option Nat) : reschedule timing pending id now after = [] := by
  rw [h]
  rfl

theorem ShutInv.tick (h : ShutInv s) (now : Nat) : ShutInv (s.tick now) := by
  unfold Rail.tick
  split
  · exact h.poll rfl id _
  · refine h.poll rfl ?_ _
    intro hnil
    rw [hnil]
    rfl

theorem ShutInv.next (h : ShutInv s) (expired : List Entry) (due : List (List Char)) :
    ShutInv (s.next expired due) := by
  unfold Rail.next
  split
  · split
    · exact h.poll rfl id _
    · exact h.poll rfl id _
  · split
    · exact h.poll rfl id _
    · exact h.poll rfl id _
  · exact h.poll rfl id _

theorem ShutInv.pollOne (h : ShutInv s) (correlationId : List Char) (due : List (List Char))
    (answer : Answer (Option DecisionBody)) (now : Nat) :
    ShutInv (s.pollOne cfg correlationId due answer now) := by
  unfold Rail.pollOne
  dsimp only
  split
  · exact h.poll rfl (fun hnil => reschedule_nil hnil _ _ _ _) _
  · exact h.poll rfl (fun hnil => reschedule_nil hnil _ _ _ _) _
  · exact h.poll rfl (fun hnil => removeEntry_nil hnil _) _
  · exact h.poll rfl (fun hnil => removeEntry_nil hnil _) _
  · split
    · exact h.poll rfl id _
    · exact h.poll rfl (fun hnil => removeEntry_nil hnil _) _

theorem ShutInv.runTask (h : ShutInv s) (i : Nat) (task : ResumeTask β) :
    ShutInv (s.runTask cfg i task) := by
  unfold Rail.runTask
  dsimp only
  split
  · split
    · exact h.kept rfl id .inr id h.prompt
    · exact h.kept rfl id .inr id h.prompt
  · split
    · exact h.kept rfl id .inr id h.prompt
    · exact h.kept rfl id .inr id h.prompt

/-- A timely step keeps the invariant: ONE case per label. -/
theorem ShutInv.step (h : ShutInv s) {l : Label} (ht : Timely s l) (hs : step cfg s l = some s') :
    ShutInv s' := by
  cases l with
  | dispatch request =>
      cases hs
      refine h.kept rfl id .inr id ?_
      intro c hm
      rcases List.mem_append.mp hm with hold | hnew
      · exact h.prompt c hold
      · rw [List.mem_singleton.mp hnew]
  | sent k answer =>
      dsimp only [Approval.step] at hs
      split at hs
      · rename_i hk
        cases hs
        exact h.kept rfl id .inr id (h.setPhase hk _)
      · exact nomatch hs
  | register k now =>
      dsimp only [Approval.step] at hs
      split at hs
      · rename_i hk
        cases hs
        constructor
        · -- an entry behind the clear has the clear of the poller before it
          intro hcl
          change s.shutdown.hasCleared = true at hcl
          refine .inr (ht.2 ?_)
          cases hsd : s.shutdown with
          | cleared => rfl
          | returned => exact absurd hsd ht.1
          | idle =>
              rw [hsd] at hcl
              exact nomatch hcl
          | cancelled =>
              rw [hsd] at hcl
              exact nomatch hcl
        · exact h.dropped
        · intro c hm
          rcases mem_of_set hm with rfl | hold
          · exact decide_eq_false ht.1
          · exact h.prompt c hold
      · exact nomatch hs
  | ensurePoller k =>
      dsimp only [Approval.step] at hs
      split at hs
      · rename_i hk
        cases hs
        unfold Rail.ensurePoller
        dsimp only
        split
        · exact h.kept rfl id .inr id (h.setPhase hk _)
        · exact h.kept rfl id (fun _ => .inr rfl) id (h.setPhase hk _)
      · exact nomatch hs
  | abandon k =>
      dsimp only [Approval.step] at hs
      split at hs
      · rename_i hk
        cases hs
        exact h.kept rfl id .inr id (h.setPhase hk _)
      · exact nomatch hs
  | tick now =>
      dsimp only [Approval.step] at hs
      split at hs
      · cases hs
        exact h.tick now
      · exact nomatch hs
  | next =>
      dsimp only [Approval.step] at hs
      split at hs
      · cases hs
        exact h.next _ _
      · exact nomatch hs
  | withdrawn =>
      dsimp only [Approval.step] at hs
      split at hs
      · cases hs
        exact h.poll rfl id _
      · exact nomatch hs
  | polled answer now =>
      dsimp only [Approval.step] at hs
      split at hs
      · cases hs
        exact h.pollOne _ _ answer now
      · exact nomatch hs
  | wake =>
      dsimp only [Approval.step] at hs
      split at hs
      · cases hs
        exact h.poll rfl id _
      · exact nomatch hs
  | leave =>
      dsimp only [Approval.step] at hs
      split at hs
      · cases hs
        exact h.kept rfl (fun _ => rfl) (fun _ => .inl rfl) id h.prompt
      · rename_i hp
        cases hs
        refine h.kept rfl id ?_ (fun _ => rfl) h.prompt
        rw [hp]
        exact nofun
      · rename_i hp
        cases hs
        refine h.kept rfl id ?_ id h.prompt
        rw [hp]
        exact nofun
      · exact nomatch hs
  | panic =>
      dsimp only [Approval.step] at hs
      split at hs
      · cases hs
        exact ⟨fun hcl => .inl (List.isEmpty_iff.mp (ht hcl)), h.dropped, h.prompt⟩
      · exact nomatch hs
  | runTask i =>
      obtain ⟨task, _, rfl⟩ := Option.map_eq_some_iff.mp hs
      exact h.runTask i task
  | loseTask i =>
      dsimp only [Approval.step] at hs
      split at hs
      · cases hs
        exact h.kept rfl id .inr id h.prompt
      · exact nomatch hs
  | reorder i =>
      obtain ⟨e, hi, rfl⟩ := Option.map_eq_some_iff.mp hs
      refine h.kept rfl ?_ .inr id h.prompt
      intro hnil
      rw [hnil] at hi
      exact nomatch hi
  | attach n =>
      dsimp only [Approval.step] at hs
      split at hs
      · exact nomatch hs
      · cases hs
        exact h.kept rfl id .inr id h.prompt
  | attached i =>
      obtain ⟨n, _, rfl⟩ := Option.map_eq_some_iff.mp hs
      exact ⟨h.swept, fun hret => absurd hret ht, h.prompt⟩
  | shutdown =>
      dsimp only [Approval.step] at hs
      split at hs
      · cases hs
        exact ⟨nofun, nofun, h.prompt⟩
      · cases hs
        exact ⟨fun _ => .inl rfl, nofun, h.prompt⟩
      · rename_i hsd
        cases hs
        refine ⟨fun _ => h.swept ?_, fun _ => rfl, h.prompt⟩
        rw [hsd]
        rfl
      · exact nomatch hs
  | cancel =>
      cases hs
      exact h.kept rfl id .inr id h.prompt
  | clear =>
      dsimp only [Approval.step] at hs
      split at hs
      · cases hs
        exact h.kept rfl (fun _ => rfl) .inr id h.prompt
      · exact nomatch hs
  | dropResumer =>
      dsimp only [Approval.step] at hs
      split at hs
      · cases hs
        exact h.kept rfl id .inr (fun _ => rfl) h.prompt
      · exact nomatch hs

theorem ShutInv.new : ShutInv (Rail.new : Rail β) := by
  constructor
  · intro hcl
    exact nomatch hcl
  · intro _
    rfl
  · intro c hc
    exact nomatch hc

/-- A shutdown leaves nothing behind: in every run of any number of dispatches, pollers, resumes
    and attachments in which nothing registers or attaches behind the shutdown. -/
theorem shutdown_clean (h : Reach (Approval.step cfg) Timely Rail.new s) : ShutClean s := by
  have hinv : ShutInv s :=
    h.inv ShutInv.new fun _ _ _ hi ht hs => hi.step ht hs
  constructor
  · rintro hret ⟨hpoller, -, -, -⟩
    refine ⟨?_, hinv.dropped hret⟩
    rcases hinv.swept (by rw [hret]; rfl) with hnil | hclear
    · rw [hnil]
      rfl
    · rw [Option.isNone_iff_eq_none.mp hpoller] at hclear
      exact nomatch hclear
  · rw [List.all_eq_true]
    intro c hc
    rw [hinv.prompt c hc]
    rfl

end Kept

instance (s : Rail β) (l : Label) : Decidable (Timely s l) :=
  match l with
  | .register _ _ => inferInstanceAs (Decidable (_ ∧ _))
  | .attached _ => inferInstanceAs (Decidable (_ ≠ _))
  | .panic => inferInstanceAs (Decidable (_ → _))
  | .dispatch _ | .sent _ _ | .ensurePoller _ | .abandon _ | .tick _ | .next | .withdrawn | .polled _ _
  | .wake | .leave | .runTask _ | .loseTask _ | .reorder _ | .attach _ | .shutdown | .cancel | .clear
  | .dropResumer => .isTrue trivial

/-- The refund waits for its approval when the rail is shut down. -/
theorem shutdown_clean_waiting : ∃ s, Reach (step plainConfig) Timely Rail.new s ∧
    (s.shutdown = .returned ∧ s.poller.isNone = true ∧ s.calls.length = 1) ∧ ShutClean s := by
  have hrun : ∃ s, Reach (step plainConfig) Timely Rail.new s ∧
      (decide (s.shutdown = .returned ∧ s.poller.isNone = true ∧ s.calls.length = 1)) = true :=
    Reach.of_test [.attach 0, .attached 0, .dispatch refundRequest, .sent 0 (.status 201 ""),
      .register 0 0, .ensurePoller 0, .shutdown, .shutdown, .shutdown, .tick 5000, .leave, .leave,
      .leave] (by decide +kernel)
  obtain ⟨s, hs, ht⟩ := hrun
  exact ⟨s, hs, of_decide_eq_true ht, shutdown_clean hs⟩

/-- A dispatch whose send is answered after the shutdown registers its entry, starts no poller and
    tells its flow to wait. -/
theorem lateDispatch_parked : ∃ s, Reach (step plainConfig) Any Rail.new s ∧ ¬ ShutClean s := by
  have hrun : ∃ s, Reach (step plainConfig) Any Rail.new s ∧
      (s.calls.all fun c => !(c.late && c.parks)) == false :=
    Reach.of_test [.attach 0, .attached 0, .dispatch refundRequest, .shutdown, .shutdown, .shutdown,
      .sent 0 (.status 201 ""), .register 0 0, .ensurePoller 0] (by decide +kernel)
  obtain ⟨s, hs, ht⟩ := hrun
  refine ⟨s, hs, ?_⟩
  rintro ⟨-, hall⟩
  rw [hall] at ht
  exact nomatch ht

end Greentic.Approval
