import GreenticRunner.Transition

/-! # Deadline watchdogs

    The watchdogs of `runner/remote_dispatch.rs` and the cancel notices of
    `runner/dispatch_listener.rs`: a process arms a task for every dispatch with a deadline,
    keyed by the correlation id; a response that is admitted cancels by that id in its own
    process and announces the id to the other ones.

    * `cancel`, `step` — arming, failed publishes, expiry in its two parts, admissions and
      notices;
    * `watchdog_own` — a watchdog belongs to one dispatch;
    * `lateTimeout_published` — a timeout of a call that has completed. -/

namespace Greentic.Watchdog

open Transition

/-! ## Processes -/

/-- Why a watchdog was removed: a response was admitted (to which dispatch), its request was
    not published, or a later dispatch was armed. -/
inductive Cause where
  | admission (number : Nat)
  | publishFailed
  | superseded (number : Nat)
  deriving DecidableEq

/-- A watchdog: none where the dispatch has no deadline, sleeping, past its deadline and
    deregistered, its timeout published (after a response was admitted?), or removed. -/
inductive Watch where
  | absent
  | waiting
  | expired
  | published (late : Bool)
  | removed (cause : Cause)
  deriving DecidableEq

/-- A dispatch: its process, its correlation id, its watchdog, whether its publish failed, and
    the processes that admitted a response to it. -/
structure Guarded where
  replica : Nat
  id : String
  watch : Watch
  failed : Bool
  admittedBy : List Nat

/-- A notice, with the dispatch whose response was admitted and the processes that got it. -/
structure Notice where
  origin : Nat
  id : String
  number : Nat
  seen : List Nat

/-- The dispatches of all processes, numbered as they are armed; the watchdogs each process has
    registered, by id (the number stands for the generation and the task); the notices. -/
structure Net where
  count : Nat
  dispatch : Nat → Option Guarded
  pending : Nat × String → Option Nat
  notices : List Notice

inductive Label where
  | arm (replica : Nat) (id : String)
  | plain (replica : Nat) (id : String)
  | publishFails (number : Nat)
  | expire (number : Nat)
  | fire (number : Nat)
  | admitResponse (replica number : Nat) (notify : Bool)
  | deliver (notice replica : Nat)

namespace Net

/-- Abort a registered task. -/
def abort (s : Net) (key : Nat × String) (cause : Cause) : Net :=
  match s.pending key with
  | none => s
  | some number =>
      { s with
        pending := Function.update s.pending key none
        dispatch := Function.update s.dispatch number
          ((s.dispatch number).map fun d => { d with watch := .removed cause }) }

/-- `cancel_watchdog`: by id, whatever the generation. -/
def cancel (s : Net) (replica : Nat) (id : String) (number : Nat) : Net :=
  s.abort (replica, id) (.admission number)

/-- A dispatch with new data. -/
def put (s : Net) (number : Nat) (d : Guarded) : Net :=
  { s with dispatch := Function.update s.dispatch number (some d) }

/-- A new dispatch. -/
def issue (s : Net) (replica : Nat) (id : String) : Net :=
  { s with
    count := s.count + 1
    dispatch := Function.update s.dispatch s.count (some ⟨replica, id, .absent, false, []⟩) }

/-- `arm_watchdog`: the previous task under the id is aborted. -/
def arm (s : Net) (replica : Nat) (id : String) : Net :=
  let s' := (s.issue replica id).abort (replica, id) (.superseded s.count)
  { s' with
    dispatch := Function.update s'.dispatch s.count (some ⟨replica, id, .waiting, false, []⟩)
    pending := Function.update s'.pending (replica, id) (some s.count) }

/-- `disarm_watchdog` after a failed publish, only the own generation. -/
def disarm (s : Net) (number : Nat) (d : Guarded) : Net :=
  let s' := s.put number { d with failed := true }
  if s.pending (d.replica, d.id) = some number then s'.abort (d.replica, d.id) .publishFailed else s'

/-- The first part of an expiry: `deregister_watchdog`, only the own generation. -/
def deregister (s : Net) (number : Nat) (d : Guarded) : Net :=
  { s with
    pending := if s.pending (d.replica, d.id) = some number then
      Function.update s.pending (d.replica, d.id) none else s.pending
    dispatch := Function.update s.dispatch number (some { d with watch := .expired }) }

/-- The second part: the timeout is published. -/
def publish (s : Net) (number : Nat) (d : Guarded) : Net :=
  s.put number { d with watch := .published (!d.admittedBy.isEmpty) }

/-- `retire_watchdog_on_admission`. -/
def admitResponse (s : Net) (replica number : Nat) (d : Guarded) (notify : Bool) : Net :=
  let s' := (s.put number { d with admittedBy := replica :: d.admittedBy }).cancel replica d.id number
  if notify then { s' with notices := s'.notices ++ [⟨replica, d.id, number, []⟩] } else s'

/-- `run_watchdog_cancel_listener`, one notice: a process ignores its own. -/
def receive (s : Net) (i : Nat) (notice : Notice) (replica : Nat) : Net :=
  { s with
    notices := s.notices.set i { notice with seen := replica :: notice.seen } }.cancel replica
      notice.id notice.number

end Net

def step (s : Net) : Label → Option Net
  | .arm replica id => some (s.arm replica id)
  | .plain replica id => some (s.issue replica id)
  | .publishFails number => (s.dispatch number).map (s.disarm number)
  | .expire number => do
      let d ← s.dispatch number
      if d.watch = .waiting then some (s.deregister number d) else none
  | .fire number => do
      let d ← s.dispatch number
      if d.watch = .expired then some (s.publish number d) else none
  | .admitResponse replica number notify => (s.dispatch number).map fun d => s.admitResponse replica number d notify
  | .deliver i replica => do
      let notice ← s.notices[i]?
      if notice.origin ≠ replica ∧ replica ∉ notice.seen ∧ notice.id ≠ "" then
        some (s.receive i notice replica)
      else none

def Net.start : Net := ⟨0, fun _ => none, fun _ => none, []⟩

/-! ## Conditions -/

/-- A deadline passes while no other process has admitted a response; a response is not
    admitted between the two parts of an expiry; and a cancel finds under the id the watchdog
    of the dispatch it is about, or none. -/
def Orderly (s : Net) : Label → Prop
  | .expire number => ∀ d, s.dispatch number = some d → ∀ r ∈ d.admittedBy, r = d.replica
  | .admitResponse replica number _ => ∀ d, s.dispatch number = some d → d.watch ≠ .expired ∧
      ∀ m, s.pending (replica, d.id) = some m → m = number
  | .deliver i replica => ∀ notice, s.notices[i]? = some notice →
      ∀ m, s.pending (replica, notice.id) = some m → m = notice.number
  | _ => True

/-- The reasons for which a watchdog may be removed. -/
def Justified (s : Net) (number : Nat) (d : Guarded) : Cause → Prop
  | .admission m => m = number ∧ d.admittedBy ≠ []
  | .publishFailed => d.failed = true
  | .superseded m => number < m ∧
      ∃ d', s.dispatch m = some d' ∧ d'.replica = d.replica ∧ d'.id = d.id

/-- No timeout is published after a response was admitted, and a watchdog is removed only for
    its own dispatch. -/
def OwnWatchdogs (s : Net) : Prop :=
  ∀ number d, s.dispatch number = some d → d.watch ≠ .published true ∧
    ∀ cause, d.watch = .removed cause → Justified s number d cause

/-! ## The invariant -/

/-- What the watchdog of a dispatch says about the processes. -/
def Fine (s : Net) (number : Nat) (d : Guarded) : Prop :=
  match d.watch with
  | .absent => True
  | .waiting => s.pending (d.replica, d.id) = some number ∧ d.replica ∉ d.admittedBy
  | .expired => d.admittedBy = []
  | .published late => late = false
  | .removed cause => Justified s number d cause

/-- Processes register sleeping watchdogs only, each under the id of its dispatch, and every
    dispatch is fine. -/
structure Own (s : Net) : Prop where
  bound : ∀ n d, s.dispatch n = some d → n < s.count
  registered : ∀ key n, s.pending key = some n →
    ∃ d, s.dispatch n = some d ∧ d.watch = .waiting ∧ (d.replica, d.id) = key
  fine : ∀ n d, s.dispatch n = some d → Fine s n d
  notices : ∀ notice ∈ s.notices, ∃ d, s.dispatch notice.number = some d ∧ d.admittedBy ≠ []

variable {s s' : Net} {n : Nat} {d d' : Guarded}

theorem Own.waiting (h : Own s) (hd : s.dispatch n = some d) (hw : d.watch = .waiting) :
    s.pending (d.replica, d.id) = some n ∧ d.replica ∉ d.admittedBy := by
  have hf := h.fine n d hd
  rw [Fine, hw] at hf
  exact hf

/-- Every dispatch is there with its process and its id. -/
def Kept (s s' : Net) : Prop :=
  ∀ n d, s.dispatch n = some d →
    ∃ d', s'.dispatch n = some d' ∧ d'.replica = d.replica ∧ d'.id = d.id

/-- What does not touch a dispatch leaves it fine. -/
theorem Fine.mono (h : Fine s n d) (hk : Kept s s')
    (hp : d.watch = .waiting → s.pending (d.replica, d.id) = some n →
      s'.pending (d.replica, d.id) = some n) : Fine s' n d := by
  unfold Fine at h ⊢
  cases hw : d.watch with
  | absent => trivial
  | waiting =>
      rw [hw] at h
      exact ⟨hp hw h.1, h.2⟩
  | expired =>
      rw [hw] at h
      exact h
  | published late =>
      rw [hw] at h
      exact h
  | removed cause =>
      rw [hw] at h
      cases cause with
      | admission m => exact h
      | publishFailed => exact h
      | superseded m =>
          obtain ⟨hlt, d', hd', hr, hi⟩ := h
          obtain ⟨d'', hd'', hr', hi'⟩ := hk m d' hd'
          exact ⟨hlt, d'', hd'', hr'.trans hr, hi'.trans hi⟩

/-- One dispatch changes, and registrations of other ones do not. -/
theorem Own.update (h : Own s) (hd : s.dispatch n = some d) (d' : Guarded)
    (pending : Nat × String → Option Nat) (hr : d'.replica = d.replica) (hi : d'.id = d.id)
    (ha : d.admittedBy ≠ [] → d'.admittedBy ≠ [])
    (hother : ∀ key m, m ≠ n → (pending key = some m ↔ s.pending key = some m))
    (hself : ∀ key, pending key = some n → d'.watch = .waiting ∧ (d'.replica, d'.id) = key)
    (hf : Fine { s with dispatch := Function.update s.dispatch n (some d'), pending := pending }
      n d') :
    Own { s with dispatch := Function.update s.dispatch n (some d'), pending := pending } := by
  have hkept : Kept s { s with
      dispatch := Function.update s.dispatch n (some d'), pending := pending } := by
    intro m e hm
    by_cases hmn : m = n
    · subst hmn
      rw [hd] at hm
      cases hm
      exact ⟨d', Function.update_self .., hr, hi⟩
    · exact ⟨e, (Function.update_of_ne hmn ..).trans hm, rfl, rfl⟩
  constructor
  · intro m e hm
    by_cases hmn : m = n
    · exact hmn ▸ h.bound n d hd
    · exact h.bound m e ((Function.update_of_ne hmn ..).symm.trans hm)
  · intro key m hkey
    by_cases hmn : m = n
    · subst hmn
      exact ⟨d', Function.update_self .., hself key hkey⟩
    · obtain ⟨e, he, hw, heq⟩ := h.registered key m ((hother key m hmn).mp hkey)
      exact ⟨e, (Function.update_of_ne hmn ..).trans he, hw, heq⟩
  · intro m e hm
    by_cases hmn : m = n
    · subst hmn
      cases (Function.update_self m (some d') s.dispatch).symm.trans hm
      exact hf
    · have hm' : s.dispatch m = some e := (Function.update_of_ne hmn ..).symm.trans hm
      exact (h.fine m e hm').mono hkept fun _ hkey => (hother _ m hmn).mpr hkey
  · intro notice hmem
    obtain ⟨e, he, hne⟩ := h.notices notice hmem
    by_cases hmn : notice.number = n
    · rw [hmn] at he ⊢
      rw [hd] at he
      cases he
      exact ⟨d', Function.update_self .., ha hne⟩
    · exact ⟨e, (Function.update_of_ne hmn ..).trans he, hne⟩

/-! ## Steps -/

theorem abort_none {key : Nat × String} (hk : s.pending key = none) (cause : Cause) :
    s.abort key cause = s := by
  rw [Net.abort, hk]

/-- The pending dispatch is. -/
theorem abort_some {key : Nat × String} (hk : s.pending key = some n)
    (hd : s.dispatch n = some d) (cause : Cause) :
    s.abort key cause = { s with
      dispatch := Function.update s.dispatch n (some { d with watch := .removed cause })
      pending := Function.update s.pending key none } := by
  rw [Net.abort, hk]
  simp only [hd, Option.map_some]

/-- The registrations without the one of a dispatch. -/
theorem unregistered_iff (h : Own s) {key : Nat × String} (hk : s.pending key = some n)
    (k : Nat × String) (m : Nat) :
    Function.update s.pending key none k = some m ↔ m ≠ n ∧ s.pending k = some m := by
  by_cases hkey : k = key
  · rw [hkey, Function.update_self]
    refine ⟨fun heq => (nomatch heq), ?_⟩
    rintro ⟨hm, hsome⟩
    exact absurd (Option.some.inj (hsome.symm.trans hk)) hm
  · rw [Function.update_of_ne hkey]
    refine ⟨fun heq => ⟨?_, heq⟩, fun heq => heq.2⟩
    rintro rfl
    obtain ⟨d, hd, -, heq₁⟩ := h.registered key m hk
    obtain ⟨d', hd', -, heq₂⟩ := h.registered k m heq
    rw [hd] at hd'
    cases hd'
    exact hkey (heq₂.symm.trans heq₁)

/-- A registered watchdog is removed, for a good reason. -/
theorem Own.abort (h : Own s) {key : Nat × String} {cause : Cause}
    (hj : ∀ m d, s.pending key = some m → s.dispatch m = some d → Justified s m d cause) :
    Own (s.abort key cause) := by
  cases hk : s.pending key with
  | none =>
      rw [abort_none hk]
      exact h
  | some m =>
      obtain ⟨d, hd, -, -⟩ := h.registered key m hk
      have hjust := hj m d hk hd
      rw [abort_some hk hd]
      refine h.update hd _ _ rfl rfl id ?_ ?_ ?_
      · intro k l hl
        rw [unregistered_iff h hk]
        exact ⟨fun heq => heq.2, fun heq => ⟨hl, heq⟩⟩
      · intro k heq
        exact absurd rfl ((unregistered_iff h hk k m).mp heq).1
      · show Justified _ m _ cause
        cases cause with
        | admission l => exact hjust
        | publishFailed => exact hjust
        | superseded l =>
            obtain ⟨hlt, d', hd', hr, hi⟩ := hjust
            exact ⟨hlt, d', (Function.update_of_ne (Nat.ne_of_gt hlt) ..).trans hd', hr, hi⟩

/-- A cancel that is about the dispatch whose watchdog it finds. -/
theorem Own.cancel (h : Own s) {replica : Nat} {id : String}
    (hown : ∀ m, s.pending (replica, id) = some m → m = n)
    (ha : ∃ d, s.dispatch n = some d ∧ d.admittedBy ≠ []) : Own (s.cancel replica id n) := by
  refine h.abort ?_
  intro m d hm hd
  obtain ⟨d', hd', hne⟩ := ha
  have hmn := hown m hm
  subst hmn
  rw [hd] at hd'
  cases hd'
  exact ⟨rfl, hne⟩

theorem Own.with_notices (h : Own s) (notices : List Notice)
    (hn : ∀ notice ∈ notices, ∃ d, s.dispatch notice.number = some d ∧ d.admittedBy ≠ []) :
    Own { s with notices := notices } :=
  ⟨h.bound, h.registered, fun n d hd => (h.fine n d hd).mono (fun _ e he => ⟨e, he, rfl, rfl⟩)
    fun _ hp => hp, hn⟩

/-- A new dispatch. -/
theorem Own.issue (h : Own s) (replica : Nat) (id : String) : Own (s.issue replica id) := by
  have hfresh : s.dispatch s.count = none := by
    cases hd : s.dispatch s.count with
    | none => rfl
    | some d => exact absurd (h.bound _ d hd) (Nat.lt_irrefl _)
  have hold : ∀ m e, s.dispatch m = some e → (s.issue replica id).dispatch m = some e := by
    intro m e hm
    have hne : m ≠ s.count := fun heq => by rw [heq, hfresh] at hm; exact nomatch hm
    exact (Function.update_of_ne hne ..).trans hm
  constructor
  · intro m e hm
    by_cases hmn : m = s.count
    · exact hmn ▸ Nat.lt_succ_self _
    · exact Nat.lt_succ_of_lt (h.bound m e ((Function.update_of_ne hmn ..).symm.trans hm))
  · intro key m hkey
    obtain ⟨e, he, hw, heq⟩ := h.registered key m hkey
    exact ⟨e, hold m e he, hw, heq⟩
  · intro m e hm
    by_cases hmn : m = s.count
    · subst hmn
      cases (Function.update_self s.count _ s.dispatch).symm.trans hm
      trivial
    · have hm' : s.dispatch m = some e := (Function.update_of_ne hmn ..).symm.trans hm
      exact (h.fine m e hm').mono (fun l f hl => ⟨f, hold l f hl, rfl, rfl⟩) fun _ hp => hp
  · intro notice hmem
    obtain ⟨e, he, hne⟩ := h.notices notice hmem
    exact ⟨e, hold _ e he, hne⟩

/-- It is armed. -/
theorem Own.arm (h : Own s) (replica : Nat) (id : String) : Own (s.arm replica id) := by
  have hi := h.issue replica id
  have hnew : (s.issue replica id).dispatch s.count
      = some ⟨replica, id, .absent, false, []⟩ := Function.update_self ..
  have hlt : ∀ key m, (s.issue replica id).pending key = some m → m < s.count := by
    intro key m hm
    obtain ⟨e, he, -⟩ := h.registered key m hm
    exact h.bound m e he
  have ha : Own ((s.issue replica id).abort (replica, id) (.superseded s.count)) := by
    refine hi.abort ?_
    intro m e hm he
    obtain ⟨e', he', -, hkey⟩ := hi.registered _ m hm
    rw [he] at he'
    cases he'
    cases hkey
    exact ⟨hlt _ m hm, _, hnew, rfl, rfl⟩
  -- After the abort nothing is registered under the id, and the new dispatch is as issued.
  have hstate : ((s.issue replica id).abort (replica, id) (.superseded s.count)).dispatch s.count
        = some ⟨replica, id, .absent, false, []⟩ ∧
      ((s.issue replica id).abort (replica, id) (.superseded s.count)).pending (replica, id)
        = none := by
    cases hk : (s.issue replica id).pending (replica, id) with
    | none =>
        rw [abort_none hk]
        exact ⟨hnew, hk⟩
    | some m =>
        obtain ⟨e, he, -⟩ := hi.registered _ m hk
        rw [abort_some hk he]
        refine ⟨?_, Function.update_self ..⟩
        exact (Function.update_of_ne (Nat.ne_of_gt (hlt _ m hk)) ..).trans hnew
  refine ha.update hstate.1 ⟨replica, id, .waiting, false, []⟩ _ rfl rfl (fun hne => hne) ?_ ?_ ?_
  · intro key m hm
    by_cases hkey : key = (replica, id)
    · rw [hkey, Function.update_self, hstate.2]
      exact ⟨fun heq => absurd (Option.some.inj heq).symm hm, fun heq => (nomatch heq)⟩
    · rw [Function.update_of_ne hkey]
  · intro key hkey
    by_cases hk : key = (replica, id)
    · exact ⟨rfl, hk.symm⟩
    · rw [Function.update_of_ne hk] at hkey
      obtain ⟨e, he, hw, -⟩ := ha.registered key s.count hkey
      rw [hstate.1] at he
      cases he
      exact nomatch hw
  · exact ⟨Function.update_self .., List.not_mem_nil⟩

/-- A dispatch whose watchdog stays as it is. -/
theorem Own.touch (h : Own s) (hd : s.dispatch n = some d) (d' : Guarded)
    (hr : d'.replica = d.replica) (hi : d'.id = d.id) (hw : d'.watch = d.watch)
    (ha : d.admittedBy ≠ [] → d'.admittedBy ≠ []) (hfail : d.failed = true → d'.failed = true)
    (hwait : d.watch = .waiting → d'.replica ∉ d'.admittedBy)
    (hexp : d.watch = .expired → d'.admittedBy = []) : Own (s.put n d') := by
  refine h.update hd d' s.pending hr hi ha (fun _ _ _ => Iff.rfl) ?_ ?_
  · intro key hkey
    obtain ⟨e, he, hew, heq⟩ := h.registered key n hkey
    rw [hd] at he
    cases he
    exact ⟨hw.trans hew, by rw [hr, hi]; exact heq⟩
  · have hf := h.fine n d hd
    unfold Fine at hf ⊢
    rw [hw, hr, hi]
    cases hwatch : d.watch with
    | absent => trivial
    | waiting =>
        rw [hwatch] at hf
        exact ⟨hf.1, hr ▸ hwait hwatch⟩
    | expired => exact hexp hwatch
    | published late =>
        rw [hwatch] at hf
        exact hf
    | removed cause =>
        rw [hwatch] at hf
        cases cause with
        | admission m => exact ⟨hf.1, ha hf.2⟩
        | publishFailed => exact hfail hf
        | superseded m =>
            obtain ⟨hlt, e, he, her, hei⟩ := hf
            refine ⟨hlt, e, (Function.update_of_ne (Nat.ne_of_gt hlt) ..).trans he, ?_, ?_⟩
            · rw [her, hr]
            · rw [hei, hi]

/-- It is disarmed. -/
theorem Own.disarm (h : Own s) (hd : s.dispatch n = some d) : Own (s.disarm n d) := by
  have hf : Own (s.put n { d with failed := true }) := by
    refine h.touch hd _ rfl rfl rfl id (fun _ => rfl) (fun hw => (h.waiting hd hw).2) ?_
    intro hw
    have hfine := h.fine n d hd
    rw [Fine, hw] at hfine
    exact hfine
  unfold Net.disarm
  dsimp only
  split
  next hk =>
    refine hf.abort ?_
    intro m e hm he
    have hmn : m = n := Option.some.inj (hm.symm.trans hk)
    rw [hmn] at he
    cases (Function.update_self n _ s.dispatch).symm.trans he
    exact rfl
  next => exact hf

/-- It is answered. -/
theorem Own.deregister (h : Own s) (hd : s.dispatch n = some d) (hw : d.watch = .waiting)
    (hc : ∀ r ∈ d.admittedBy, r = d.replica) : Own (s.deregister n d) := by
  obtain ⟨hk, hnot⟩ := h.waiting hd hw
  have hnil : d.admittedBy = [] :=
    List.eq_nil_iff_forall_not_mem.mpr fun r hr => hnot (hc r hr ▸ hr)
  unfold Net.deregister
  rw [if_pos hk]
  refine h.update hd _ _ rfl rfl id ?_ ?_ hnil
  · intro k l hl
    rw [unregistered_iff h hk]
    exact ⟨fun heq => heq.2, fun heq => ⟨hl, heq⟩⟩
  · intro k heq
    exact absurd rfl ((unregistered_iff h hk k n).mp heq).1

/-- It has expired. -/
theorem Own.publish (h : Own s) (hd : s.dispatch n = some d) (hw : d.watch = .expired) :
    Own (s.publish n d) := by
  have hnil : d.admittedBy = [] := by
    have hf := h.fine n d hd
    rw [Fine, hw] at hf
    exact hf
  refine h.update hd _ s.pending rfl rfl id (fun _ _ _ => Iff.rfl) ?_ ?_
  · intro key hkey
    obtain ⟨e, he, hew, -⟩ := h.registered key n hkey
    rw [hd] at he
    cases he
    exact nomatch hw.symm.trans hew
  · show (!d.admittedBy.isEmpty) = false
    rw [hnil]
    rfl

theorem Own.admitResponse (h : Own s) (hd : s.dispatch n = some d) {replica : Nat} (notify : Bool)
    (hexp : d.watch ≠ .expired) (hown : ∀ m, s.pending (replica, d.id) = some m → m = n) :
    Own (s.admitResponse replica n d notify) := by
  have hput : (s.put n { d with admittedBy := replica :: d.admittedBy }).dispatch n
      = some { d with admittedBy := replica :: d.admittedBy } := Function.update_self ..
  have hsame : (s.put n { d with admittedBy := replica :: d.admittedBy }).pending (replica, d.id)
      = s.pending (replica, d.id) := rfl
  have hcancel : Own ((s.put n { d with admittedBy := replica :: d.admittedBy }).cancel replica
      d.id n) := by
    cases hk : s.pending (replica, d.id) with
    | none =>
        rw [Net.cancel, abort_none (hsame.trans hk)]
        refine h.touch hd _ rfl rfl rfl (fun _ => List.cons_ne_nil _ _) id ?_ fun hw => absurd hw hexp
        -- A watchdog that still sleeps was not armed by the process that admits.
        intro hw hmem
        obtain ⟨hp, hnot⟩ := h.waiting hd hw
        rcases List.mem_cons.mp hmem with heq | hmem
        · rw [show d.replica = replica from heq, hk] at hp
          exact nomatch hp
        · exact hnot hmem
    | some m =>
        have hmn := hown m hk
        subst hmn
        rw [Net.cancel, abort_some (hsame.trans hk) hput]
        simp only [Net.put, Function.update_idem]
        refine h.update hd _ _ rfl rfl (fun _ => List.cons_ne_nil _ _) ?_ ?_ ?_
        · intro k l hl
          rw [unregistered_iff h hk]
          exact ⟨fun heq => heq.2, fun heq => ⟨hl, heq⟩⟩
        · intro k heq
          exact absurd rfl ((unregistered_iff h hk k m).mp heq).1
        · exact ⟨rfl, List.cons_ne_nil _ _⟩
  unfold Net.admitResponse
  dsimp only
  split
  next =>
    refine hcancel.with_notices _ ?_
    intro notice hmem
    rcases List.mem_append.mp hmem with hmem | hmem
    · exact hcancel.notices notice hmem
    · rw [List.mem_singleton.mp hmem]
      show ∃ e, (Net.cancel _ replica d.id n).dispatch n = some e ∧ e.admittedBy ≠ []
      cases hk : s.pending (replica, d.id) with
      | none =>
          rw [Net.cancel, abort_none (hsame.trans hk)]
          exact ⟨_, hput, List.cons_ne_nil _ _⟩
      | some m =>
          have hmn := hown m hk
          subst hmn
          rw [Net.cancel, abort_some (hsame.trans hk) hput]
          exact ⟨_, Function.update_self .., List.cons_ne_nil _ _⟩
  next => exact hcancel

/-- A notice arrives. -/
theorem Own.receive (h : Own s) {i replica : Nat} {notice : Notice} (hi : s.notices[i]? = some notice)
    (hown : ∀ m, s.pending (replica, notice.id) = some m → m = notice.number) :
    Own (s.receive i notice replica) := by
  have hnotice := h.notices notice (List.mem_of_getElem? hi)
  refine (h.with_notices _ ?_).cancel hown hnotice
  intro x hx
  rcases mem_of_set hx with rfl | hx
  · exact hnotice
  · exact h.notices x hx

/-- Every orderly step keeps the invariant. -/
theorem Own.step (h : Own s) {l : Label} (hc : Orderly s l) (hs : step s l = some s') : Own s' := by
  cases l with
  | arm replica id =>
      cases hs
      exact h.arm replica id
  | plain replica id =>
      cases hs
      exact h.issue replica id
  | publishFails number =>
      obtain ⟨d, hd, rfl⟩ := Option.map_eq_some_iff.mp hs
      exact h.disarm hd
  | expire number =>
      obtain ⟨d, hd, hrest⟩ := Option.bind_eq_some_iff.mp hs
      split at hrest
      next hw =>
        cases hrest
        exact h.deregister hd hw (hc d hd)
      next => exact nomatch hrest
  | fire number =>
      obtain ⟨d, hd, hrest⟩ := Option.bind_eq_some_iff.mp hs
      split at hrest
      next hw =>
        cases hrest
        exact h.publish hd hw
      next => exact nomatch hrest
  | admitResponse replica number notify =>
      obtain ⟨d, hd, rfl⟩ := Option.map_eq_some_iff.mp hs
      obtain ⟨hexp, hown⟩ := hc d hd
      exact h.admitResponse hd notify hexp hown
  | deliver i replica =>
      obtain ⟨notice, hi, hrest⟩ := Option.bind_eq_some_iff.mp hs
      split at hrest
      next =>
        cases hrest
        exact h.receive hi (hc notice hi)
      next => exact nomatch hrest

/-- In every orderly run, a watchdog publishes its timeout only if no response to its dispatch
    was admitted before, and it is removed only because of its own dispatch or of a later one
    of the same id and process. -/
theorem watchdog_own (h : Reach step Orderly Net.start s) : OwnWatchdogs s := by
  have hown : Own s := by
    refine h.inv ⟨?_, ?_, ?_, ?_⟩ fun _ _ _ ho hc hs => ho.step hc hs
    · exact fun n d hd => nomatch show none = some d from hd
    · exact fun key n hk => nomatch show none = some n from hk
    · exact fun n d hd => nomatch show none = some d from hd
    · exact fun notice hn => absurd hn List.not_mem_nil
  intro n d hd
  have hf := hown.fine n d hd
  constructor
  · intro hw
    rw [Fine, hw] at hf
    exact nomatch hf
  · intro cause hw
    rw [Fine, hw] at hf
    exact hf

/-- A dispatch that is answered and a later one of the same id that times out. -/
theorem watchdog_own_rearmed :
    ∃ s, Reach step Orderly Net.start s ∧
      (s.dispatch 0).map (·.watch) = some (.removed (.admission 0)) ∧
      (s.dispatch 1).map (·.watch) = some (.published false) ∧ OwnWatchdogs s := by
  have hadmit : Reach step Orderly Net.start ((Net.start.arm 0 "c").admitResponse 0 0
      ⟨0, "c", .waiting, false, []⟩ true) := by
    refine .next (l := .admitResponse 0 0 true) (.next (l := .arm 0 "c") .start rfl trivial) rfl ?_
    intro d hd
    cases hd
    exact ⟨nofun, fun m hm => (Option.some.inj hm).symm⟩
  have harm := Reach.next (l := Label.arm 0 "c") hadmit rfl trivial
  have hexpire := Reach.next (l := Label.expire 1) harm rfl fun d hd r hr => by
    cases hd
    exact nomatch hr
  have hfire := Reach.next (l := Label.fire 1) hexpire rfl trivial
  exact ⟨_, hfire, rfl, rfl, watchdog_own hfire⟩

/-- The response is admitted between the two parts of the expiry: it finds nothing to cancel,
    and the call that has completed times out. -/
theorem lateTimeout_published : ∃ s, Reach step Any Net.start s ∧ ¬ OwnWatchdogs s := by
  obtain ⟨s, hreach, htest⟩ : ∃ s, Reach step Any Net.start s ∧
      (s.dispatch 0).any (fun d => d.watch = .published true) = true :=
    Reach.of_test [.arm 0 "c", .expire 0, .admitResponse 0 0 true, .fire 0] (by decide +kernel)
  refine ⟨s, hreach, fun h => ?_⟩
  obtain ⟨d, hd, hw⟩ := (Option.any_eq_true _ _).mp htest
  exact (h 0 d hd).1 (of_decide_eq_true hw)

end Greentic.Watchdog
