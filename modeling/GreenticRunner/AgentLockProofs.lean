import GreenticRunner.AgentSession

/-! # Concurrent turns of one session

    Any number of turns of one session over the key-value store, interleaved at their
    operations and killed at any moment, while the lock key may expire.

    * `NoStaleSave` — every save was made on top of the save before it;
    * `LockInv` — a turn whose token is in the lock knows the stored state;
    * `no_stale_save`, `opening_overwrites`. -/

namespace Greentic.Aw

open Resumption

/-! ## The session in the key-value store -/

/-- A save: the state, and the state its turn had loaded or saved last. -/
structure Saved where
  base : Option ConversationState
  state : ConversationState

/-- The keys of a session, with the tokens drawn and the saves made so far. -/
structure KvSession where
  lock : Option Nat
  stored : ConversationState
  drawn : Nat
  saves : List Saved

/-- A session before any turn. -/
def KvSession.of (state : ConversationState) : KvSession := ⟨none, state, 0, []⟩

/-- What a turn knows: the token of its lock, the state it loaded or saved last, and its
    events. -/
structure LockMemory where
  token : Option Nat
  base : Option ConversationState
  log : List Ev

/-- A turn before its first operation. -/
def LockMemory.fresh : LockMemory := ⟨none, none, []⟩

/-- The session and a turn. -/
abbrev KvWorld : Type := KvSession × LockMemory

/-- The lock holds the token of the turn. -/
def KvWorld.held (s : KvWorld) : Bool :=
  match s.2.token with
  | some t => s.1.lock == some t
  | none => false

/-- The lock was taken or refreshed just now. -/
def justHeld (log : List Ev) : Bool :=
  match log.getLast? with
  | some ⟨.acquireLock, .ok _⟩ => true
  | some ⟨.refresh, .ok _⟩ => true
  | _ => false

/-- The state was loaded just now. -/
def justLoaded (log : List Ev) : Bool :=
  match log.getLast? with
  | some ⟨.load, .ok _⟩ => true
  | _ => false

/-- A lock key may expire. -/
def Lapses (kv kv' : KvSession) : Prop := kv' = kv ∨ kv' = { kv with lock := none }

/-- A lock that was taken or refreshed just now does not expire before the store operation
    that follows. -/
def Window (i : Op) (s : KvWorld) : Prop :=
  match i with
  | .load => justHeld s.2.log = true → s.held = true
  | .save _ => justHeld s.2.log = true → s.held = true
  | _ => True

/-- `KvAgentStateStore` and `KvSessionLock`: `set_nx`, `compare_refresh` and `compare_del` on
    the lock, `get` and `set_ex` on the state.  A save that failed may have been made. -/
def kvStep : (i : Op) → KvWorld → i.Res → KvSession → LockMemory → Prop
  | .acquireLock, (kv, m), .ok _, kv', m' => kv.lock = none ∧
      kv' = { kv with lock := some kv.drawn, drawn := kv.drawn + 1 } ∧
      m' = { m with token := some kv.drawn }
  | .refresh, (kv, m), .ok _, kv', m' => KvWorld.held (kv, m) = true ∧ kv' = kv ∧ m' = m
  | .refresh, (kv, m), .error e, kv', m' =>
      KvWorld.held (kv, m) = false ∧ e = .lockLost ∧ kv' = kv ∧ m' = m
  | .load, (kv, m), .ok state, kv', m' =>
      state = kv.stored ∧ kv' = kv ∧ m' = { m with base := some state }
  | .save state, (kv, m), r, kv', m' =>
      (kv' = { kv with stored := state, saves := kv.saves ++ [⟨m.base, state⟩] } ∧
        m' = { m with base := some state }) ∨ (kv' = kv ∧ m' = m ∧ ∃ e, r = .error e)
  | .release, (kv, m), _, kv', m' =>
      kv' = (if KvWorld.held (kv, m) then { kv with lock := none } else kv) ∧ m' = m
  | _, (kv, m), _, kv', m' => kv' = kv ∧ m' = m

/-- One operation of a turn that meets `C`, after the lock may have expired. -/
def execKv (C : Op → KvWorld → Prop) (i : Op) (s : KvWorld) (r : i.Res) (s' : KvWorld) : Prop :=
  ∃ kv m, Lapses s.1 kv ∧ Window i (kv, s.2) ∧ C i (kv, s.2) ∧ kvStep i (kv, s.2) r s'.1 m ∧
    s'.2 = { m with log := s.2.log ++ [⟨i, r⟩] }

/-- The turns of a session. -/
inductive KvTurning (rt : AgentRuntime) (tenant : TenantContext) (sessionId : String) :
    LockMemory × TurnThread → Prop where
  | intro (agentId : String) (message : AgentInput) :
      KvTurning rt tenant sessionId
        (.fresh, Main.lift (runStep rt tenant sessionId agentId message))

/-- The session and any number of turns. -/
abbrev KvSystem : Type := Pool KvSession LockMemory Op Op.Res AgentError Unit AgentOutput

/-- Every save was made on top of the save before it: its turn had loaded that state or
    saved it. -/
def NoStaleSave (saves : List Saved) : Prop :=
  ∀ pre x post last, saves = pre ++ x :: post → pre.getLast? = some last →
    x.base = some last.state

/-- The opening message is saved while the lock holds the token of its turn. -/
def OpeningHeld (i : Op) (s : KvWorld) : Prop :=
  match i with
  | .save _ => justLoaded s.2.log = true → s.held = true
  | _ => True

/-! ## The invariant -/

/-- What holds of one turn: a turn whose token is in the lock knows the stored state. -/
structure ThreadInv (kv : KvSession) (m : LockMemory) : Prop where
  token : ∀ t, m.token = some t → t < kv.drawn
  based : ∀ b, m.base = some b → KvWorld.held (kv, m) = true → b = kv.stored
  loaded : Loaded m.log → ∃ b, m.base = some b
  fresh : (∀ e ∈ m.log, IsCheck e) → m.base = none
  refreshed : ∀ e, ⟨.refresh, .error e⟩ ∈ m.log → e = .lockLost

/-- What holds of the session and its turns. -/
structure LockInv (kv : KvSession) (ms : List (Option LockMemory)) : Prop where
  chain : NoStaleSave kv.saves
  last : ∀ x, kv.saves.getLast? = some x → kv.stored = x.state
  drawn : ∀ t, kv.lock = some t → t < kv.drawn
  threads : ∀ (i : Nat) (m : LockMemory), ms[i]? = some (some m) → ThreadInv kv m
  distinct : ∀ (i j : Nat) (m n : LockMemory) (t : Nat), ms[i]? = some (some m) →
    ms[j]? = some (some n) → m.token = some t → n.token = some t → i = j

theorem held_iff {s : KvWorld} : s.held = true ↔ ∃ t, s.2.token = some t ∧ s.1.lock = some t := by
  rw [KvWorld.held]
  cases h : s.2.token with
  | none => simp
  | some t => simp

theorem NoStaleSave.concat {saves : List Saved} {x : Saved} (h : NoStaleSave saves)
    (hx : ∀ last, saves.getLast? = some last → x.base = some last.state) :
    NoStaleSave (saves ++ [x]) := by
  intro pre y post last heq hlast
  rcases concat_split heq with ⟨rfl, rfl, -⟩ | ⟨mid, -, hsaves⟩
  · exact hx last hlast
  · exact h pre y mid last hsaves hlast

/-- Only the lock, the stored state and the tokens matter to a turn. -/
theorem ThreadInv.frame {kv kv' : KvSession} {m : LockMemory} (h : ThreadInv kv m)
    (hd : kv.drawn ≤ kv'.drawn)
    (hb : KvWorld.held (kv', m) = true → KvWorld.held (kv, m) = true ∧ kv'.stored = kv.stored) :
    ThreadInv kv' m where
  token := fun t ht => Nat.lt_of_lt_of_le (h.token t ht) hd
  based := fun b hbase hheld => by
    obtain ⟨h1, h2⟩ := hb hheld
    rw [h2]
    exact h.based b hbase h1
  loaded := h.loaded
  fresh := h.fresh
  refreshed := h.refreshed

/-- One event more that neither loads nor fails to refresh. -/
theorem ThreadInv.snoc {kv : KvSession} {m : LockMemory} {e : Ev} (h : ThreadInv kv m)
    (hl : ∀ state, e ≠ ⟨.load, .ok state⟩)
    (hr : ∀ er, e = ⟨.refresh, .error er⟩ → er = .lockLost) :
    ThreadInv kv { m with log := m.log ++ [e] } where
  token := h.token
  based := h.based
  loaded := by
    rintro ⟨state, hmem⟩
    rcases List.mem_append.mp hmem with hmem | hmem
    · exact h.loaded ⟨state, hmem⟩
    · exact absurd (List.mem_singleton.mp hmem).symm (hl state)
  fresh := fun hc => h.fresh fun e he => hc e (List.mem_append_left _ he)
  refreshed := by
    intro er hmem
    rcases List.mem_append.mp hmem with hmem | hmem
    · exact h.refreshed er hmem
    · exact hr er (List.mem_singleton.mp hmem).symm

theorem LockInv.lapse {kv kv' : KvSession} {ms : List (Option LockMemory)} (h : LockInv kv ms)
    (hl : Lapses kv kv') : LockInv kv' ms := by
  rcases hl with rfl | rfl
  · exact h
  · refine ⟨h.chain, h.last, (fun t ht => nomatch ht), ?_, h.distinct⟩
    intro i m hm
    refine (h.threads i m hm).frame (Nat.le_refl _) ?_
    intro hheld
    obtain ⟨t, -, ht⟩ := held_iff.mp hheld
    exact nomatch ht

/-- Two turns do not hold the lock at once. -/
theorem LockInv.exclusive {kv : KvSession} {ms : List (Option LockMemory)} (h : LockInv kv ms)
    {i j : Nat} {m n : LockMemory} (hi : ms[i]? = some (some m)) (hj : ms[j]? = some (some n))
    (hm : KvWorld.held (kv, m) = true) (hn : KvWorld.held (kv, n) = true) : i = j := by
  obtain ⟨t, ht, hlock⟩ := held_iff.mp hm
  obtain ⟨t', ht', hlock'⟩ := held_iff.mp hn
  rw [show kv.lock = some t from hlock] at hlock'
  cases hlock'
  exact h.distinct i j m n t hi hj ht ht'

/-- One turn has moved: what is left to show of it and of the others. -/
theorem LockInv.moved {kv kv' : KvSession} {ms : List (Option LockMemory)} {j : Nat}
    {m m' : LockMemory} (h : LockInv kv ms) (hj : ms[j]? = some (some m))
    (hchain : NoStaleSave kv'.saves) (hlast : ∀ x, kv'.saves.getLast? = some x → kv'.stored = x.state)
    (hdrawn : ∀ t, kv'.lock = some t → t < kv'.drawn) (hown : ThreadInv kv' m')
    (hothers : ∀ (i : Nat) (n : LockMemory), i ≠ j → ms[i]? = some (some n) → ThreadInv kv' n)
    (htoken : ∀ t, m'.token = some t → m.token = some t ∨ t = kv.drawn) :
    LockInv kv' (ms.set j (some m')) := by
  -- a token is the one the turn had before, or it was drawn just now
  have hnew : ∀ (i : Nat) (n : LockMemory) (t : Nat), i ≠ j → ms[i]? = some (some n) →
      n.token = some t → m'.token = some t → False := by
    intro i n t hij hi hn hm'
    rcases htoken t hm' with hold | rfl
    · exact hij (h.distinct i j n m t hi hj hn hold)
    · exact Nat.lt_irrefl _ ((h.threads i n hi).token _ hn)
  refine ⟨hchain, hlast, hdrawn, ?_, ?_⟩
  · intro i n hn
    rcases memory_set hn with ⟨-, rfl⟩ | ⟨hij, hn⟩
    · exact hown
    · exact hothers i n hij hn
  · intro i k n n' t hi hk hn hn'
    rcases memory_set hi with ⟨rfl, rfl⟩ | ⟨hij, hi'⟩
    · rcases memory_set hk with ⟨rfl, -⟩ | ⟨hkj, hk'⟩
      · rfl
      · exact False.elim (hnew k n' t hkj hk' hn' hn)
    · rcases memory_set hk with ⟨rfl, rfl⟩ | ⟨hkj, hk'⟩
      · exact False.elim (hnew i n t hij hi' hn hn')
      · exact h.distinct i k n n' t hi' hk' hn hn'

/-- The log of a turn that may save: its lock is held. -/
theorem held_of_guard {rt : AgentRuntime} {kv : KvSession} {m : LockMemory}
    {state : ConversationState} {r : Except StateError Unit} (hm : ThreadInv kv m)
    (hw : Window (.save state) (kv, m)) (hC : OpeningHeld (.save state) (kv, m))
    (hg : Guard rt m.log ⟨.save state, r⟩) : KvWorld.held (kv, m) = true := by
  obtain ⟨-, -, -, hafter⟩ := hg
  rcases hafter with ⟨h₀, r', heq, hr'⟩ | ⟨h₀, state', heq⟩
  · -- the refresh before it did not fail: the only failure is a lost lock
    refine hw ?_
    cases r' with
    | ok u =>
        rw [justHeld, show m.log = _ from heq, List.getLast?_concat]
    | error e =>
        have he := hm.refreshed e (by rw [heq]; exact List.mem_append_right _ (List.mem_singleton.mpr rfl))
        rw [he] at hr'
        exact absurd rfl hr'
  · refine hC ?_
    rw [justLoaded, show m.log = _ from heq, List.getLast?_concat]

/-- A save that is made under the lock. -/
theorem LockInv.save {kv : KvSession} {ms : List (Option LockMemory)} {j : Nat} {m : LockMemory}
    (h : LockInv kv ms) (hj : ms[j]? = some (some m)) (hheld : KvWorld.held (kv, m) = true)
    (hloaded : Loaded m.log) (state : ConversationState) (r : Except StateError Unit) :
    LockInv { kv with stored := state, saves := kv.saves ++ [⟨m.base, state⟩] }
      (ms.set j (some { m with base := some state, log := m.log ++ [⟨.save state, r⟩] })) := by
  have hm := h.threads j m hj
  obtain ⟨b, hb⟩ := hm.loaded hloaded
  refine h.moved hj ?_ ?_ h.drawn ?_ ?_ (fun t ht => .inl ht)
  · refine h.chain.concat ?_
    intro last hlast
    show m.base = some last.state
    rw [hb, hm.based b hb hheld, h.last last hlast]
  · intro x hx
    rw [List.getLast?_concat] at hx
    cases hx
    rfl
  · have hsnoc := hm.snoc (e := ⟨.save state, r⟩) (fun s h => nomatch h) (fun er h => nomatch h)
    refine ⟨hsnoc.token, ?_, fun _ => ⟨state, rfl⟩, ?_, hsnoc.refreshed⟩
    · intro b' hb' _
      cases hb'
      rfl
    · intro hc
      exact False.elim (hc ⟨.save state, r⟩ (List.mem_append_right _ (List.mem_singleton.mpr rfl)))
  · intro i n hij hn
    refine (h.threads i n hn).frame (Nat.le_refl _) ?_
    intro hheld'
    exact absurd (h.exclusive hn hj hheld' hheld) hij

/-- **ONE OPERATION** of one turn keeps the invariant. -/
theorem LockInv.step {rt : AgentRuntime} {kv kv' : KvSession} {ms : List (Option LockMemory)}
    {j : Nat} {m m' : LockMemory} {ev : Ev} (h : LockInv kv ms) (hj : ms[j]? = some (some m))
    (he : execKv OpeningHeld ev.1 (kv, m) ev.2 (kv', m')) (hg : Guard rt m.log ev) :
    LockInv kv' (ms.set j (some m')) := by
  obtain ⟨kv₁, m₁, hlapse, hwin, hC, hstep, hlog⟩ := he
  have h₁ := h.lapse hlapse
  have hm := h₁.threads j m hj
  -- an operation that leaves the session alone
  have hquiet : ∀ e : Ev, (∀ state, e ≠ ⟨.load, .ok state⟩) →
      (∀ er, e = ⟨.refresh, .error er⟩ → er = .lockLost) →
      LockInv kv₁ (ms.set j (some { m with log := m.log ++ [e] })) := by
    intro e hl hr
    exact h₁.moved hj h₁.chain h₁.last h₁.drawn (hm.snoc hl hr)
      (fun i n _ hn => h₁.threads i n hn) (fun t ht => .inl ht)
  obtain ⟨i, r⟩ := ev
  have hm' : m' = { m₁ with log := m.log ++ [⟨i, r⟩] } := hlog
  subst hm'
  cases i with
  | acquireLock =>
      cases r with
      | error e =>
          obtain ⟨rfl, rfl⟩ := hstep
          exact hquiet _ (fun s h => nomatch h) (fun er h => nomatch h)
      | ok u =>
          obtain ⟨hfree, rfl, rfl⟩ := hstep
          have hbase := hm.fresh hg
          refine h₁.moved hj h₁.chain h₁.last ?_ ?_ ?_ ?_
          · intro t ht
            cases ht
            exact Nat.lt_succ_self _
          · have hsnoc := hm.snoc (e := ⟨.acquireLock, .ok u⟩) (fun s h => nomatch h)
              (fun er h => nomatch h)
            refine ⟨?_, ?_, hsnoc.loaded, hsnoc.fresh, hsnoc.refreshed⟩
            · intro t ht
              cases ht
              exact Nat.lt_succ_self _
            · intro b hb _
              rw [show m.base = some b from hb] at hbase
              exact nomatch hbase
          · intro i n hij hn
            have hn' := h₁.threads i n hn
            refine hn'.frame (Nat.le_succ _) ?_
            intro hheld
            obtain ⟨t, ht, hlock⟩ := held_iff.mp hheld
            cases hlock
            exact absurd (hn'.token _ ht) (Nat.lt_irrefl _)
          · intro t ht
            cases ht
            exact .inr rfl
  | refresh =>
      cases r with
      | error e =>
          obtain ⟨-, rfl, rfl, rfl⟩ := hstep
          refine hquiet _ (fun s h => nomatch h) ?_
          intro er her
          cases her
          rfl
      | ok u =>
          obtain ⟨-, rfl, rfl⟩ := hstep
          exact hquiet _ (fun s h => nomatch h) (fun er h => nomatch h)
  | load =>
      cases r with
      | error e =>
          obtain ⟨rfl, rfl⟩ := hstep
          exact hquiet _ (fun s h => nomatch h) (fun er h => nomatch h)
      | ok state =>
          obtain ⟨hstate, hkv, rfl⟩ := hstep
          have hsame : kv₁ = kv' := hkv.symm
          subst hsame hstate
          refine h₁.moved hj h₁.chain h₁.last h₁.drawn ?_ (fun i n _ hn => h₁.threads i n hn)
            (fun t ht => .inl ht)
          refine ⟨hm.token, ?_, fun _ => ⟨_, rfl⟩, ?_, ?_⟩
          · intro b hb _
            cases hb
            rfl
          · intro hc
            exact False.elim (hc _ (List.mem_append_right _ (List.mem_singleton.mpr rfl)))
          · intro er hmem
            rcases List.mem_append.mp hmem with hmem | hmem
            · exact hm.refreshed er hmem
            · exact nomatch List.mem_singleton.mp hmem
  | save state =>
      rcases hstep with ⟨rfl, rfl⟩ | ⟨rfl, rfl, -⟩
      · exact h₁.save hj (held_of_guard hm hwin hC hg) hg.2.2.1 state r
      · exact hquiet _ (fun s h => nomatch h) (fun er h => nomatch h)
  | release =>
      obtain ⟨hkv, hsame⟩ := hstep
      have hm₁ : m = m₁ := hsame.symm
      subst hm₁
      by_cases hheld : KvWorld.held (kv₁, m) = true
      · rw [if_pos hheld] at hkv
        have hfreed : LockInv kv' ms := h₁.lapse (.inr hkv)
        exact hfreed.moved hj hfreed.chain hfreed.last hfreed.drawn
          ((hfreed.threads j m hj).snoc (fun s h => nomatch h) (fun er h => nomatch h))
          (fun i n _ hn => hfreed.threads i n hn) (fun t ht => .inl ht)
      · rw [if_neg hheld] at hkv
        subst hkv
        exact hquiet _ (fun s h => nomatch h) (fun er h => nomatch h)
  | _ =>
      obtain ⟨rfl, rfl⟩ := hstep
      exact hquiet _ (fun s h => nomatch h) (fun er h => nomatch h)

theorem KvTurning.traced {rt : AgentRuntime} {tenant : TenantContext} {sessionId : String}
    (m : LockMemory) (p : TurnThread) (hn : KvTurning rt tenant sessionId (m, p)) :
    ∃ q, p = Main.lift q ∧ q.Traced (Guard rt) TurnPost m.log := by
  cases hn with
  | intro agentId message => exact ⟨_, rfl, runStep_traced rt tenant sessionId agentId message⟩

/-- **NO STALE SAVE** in any interleaving in which every opening message is saved under the
    lock: every save was made on top of the save before it. -/
theorem no_stale_save {rt : AgentRuntime} {tenant : TenantContext} {sessionId : String}
    {state : ConversationState} {c : KvSystem}
    (hr : Pool.Reach (execKv OpeningHeld) (KvTurning rt tenant sessionId) ⟨.of state, []⟩ c) :
    NoStaleSave c.store.saves := by
  have hinv : LockInv c.store c.memories := by
    refine Pool.Reach.traced (f := LockMemory.log) ?_ KvTurning.traced ?_ ?_ ?_ ?_ hr
    · rintro i s r s' ⟨kv, m, -, -, -, -, hlog⟩
      rw [hlog]
    · rintro st ms m p hi ⟨agentId, message⟩
      have hfresh : ThreadInv st .fresh := by
        refine ⟨(fun t ht => nomatch ht), (fun b hb => nomatch hb), ?_, (fun _ => rfl),
          (fun e he => nomatch he)⟩
        rintro ⟨state, hmem⟩
        exact nomatch hmem
      refine ⟨hi.chain, hi.last, hi.drawn, ?_, ?_⟩
      · intro i m hm
        rcases memory_spawned hm with hm | ⟨-, rfl⟩
        · exact hi.threads i m hm
        · exact hfresh
      · intro i k m n t hm hn htm htn
        rcases memory_spawned hm with hm | ⟨-, rfl⟩
        · rcases memory_spawned hn with hn | ⟨-, rfl⟩
          · exact hi.distinct i k m n t hm hn htm htn
          · exact nomatch htn
        · exact nomatch htm
    · intro st ms j m ev st' m' hi hj he hg
      exact hi.step hj he hg
    · intro st ms j hi
      refine ⟨hi.chain, hi.last, hi.drawn, ?_, ?_⟩
      · intro i m hm
        exact hi.threads i m (memory_killed hm)
      · intro i k m n t hm hn
        exact hi.distinct i k m n t (memory_killed hm) (memory_killed hn)
    · refine ⟨?_, ?_, ?_, ?_, ?_⟩
      · intro pre x post last heq
        exact absurd heq.symm (List.append_ne_nil_of_right_ne_nil _ (List.cons_ne_nil _ _))
      · intro x hx
        exact nomatch hx
      · intro t ht
        exact nomatch ht
      · intro i m hm
        exact nomatch hm
      · intro i k m n t hm
        exact nomatch hm
  exact hinv.chain

/-! ## An opening message -/

/-- A handler over the key-value store; when `lapse` is set the lock expires before it is
    taken. -/
def kvAnswering (a : (i : Op) → i.Res) (lapse : Bool) : Handler Op Op.Res KvWorld
  | .acquireLock, (kv, m) =>
      let kv := if lapse then { kv with lock := none } else kv
      match kv.lock with
      | none => (.ok (), ({ kv with lock := some kv.drawn, drawn := kv.drawn + 1 },
          ⟨some kv.drawn, m.base, m.log ++ [⟨.acquireLock, .ok ()⟩]⟩))
      | some _ => (.error (.lockTimeout 0),
          (kv, ⟨m.token, m.base, m.log ++ [⟨.acquireLock, .error (.lockTimeout 0)⟩]⟩))
  | .refresh, (kv, m) =>
      if KvWorld.held (kv, m) then
        (.ok (), (kv, ⟨m.token, m.base, m.log ++ [⟨.refresh, .ok ()⟩]⟩))
      else (.error .lockLost, (kv, ⟨m.token, m.base, m.log ++ [⟨.refresh, .error .lockLost⟩]⟩))
  | .load, (kv, m) =>
      (.ok kv.stored, (kv, ⟨m.token, some kv.stored, m.log ++ [⟨.load, .ok kv.stored⟩]⟩))
  | .save state, (kv, m) =>
      (.ok (), ({ kv with stored := state, saves := kv.saves ++ [⟨m.base, state⟩] },
        ⟨m.token, some state, m.log ++ [⟨.save state, .ok ()⟩]⟩))
  | .release, (kv, m) =>
      ((), (if KvWorld.held (kv, m) then { kv with lock := none } else kv,
        ⟨m.token, m.base, m.log ++ [⟨.release, ()⟩]⟩))
  | i, (kv, m) => (a i, (kv, ⟨m.token, m.base, m.log ++ [⟨i, a i⟩]⟩))

theorem kvAnswering_exec {C : Op → KvWorld → Prop} (hacq : ∀ s, C .acquireLock s)
    (a : (i : Op) → i.Res) (lapse : Bool) (i : Op) (s : KvWorld) (hw : Window i s) (hC : C i s) :
    execKv C i s (kvAnswering a lapse i s).1 (kvAnswering a lapse i s).2 := by
  obtain ⟨kv, m⟩ := s
  cases i with
  | acquireLock =>
      have hlapse : Lapses kv (if lapse then { kv with lock := none } else kv) := by
        cases lapse
        · exact .inl rfl
        · exact .inr rfl
      cases hlock : (if lapse then { kv with lock := none } else kv).lock with
      | none =>
          simp only [kvAnswering, hlock]
          exact ⟨_, _, hlapse, trivial, hacq _, ⟨hlock, rfl, rfl⟩, rfl⟩
      | some t =>
          simp only [kvAnswering, hlock]
          exact ⟨_, _, hlapse, trivial, hacq _, ⟨rfl, rfl⟩, rfl⟩
  | refresh =>
      cases hheld : KvWorld.held (kv, m) with
      | true =>
          simp only [kvAnswering, hheld, if_true]
          exact ⟨kv, _, .inl rfl, trivial, hC, ⟨hheld, rfl, rfl⟩, rfl⟩
      | false =>
          simp only [kvAnswering, hheld, Bool.false_eq_true, if_false]
          exact ⟨kv, _, .inl rfl, trivial, hC, ⟨hheld, rfl, rfl, rfl⟩, rfl⟩
  | load => exact ⟨kv, _, .inl rfl, hw, hC, ⟨rfl, rfl, rfl⟩, rfl⟩
  | save state => exact ⟨kv, _, .inl rfl, hw, hC, .inl ⟨rfl, rfl⟩, rfl⟩
  | release => exact ⟨kv, _, .inl rfl, hw, hC, ⟨rfl, rfl⟩, rfl⟩
  | _ => exact ⟨kv, _, .inl rfl, hw, hC, ⟨rfl, rfl⟩, rfl⟩

/-- The lock is held where `Window` asks for it, as a test. -/
def inWindow (i : Op) (s : KvWorld) : Bool :=
  match i with
  | .load => !justHeld s.2.log || s.held
  | .save _ => !justHeld s.2.log || s.held
  | _ => true

/-- The lock is held where `OpeningHeld` asks for it, as a test. -/
def openingHeld (i : Op) (s : KvWorld) : Bool :=
  match i with
  | .save _ => !justLoaded s.2.log || s.held
  | _ => true

theorem window_of_test {i : Op} {s : KvWorld} (h : inWindow i s = true) : Window i s := by
  cases i with
  | load => intro hj; rw [inWindow, hj] at h; exact h
  | save state => intro hj; rw [inWindow, hj] at h; exact h
  | _ => exact trivial

theorem openingHeld_of_test {i : Op} {s : KvWorld} (h : openingHeld i s = true) :
    OpeningHeld i s := by
  cases i with
  | save state => intro hj; rw [openingHeld, hj] at h; exact h
  | _ => exact trivial

/-- One turn of a session moves on by `n` operations. -/
def kvPlay (a : (i : Op) → i.Res) (lapse : Bool) (n : Nat) (c : TurnThread × KvWorld) :
    TurnThread × KvWorld :=
  play (List.replicate n (0, kvAnswering a lapse)) c

/-- The turns of the session `chat` that meet `C`. -/
abbrev ChatReach (C : Op → KvWorld → Prop) (c : KvSystem) : Prop :=
  Pool.Reach (execKv C) (KvTurning (plainRuntime fun _ => []) ⟨"demo", "prod"⟩ "chat")
    ⟨.of .empty, []⟩ c

theorem ChatReach.play {C : Op → KvWorld → Prop} (hacq : ∀ s, C .acquireLock s)
    {test : Op → KvWorld → Bool} (htest : ∀ i s, test i s = true → Window i s ∧ C i s)
    {st : KvSession} {ts : List (Option (LockMemory × TurnThread))} (h : ChatReach C ⟨st, ts⟩)
    (j : Nat) {m : LockMemory} {p : TurnThread} (hj : ts[j]? = some (some (m, p)))
    (a : (i : Op) → i.Res) (lapse : Bool) (n : Nat)
    (ht : playMeets? test (List.replicate n (0, kvAnswering a lapse)) (p, (st, m)) = true) :
    ChatReach C ⟨(kvPlay a lapse n (p, (st, m))).2.1, ts.set j
      (some ((kvPlay a lapse n (p, (st, m))).2.2, (kvPlay a lapse n (p, (st, m))).1))⟩ := by
  have hsound : ∀ x ∈ List.replicate n (0, kvAnswering a lapse), ∀ i s, True →
      (Window i s ∧ C i s) → execKv C i s (x.2 i s).1 (x.2 i s).2 ∧ True := by
    intro x hx i s _ hC
    rw [List.eq_of_mem_replicate hx]
    exact ⟨kvAnswering_exec hacq a lapse i s hC.1 hC.2, trivial⟩
  obtain ⟨es, hrun⟩ := play_run _ hsound p (st, m) trivial (playMeets_of_test htest _ _ ht)
  exact h.run hj hrun

/-- An agent with an opening message. -/
def greeter : AgentConfig :=
  { oneTool ⟨"crm", "find"⟩ [] with openingMessage := some "welcome" }

/-- The answers to it. -/
def greeterAnswers : (i : Op) → i.Res :=
  granting greeter (fun _ => .response ⟨some "hello", [], 0, 0⟩) (fun _ => .accept) none none

/-- A turn of the session `chat`, as a thread. -/
def chatThread (text : String) : TurnThread := Main.lift (chatStep (plainInput text))

theorem chatThread_turning (text : String) :
    KvTurning (plainRuntime fun _ => []) ⟨"demo", "prod"⟩ "chat" (.fresh, chatThread text) :=
  .intro "desk" (plainInput text)

/-- How many messages each save had below it and holds. -/
def sizes (saves : List Saved) : List (Option Nat × Nat) :=
  saves.map fun x => (x.base.map (·.messages.length), x.state.messages.length)

theorem NoStaleSave.sizes {saves : List Saved} (h : NoStaleSave saves) {a c : Option Nat}
    {b d : Nat} (hs : sizes saves = [(a, b), (c, d)]) : c = some b := by
  match saves, hs with
  | [x, y], hs =>
      have hbase := h [x] y [] x rfl rfl
      simp only [Aw.sizes, List.map_cons, List.map_nil, hbase] at hs
      cases hs
      rfl

/-- The opening turn before its save. -/
def openingLoaded : TurnThread × KvWorld :=
  kvPlay greeterAnswers false 4 (chatThread "", (.of .empty, .fresh))

/-- A turn that takes the expired lock and ends. -/
def answeredMeanwhile : TurnThread × KvWorld :=
  kvPlay greeterAnswers true 16 (chatThread "hi", (openingLoaded.2.1, .fresh))

/-- The opening turn goes on. -/
def overwritten : TurnThread × KvWorld :=
  kvPlay greeterAnswers false 2 (openingLoaded.1, (answeredMeanwhile.2.1, openingLoaded.2.2))

/-- **AN OPENING MESSAGE OVERWRITES A CONVERSATION**: its turn loads the empty session, the
    lock expires, another turn runs to its end, and the opening message is saved. -/
theorem opening_overwrites : ∃ c : KvSystem, ChatReach (fun _ _ => True) c ∧
    ¬ NoStaleSave c.store.saves := by
  have htest : ∀ i s, inWindow i s = true → Window i s ∧ True :=
    fun i s h => ⟨window_of_test h, trivial⟩
  have h0 : ChatReach (fun _ _ => True) ⟨.of .empty, [some (.fresh, chatThread "")]⟩ :=
    Pool.Reach.refl.spawned (chatThread_turning "")
  have h1 := ChatReach.play (fun _ => trivial) htest h0 0 rfl greeterAnswers false 4
    (by decide +kernel)
  have h2 := ChatReach.play (fun _ => trivial) htest (h1.spawned (chatThread_turning "hi")) 1 rfl
    greeterAnswers true 16 (by decide +kernel)
  have h3 := ChatReach.play (fun _ => trivial) htest h2 0 rfl greeterAnswers false 2
    (by decide +kernel)
  refine ⟨_, h3, ?_⟩
  intro hstale
  have hsizes : sizes overwritten.2.1.saves = [(some 0, 2), (some 0, 1)] := by decide +kernel
  exact absurd (hstale.sizes hsizes) (by decide)

/-- The opening turn runs to its end. -/
def openingSaved : TurnThread × KvWorld :=
  kvPlay greeterAnswers false 6 (chatThread "", (.of .empty, .fresh))

/-- The turn after it. -/
def answeredAfter : TurnThread × KvWorld :=
  kvPlay greeterAnswers false 16 (chatThread "hi", (openingSaved.2.1, .fresh))

/-- One turn after the other: the second saves on top of the first. -/
theorem opening_then_answer : ∃ c : KvSystem, ChatReach OpeningHeld c ∧
    sizes c.store.saves = [(some 0, 1), (some 1, 3)] ∧ NoStaleSave c.store.saves := by
  have hacq : ∀ s, OpeningHeld .acquireLock s := fun _ => trivial
  have htest : ∀ i s, (inWindow i s && openingHeld i s) = true → Window i s ∧ OpeningHeld i s := by
    intro i s h
    obtain ⟨h1, h2⟩ := Bool.and_eq_true_iff.mp h
    exact ⟨window_of_test h1, openingHeld_of_test h2⟩
  have h0 : ChatReach OpeningHeld ⟨.of .empty, [some (.fresh, chatThread "")]⟩ :=
    Pool.Reach.refl.spawned (chatThread_turning "")
  have h1 := ChatReach.play hacq htest h0 0 rfl greeterAnswers false 6 (by decide +kernel)
  have h2 := ChatReach.play hacq htest (h1.spawned (chatThread_turning "hi")) 1 rfl
    greeterAnswers false 16 (by decide +kernel)
  have hsizes : sizes answeredAfter.2.1.saves = [(some 0, 1), (some 1, 3)] := by decide +kernel
  exact ⟨_, h2, hsizes, no_stale_save h2⟩

end Greentic.Aw
