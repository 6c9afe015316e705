import GreenticRunner.GraphTrunkProofs

/-! # Any number of calls on one run

    `start` and `resume` calls arrive, run and die at any moment over one store;
    the `Pool` of the resumption library interleaves their operations.  A `Setup`
    that serves the calls carries its guarantees to every reachable system.

    * `Setup.reach` — the store invariant and every call's guarantee, in every
      reachable system;
    * `Setup.reach_history` — what the operations of a call preserve. -/

namespace Greentic

open FinMaps CountedPath Resumption

/-- All calls on one run over one store. -/
abbrev System : Type :=
  Pool RunStore CallMemory Op Op.Res GraphExecError BranchOutcome GraphRunOutcome

/-- A call that may be made on the run: `resume`, or `start` with one of the given
    graphs and texts. -/
inductive Call (run : RunRef) (starts : GraphConfig → String → Prop) :
    CallMemory × Drive GraphRunOutcome → Prop where
  | resume : Call run starts (.fresh, resume run)
  | start (cfg : GraphConfig) (text : String) (h : starts cfg text) :
      Call run starts (.fresh, start run cfg text)

theorem Call.memory {run : RunRef} {starts : GraphConfig → String → Prop} {m : CallMemory}
    {p : Drive GraphRunOutcome} (h : Call run starts (m, p)) : m = .fresh := by
  cases h <;> rfl

/-- Any number of calls over one store, with any track. -/
def sharedSetup {run : RunRef} {cfg : GraphConfig} (hcfg : cfg.Accepted) {C : Closures}
    (T : Track run cfg C) : Setup where
  run := run
  cfg := cfg
  accepted := hcfg
  C := C
  T := T
  solo := False
  tight := False
  step := exec run C
  sub := fun _ _ _ _ h => h
  tight_step := fun h => h.elim

namespace Setup

variable {S : Setup} {starts : GraphConfig → String → Prop}

/-- The calls a setup speaks about. -/
structure Serves (S : Setup) (starts : GraphConfig → String → Prop) : Prop where
  tracked : S.T.Tracked
  starts : ∀ cfg text, starts cfg text → S.T.Present ∨ (cfg = S.cfg ∧ S.T.Start text)

/-- **ONE CALL** keeps its guarantee whatever the others do. -/
theorem call_sat (hS : S.Serves starts) {st : RunStore} (hst : StoreOk S.T st) {m : CallMemory}
    {p : Drive GraphRunOutcome} (h : Call S.run starts (m, p)) :
    p.Sat S.worldRely S.step S.Told S.Settles S.CallVerdict (st, m) := by
  cases h with
  | resume => exact Main.Sat.mono (fun _ _ => Or.inl) (resume_sat hS.tracked hst)
  | start cfg text h => exact start_sat hS.tracked (hS.starts _ _ h) hst

/-- What a call is told is what the others rely on. -/
theorem told_rely (hshared : ¬ S.solo) (s : World) (ev : Event Op Op.Res) (s' : World)
    (_ : StoreOk S.T s.1) (h : S.Told s ev s') : StoreOk S.T s'.1 ∧ S.rely s.1 s'.1 :=
  ⟨h.store, h.grows, fun _ => h.store, fun hs => absurd hs hshared⟩

/-- The guarantees of all calls of a system. -/
def SystemOk (S : Setup) (c : System) : Prop :=
  Pool.Sat (StoreOk S.T) S.rely S.step S.Told S.Settles S.CallVerdict c

theorem systemOk_idle {st : RunStore} (hst : StoreOk S.T st) : S.SystemOk ⟨st, []⟩ :=
  ⟨hst, fun _ _ _ hj => (nomatch hj)⟩

/-- **EVERY REACHABLE SYSTEM** keeps the store invariant and the guarantees. -/
theorem reach (hS : S.Serves starts) (hshared : ¬ S.solo) {c d : System} (hc : S.SystemOk c)
    (hr : Pool.Reach S.step (Call S.run starts) c d) :
    S.SystemOk d ∧ S.rely c.store d.store :=
  Pool.Reach.sat rely_refl (fun _ _ _ => rely_trans) (told_rely hshared)
    (fun _ _ _ hst h => call_sat hS hst h) hc hr

/-- The result of a call. -/
theorem SystemOk.outcome {c : System} (h : S.SystemOk c) {j : Nat} {m : CallMemory}
    {p : Drive GraphRunOutcome} (hj : c.threads[j]? = some (some (m, p)))
    {r : Except GraphExecError GraphRunOutcome} (hr : p.outcome? = some r) :
    S.CallVerdict (c.store, m) r :=
  (h.2 j m p hj).result worldRely_refl hr

/-- The result of a branch. -/
theorem SystemOk.worker {c : System} (h : S.SystemOk c) {j : Nat} {m : CallMemory}
    {ws : List (Exec BranchOutcome)}
    {k : List (Except GraphExecError BranchOutcome) → Drive GraphRunOutcome}
    (hj : c.threads[j]? = some (some (m, .fork ws k))) {i : Nat} {w : Exec BranchOutcome}
    (hi : ws[i]? = some w) {r : Except GraphExecError BranchOutcome}
    (hr : w.outcome? = some r) : S.Settles (c.store, m) r :=
  (h.2 j m _ hj).worker hi hr

/-- What every operation and the growth of the ledger preserve, holds for every
    call of a reachable system. -/
theorem reach_history (hS : S.Serves starts) (hshared : ¬ S.solo) {I : World → Prop}
    (hInew : ∀ st, I (st, .fresh))
    (hI : ∀ s ev s', I s → S.step ev.1 s ev.2 s' → S.Told s ev s' → I s')
    (hIrely : ∀ a b m, S.rely a b → I (a, m) → I (b, m)) {c d : System} (hc : S.SystemOk c)
    (hidle : c.threads = []) (hr : Pool.Reach S.step (Call S.run starts) c d) {j : Nat}
    {m : CallMemory} {p : Drive GraphRunOutcome} (hj : d.threads[j]? = some (some (m, p))) :
    I (d.store, m) := by
  refine Pool.Reach.preserves rely_refl (fun _ _ _ => rely_trans) (told_rely hshared)
    (fun _ _ _ hst h => call_sat hS hst h) ?_ hI hIrely hc ?_ hr j m p hj
  · intro st m p h
    rw [h.memory]
    exact hInew st
  · intro j m p hj
    rw [hidle] at hj
    exact nomatch hj

end Setup

end Greentic
