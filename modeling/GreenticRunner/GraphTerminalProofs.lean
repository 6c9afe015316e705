import GreenticRunner.GraphDuplicateProofs

/-! # Terminal records

    `save` overwrites the record of a run, and a call reads the status only when it LOADS the record.  A
    call that meets a terminal status there, or writes one, performs nothing more; a call that loaded the
    record before goes on.

    * `drive_settles`, `driveFromRecord_settles` — the trunk stops at such an event;
    * `terminal_absorbing` — a terminal record stays, among the calls that load it from then on;
    * `lagging_resume_overwrites` — a call that loaded the record before overwrites it. -/

namespace Greentic

open FinMaps Resumption

/-- A call finds a terminal record, or writes one. -/
def seesTerminal : Event Op Op.Res → Prop
  | ⟨.load, some rec⟩ => rec.status.terminal = true
  | ⟨.save rec, _⟩ => rec.status.terminal = true
  | _ => False

/-! ## Branches write no terminal record -/

theorem visitEffect_unmarked (nodeId : String) (attempt : Nat) {invoke : Exec Json}
    (h : invoke.Unmarked seesTerminal) : (visitEffect nodeId attempt invoke).Unmarked seesTerminal := by
  intro r
  refine ⟨id, ?_⟩
  cases r with
  | some cached => exact trivial
  | none =>
      show (invoke >>= fun value => _ : Exec (Json × Bool)).Unmarked seesTerminal
      refine Prog.Unmarked.bind ?_ h
      intro value r
      refine ⟨id, ?_⟩
      cases r with
      | error e => exact trivial
      | ok o =>
          cases o with
          | recorded => exact trivial
          | replayed stored => exact trivial

/-- A computed result that is returned. -/
theorem ofExcept_unmarked {α β : Type} (x : Except GraphExecError α) (f : α → β) :
    (Prog.ofExcept x >>= fun a => .ret (f a) : Exec β).Unmarked seesTerminal := by
  cases x with
  | error e => exact trivial
  | ok a => exact trivial

theorem visitAgent_unmarked (cfg : GraphConfig) (label : Option String) (pt : Point)
    (systemPrompt model : String) (tools : List String) (provider agentRef inheritFrom : Option String) :
    (visitAgent cfg label pt systemPrompt model tools provider agentRef inheritFrom).Unmarked
      seesTerminal := by
  refine Prog.Unmarked.bind (fun x => ofExcept_unmarked _ _) (visitEffect_unmarked _ _ fun r => ⟨id, ?_⟩)
  cases r with
  | error e => exact trivial
  | ok v => exact trivial

theorem visitTool_unmarked (cfg : GraphConfig) (label : Option String) (pt : Point) (toolName : String) :
    (visitTool cfg label pt toolName).Unmarked seesTerminal := by
  refine Prog.Unmarked.bind (fun x => ofExcept_unmarked _ _) (visitEffect_unmarked _ _ fun r => ⟨id, ?_⟩)
  cases r with
  | error e => exact trivial
  | ok v => exact trivial

theorem visitRouter_unmarked (cfg : GraphConfig) (label : Option String) (pt : Point) :
    (visitRouter cfg label pt).Unmarked seesTerminal :=
  ofExcept_unmarked _ _

theorem visitSupervisor_unmarked (cfg : GraphConfig) (label : Option String) (pt : Point)
    (systemPrompt model : String) (routes : List SupervisorRoute) (provider agentRef : Option String) :
    (visitSupervisor cfg label pt systemPrompt model routes provider agentRef).Unmarked seesTerminal := by
  refine Prog.Unmarked.bind (fun x => ofExcept_unmarked _ _) (visitEffect_unmarked _ _ fun r => ⟨id, ?_⟩)
  cases r with
  | error e => exact trivial
  | ok v => exact trivial

/-- A branch saves its slot in a running record, and goes on or not. -/
theorem saveSlot_unmarked {coord : FrontierCheckpoint} {slot : Nat} {bc : BranchCursor}
    {k : Except CheckpointError Unit → Exec BranchOutcome}
    (herr : ∀ c, k (.error c) = .fail (.checkpoint c)) (hok : (k (.ok ())).Unmarked seesTerminal) :
    (Prog.call (.saveSlot coord slot bc) k).Unmarked seesTerminal := by
  intro r
  refine ⟨id, ?_⟩
  cases r with
  | error c =>
      rw [herr]
      exact trivial
  | ok u => exact hok

/-- **No branch writes a terminal record.** -/
theorem driveBranch_unmarked (run : RunRef) (cfg : GraphConfig) (joinId : String) (slot : Nat)
    (label : String) (coord : FrontierCheckpoint) (fuel : Nat) (pt : Point) (trail : List Json) :
    (driveBranch run cfg joinId slot label coord fuel pt trail).Unmarked seesTerminal := by
  induction fuel generalizing pt trail with
  | zero =>
      unfold driveBranch
      by_cases hJ : pt.cursor = joinId
      · rw [if_pos hJ]
        exact saveSlot_unmarked (fun _ => rfl) trivial
      · rw [if_neg hJ]
        intro total
        refine ⟨id, ?_⟩
        show Prog.Unmarked _ (if total > maxNodeVisits then _ else _)
        split
        · exact trivial
        · exact trivial
  | succ fuel ih =>
      unfold driveBranch
      by_cases hJ : pt.cursor = joinId
      · rw [if_pos hJ]
        exact saveSlot_unmarked (fun _ => rfl) trivial
      · rw [if_neg hJ]
        intro total
        refine ⟨id, ?_⟩
        show Prog.Unmarked _ (if total > maxNodeVisits then _ else _)
        by_cases htotal : total > maxNodeVisits
        · rw [if_pos htotal]
          exact trivial
        · rw [if_neg htotal]
          cases cfg.graph.node pt.cursor with
          | none => exact trivial
          | some node =>
              intro u
              refine ⟨id, ?_⟩
              have hafter : ∀ {p : Exec (Point × Json)}, p.Unmarked seesTerminal →
                  ∀ {f : Point × Json → Exec BranchOutcome}, (∀ pt' entry, ∃ k,
                    f (pt', entry) = .call
                      (.saveSlot coord slot ⟨label, pt'.cursor, pt'.state, false, pt'.visits⟩) k ∧
                    (∀ c, k (.error c) = .fail (.checkpoint c)) ∧
                    k (.ok ()) = .call (.recordBranchVisits pt'.visits) fun _ =>
                      driveBranch run cfg joinId slot label coord fuel pt' (trail ++ [entry])) →
                  (p >>= f).Unmarked seesTerminal := by
                intro p hp f hf
                refine Prog.Unmarked.bind ?_ hp
                rintro ⟨pt', entry⟩
                obtain ⟨k, hk, herr, hok⟩ := hf pt' entry
                rw [hk]
                refine saveSlot_unmarked herr ?_
                rw [hok]
                exact fun _ => ⟨id, ih _ _⟩
              cases node.kind with
              | agent _ _ _ _ _ _ =>
                  exact hafter (visitAgent_unmarked cfg _ pt _ _ _ _ _ _) fun _ _ => ⟨_, rfl, fun _ => rfl, rfl⟩
              | tool _ =>
                  exact hafter (visitTool_unmarked cfg _ pt _) fun _ _ => ⟨_, rfl, fun _ => rfl, rfl⟩
              | router _ =>
                  exact hafter (visitRouter_unmarked cfg _ pt) fun _ _ => ⟨_, rfl, fun _ => rfl, rfl⟩
              | supervisor _ _ _ _ _ =>
                  exact hafter (visitSupervisor_unmarked cfg _ pt _ _ _ _ _) fun _ _ => ⟨_, rfl, fun _ => rfl, rfl⟩
              | respond => exact trivial
              | parallel => exact trivial
              | join => exact trivial
              | approval _ _ _ _ _ => exact trivial

/-! ## The trunk -/

/-- A record that is not terminal is saved, and the call goes on or not. -/
theorem saveRecord_fails {rec : GraphRunRecord} (h : rec.status.terminal = false) :
    (saveRecord rec).FailsAfter seesTerminal := by
  intro r
  constructor
  · intro hm
    exact absurd (show rec.status.terminal = true from hm) (by rw [h]; decide)
  · cases r with
    | error e => exact trivial
    | ok u => exact trivial

theorem saveThen_fails {α : Type} {rec : GraphRunRecord} (h : rec.status.terminal = false)
    {f : Unit → Drive α} (hf : ∀ u, (f u).FailsAfter seesTerminal) :
    (saveRecord rec >>= f).FailsAfter seesTerminal :=
  Main.FailsAfter.bind hf (saveRecord_fails h)

theorem saveThen_settles {rec : GraphRunRecord} (h : rec.status.terminal = false)
    {f : Unit → Drive GraphRunOutcome} (hf : ∀ u, (f u).SettlesAfter seesTerminal) :
    (saveRecord rec >>= f).SettlesAfter seesTerminal :=
  Main.FailsAfter.settles hf (saveRecord_fails h)

/-- A call that saves a terminal record and fails. -/
theorem saveThenFail_fails {α : Type} (rec : GraphRunRecord) (e : GraphExecError) :
    (saveRecord rec >>= fun _ => .fail e : Drive α).FailsAfter seesTerminal := by
  intro r
  cases r with
  | error c => exact ⟨fun _ => ⟨_, rfl⟩, trivial⟩
  | ok u => exact ⟨fun _ => ⟨_, rfl⟩, trivial⟩

theorem mergeFrontier_fails (run : RunRef) (cfg : GraphConfig) (joinId : String) (trunk : Point)
    (trail : List Json) (visits : Visits) :
    (mergeFrontier run cfg joinId trunk trail visits).FailsAfter seesTerminal := by
  intro frontier
  refine ⟨fun h => h.elim, fun collected => ⟨fun h => h.elim, ?_⟩⟩
  show (Main.bind (Main.ofExcept (nextLinear cfg joinId)) _).FailsAfter seesTerminal
  cases nextLinear cfg joinId with
  | error e => exact trivial
  | ok next => exact saveThen_fails rfl fun _ => trivial

/-- The one terminal record of a region is written once its branches have settled. -/
theorem settleFrontier_fails (run : RunRef) (cfg : GraphConfig) (joinId : String) (trunk : Point)
    (results : List (Except GraphExecError BranchOutcome)) :
    (settleFrontier run cfg joinId trunk results).FailsAfter seesTerminal := by
  unfold settleFrontier
  split
  next =>
    intro frontier
    exact ⟨fun h => h.elim, saveThenFail_fails _ _⟩
  next => exact trivial
  next => exact mergeFrontier_fails run cfg joinId trunk _ _

theorem driveFrontier_fails (run : RunRef) (cfg : GraphConfig) (joinId : String) (trunk : Point)
    (frontier : List BranchCursor) (persist : Bool) :
    (driveFrontier run cfg joinId trunk frontier persist).FailsAfter seesTerminal := by
  have hrest : ∀ n, (Main.perform (Op.seedVisits n) >>= fun _ =>
      Main.joinAll (branchPrograms run cfg joinId (frontierCoord run cfg trunk) frontier) >>=
        settleFrontier run cfg joinId trunk : Drive (Point × List Json)).FailsAfter seesTerminal := by
    intro n u
    refine ⟨fun h => h.elim, ?_, fun rs => settleFrontier_fails ..⟩
    intro w hw
    obtain ⟨x, -, rfl⟩ := List.mem_map.mp hw
    exact driveBranch_unmarked ..
  intro u
  refine ⟨fun h => h.elim, ?_⟩
  cases persist with
  | false => exact hrest _
  | true =>
      intro r
      refine ⟨fun h => h.elim, ?_⟩
      cases r with
      | error c => exact trivial
      | ok u => exact hrest _

/-- A node of the trunk, its checkpoint, and the rest of the trunk. -/
theorem visitArm_settles {p : Exec (Point × Json)} (hp : p.Unmarked seesTerminal)
    {rest : Point → Json → Drive GraphRunOutcome}
    (hrest : ∀ pt entry, (rest pt entry).SettlesAfter seesTerminal)
    {f : Point × Json → Drive GraphRunOutcome}
    (hf : ∀ pt entry, ∃ rec : GraphRunRecord, rec.status = .running ∧
      f (pt, entry) = (saveRecord rec >>= fun _ => rest pt entry)) :
    (Main.lift p >>= f).SettlesAfter seesTerminal := by
  refine Main.FailsAfter.settles ?_ hp.lift
  rintro ⟨pt, entry⟩
  obtain ⟨rec, hrun, heq⟩ := hf pt entry
  rw [heq]
  refine saveThen_settles ?_ fun _ => hrest pt entry
  rw [hrun]
  rfl

/-- **The trunk stops at a terminal record.** -/
theorem drive_settles (run : RunRef) (cfg : GraphConfig) (fuel : Nat) (pt : Point) (trail : List Json) :
    (drive run cfg fuel pt trail).SettlesAfter seesTerminal := by
  induction fuel generalizing pt trail with
  | zero =>
      intro r
      cases r with
      | error c => exact ⟨fun _ => rfl, trivial⟩
      | ok u => exact ⟨fun _ => rfl, trivial⟩
  | succ fuel ih =>
      have hrest : ∀ pt' entry, (drive run cfg fuel pt' (trail ++ [entry])).SettlesAfter seesTerminal :=
        fun pt' entry => ih pt' (trail ++ [entry])
      unfold drive
      cases cfg.graph.node pt.cursor with
      | none => exact trivial
      | some node =>
          intro u
          refine ⟨fun h => h.elim, ?_⟩
          cases node.kind with
          | agent _ _ _ _ _ _ =>
              exact visitArm_settles (visitAgent_unmarked cfg none pt _ _ _ _ _ _) hrest
                fun _ _ => ⟨_, rfl, rfl⟩
          | tool _ =>
              exact visitArm_settles (visitTool_unmarked cfg none pt _) hrest
                fun _ _ => ⟨_, rfl, rfl⟩
          | router _ =>
              exact visitArm_settles (visitRouter_unmarked cfg none pt) hrest
                fun _ _ => ⟨_, rfl, rfl⟩
          | supervisor _ _ _ _ _ =>
              exact visitArm_settles (visitSupervisor_unmarked cfg none pt _ _ _ _ _) hrest
                fun _ _ => ⟨_, rfl, rfl⟩
          | respond =>
              intro r
              cases r with
              | error c => exact ⟨fun _ => rfl, trivial⟩
              | ok u => exact ⟨fun _ => rfl, trivial⟩
          | parallel =>
              have hregion : (runParallelRegion run cfg pt).FailsAfter seesTerminal := by
                unfold runParallelRegion
                cases findJoinForParallel cfg pt.cursor with
                | error e => exact trivial
                | ok joinId => exact driveFrontier_fails run cfg joinId pt _ true
              exact Main.FailsAfter.settles (fun x => ih x.1 (trail ++ x.2)) hregion
          | join =>
              show (Main.bind (Main.ofExcept (nextLinear cfg pt.cursor)) _).SettlesAfter seesTerminal
              cases nextLinear cfg pt.cursor with
              | error e => exact trivial
              | ok next => exact ih _ _
          | approval title mode risk confidence deadline =>
              intro r
              refine ⟨fun h => h.elim, ?_⟩
              cases r with
              | error e => exact trivial
              | ok outcome =>
                  cases outcome with
                  | awaiting => exact saveThen_settles rfl fun _ => trivial
                  | decided branch =>
                      dsimp only [Main.bind]
                      cases cfg.graph.branchTarget pt.cursor branch with
                      | none => exact trivial
                      | some nextCursor =>
                        intro r
                        refine ⟨fun h => h.elim, ?_⟩
                        cases r with
                        | error c => exact trivial
                        | ok o =>
                            show (Main.bind
                              (Main.ofExcept (resolveDecision cfg pt.cursor branch nextCursor o))
                              _).SettlesAfter seesTerminal
                            cases resolveDecision cfg pt.cursor branch nextCursor o with
                            | error e => exact trivial
                            | ok x => exact saveThen_settles rfl fun _ => ih _ _

theorem driveFromRecord_settles (run : RunRef) (rec : GraphRunRecord) :
    (driveFromRecord run rec).SettlesAfter seesTerminal := by
  unfold driveFromRecord
  cases rec.graph.fromJson with
  | error e => exact trivial
  | ok cfg =>
      cases hf : rec.frontier with
      | none => exact drive_settles run cfg _ _ _
      | some frontier =>
          show (resumeParallel run cfg rec.point frontier).SettlesAfter seesTerminal
          unfold resumeParallel
          cases findJoinForParallel cfg rec.point.cursor with
          | error e => exact trivial
          | ok joinId =>
              have hregion := driveFrontier_fails run cfg joinId rec.point frontier false
              exact Main.FailsAfter.settles (fun x => drive_settles run cfg _ x.1 []) hregion

/-! ## Calls -/

/-- A call that has not begun: it loads the record, stops where that is terminal, and stops at a
    terminal record later on. -/
def Waits (p : Drive GraphRunOutcome) : Prop :=
  ∃ k, p = .call .load k ∧ ∀ r, (k r).SettlesAfter seesTerminal ∧
    (seesTerminal ⟨.load, r⟩ → (k r).outcome?.isSome)

theorem call_waits {run : RunRef} {starts : GraphConfig → String → Prop} {m : CallMemory}
    {p : Drive GraphRunOutcome} (h : Call run starts (m, p)) : Waits p := by
  cases h with
  | resume =>
      refine ⟨_, rfl, ?_⟩
      intro r
      cases r with
      | none => exact ⟨trivial, fun h => h.elim⟩
      | some rec =>
          obtain ⟨runId, graph, cursor, state, status, visits, frontier⟩ := rec
          cases status with
          | running => exact ⟨driveFromRecord_settles run _, fun h => nomatch h⟩
          | awaitingInput => exact ⟨driveFromRecord_settles run _, fun h => nomatch h⟩
          | succeeded => exact ⟨trivial, fun _ => rfl⟩
          | failed => exact ⟨trivial, fun _ => rfl⟩
  | start cfg text h =>
      refine ⟨_, rfl, ?_⟩
      intro r
      cases r with
      | none => exact ⟨saveThen_settles rfl fun _ => drive_settles run cfg _ _ _, fun h => h.elim⟩
      | some rec =>
          obtain ⟨runId, graph, cursor, state, status, visits, frontier⟩ := rec
          cases status with
          | running => exact ⟨driveFromRecord_settles run _, fun h => nomatch h⟩
          | awaitingInput => exact ⟨driveFromRecord_settles run _, fun h => nomatch h⟩
          | succeeded => exact ⟨trivial, fun _ => rfl⟩
          | failed => exact ⟨trivial, fun _ => rfl⟩

/-- What a call keeps: it has not begun; or it has met no terminal record and will stop at one; or it
    has returned. -/
inductive CallStops (t : CallMemory × Drive GraphRunOutcome) : Prop where
  | waits (hh : t.1.history = []) (hp : Waits t.2)
  | drives (hne : t.1.history ≠ []) (hh : ∀ e ∈ t.1.history, ¬ seesTerminal e.2)
      (hp : t.2.SettlesAfter seesTerminal)
  | returned (hne : t.1.history ≠ []) (hp : t.2.outcome?.isSome)

/-- A call that has returned takes no step. -/
theorem no_step_of_returned {run : RunRef} {C : Closures} {p p' : Drive GraphRunOutcome} {s s' : World}
    {e : Option (Event Op Op.Res)} (h : p.outcome?.isSome) (hs : Main.Step (exec run C) p s e p' s') :
    False := by
  cases hs with
  | call he => exact nomatch h
  | work hj he => exact nomatch h
  | join hset => exact nomatch h

/-- The history of a call after one operation. -/
theorem step_history {run : RunRef} {C : Closures} {p p' : Drive GraphRunOutcome} {s s' : World}
    {e : Option (Event Op Op.Res)} (hs : Main.Step (exec run C) p s e p' s') :
    s'.2.history = s.2.history ++ (e.map fun ev => (s.1, ev)).toList := by
  cases hs with
  | call he => exact exec_history he
  | work hj he => exact exec_history he
  | join hset => exact (List.append_nil _).symm

/-- An event that a call notes: after a terminal record it has returned. -/
theorem CallStops.noted {t : CallMemory × Drive GraphRunOutcome} {h : History} {st : RunStore}
    {e : Option (Event Op Op.Res)} (hh : t.1.history = h ++ (e.map fun ev => (st, ev)).toList)
    (hne : h ≠ [] ∨ e.isSome) (hquiet : ∀ x ∈ h, ¬ seesTerminal x.2)
    (hp : t.2.SettlesAfter seesTerminal)
    (hmark : ∀ ev, e = some ev → seesTerminal ev → t.2.outcome?.isSome) : CallStops t := by
  have hne' : t.1.history ≠ [] := by
    rw [hh]
    rcases hne with hne | hsome
    · simp [hne]
    · obtain ⟨ev, rfl⟩ := Option.isSome_iff_exists.mp hsome
      simp
  by_cases hm : ∃ ev, e = some ev ∧ seesTerminal ev
  · obtain ⟨ev, he, hev⟩ := hm
    exact .returned hne' (hmark ev he hev)
  · refine .drives hne' ?_ hp
    intro x hx
    rw [hh, List.mem_append] at hx
    rcases hx with hx | hx
    · exact hquiet x hx
    · obtain ⟨ev, he, rfl⟩ := Option.map_eq_some_iff.mp (Option.mem_toList.mp hx)
      exact fun hev => hm ⟨ev, he, hev⟩

theorem CallStops.step {run : RunRef} {C : Closures} {st st' : RunStore} {m m' : CallMemory}
    {p p' : Drive GraphRunOutcome} {e : Option (Event Op Op.Res)} (h : CallStops (m, p))
    (hs : Main.Step (exec run C) p (st, m) e p' (st', m')) : CallStops (m', p') := by
  have hhist := step_history hs
  cases h with
  | waits hh hp =>
      obtain ⟨k, hk, hr⟩ := hp
      have hh : m.history = [] := hh
      subst hk
      cases hs with
      | @call _ _ r _ _ he =>
          refine CallStops.noted hhist (.inr rfl) ?_ (hr r).1 ?_
          · rw [hh]
            exact fun x hx => (nomatch hx)
          · rintro ev hev hm
            cases hev
            exact (hr r).2 hm
  | drives hne hh hp =>
      obtain ⟨hnext, hmark⟩ := hp.step hs
      exact CallStops.noted hhist (.inl hne) hh hnext hmark
  | returned hne hp => exact (no_step_of_returned hp hs).elim

/-! ## Systems -/

/-- The calls of a system that have not loaded the record yet, or have returned, and all that come
    later. -/
def Late (c : System) (j : Nat) : Prop :=
  ∀ m p, c.threads[j]? = some (some (m, p)) → m.history = [] ∨ p.outcome?.isSome

theorem reach_callStops {run : RunRef} {C : Closures} {starts : GraphConfig → String → Prop}
    {st : RunStore} {c : System} (hr : Pool.Reach (exec run C) (Call run starts) ⟨st, []⟩ c) :
    ∀ (j : Nat) t, c.threads[j]? = some (some t) → CallStops t := by
  refine Pool.Reach.each ?_ ?_ ?_ hr
  · rintro ⟨m, p⟩ hnew
    have hm := hnew.memory
    subst hm
    exact .waits rfl (call_waits hnew)
  · intro st m p e st' m' p' h hs
    exact h.step hs
  · intro j t hj
    exact nomatch hj

/-- The late calls of a system with a terminal record: those that have not begun, and those that have
    returned. -/
structure Absorbed (c : System) (rec : GraphRunRecord) (d : System) : Prop where
  record : d.store.record = some rec
  late : ∀ j m p, Late c j → d.threads[j]? = some (some (m, p)) → Waits p ∨ p.outcome?.isSome

/-- A late call that moves loads the terminal record, and returns. -/
theorem Waits.step {run : RunRef} {C : Closures} {s s' : World} {p p' : Drive GraphRunOutcome}
    {e : Option (Event Op Op.Res)} {rec : GraphRunRecord} (h : Waits p)
    (hrec : s.1.record = some rec) (hterm : rec.status.terminal = true)
    (hs : Main.Step (exec run C) p s e p' s') : s'.1 = s.1 ∧ p'.outcome?.isSome := by
  obtain ⟨k, rfl, hr⟩ := h
  cases hs with
  | @call _ _ r _ _ he =>
      have hloaded : r = some rec := he.1.trans hrec
      refine ⟨by rw [he.2]; rfl, (hr r).2 ?_⟩
      rw [hloaded]
      exact hterm

theorem Absorbed.reach {run : RunRef} {C : Closures} {starts : GraphConfig → String → Prop} {c d : System}
    {rec : GraphRunRecord} (hterm : rec.status.terminal = true) (h : Absorbed c rec c)
    (hr : Pool.ReachIf (exec run C) (Call run starts) (fun _ j _ => Late c j) c d) : Absorbed c rec d := by
  induction hr with
  | refl => exact h
  | tail _ hs hlate ih =>
      cases hs with
      | spawn hn =>
          refine ⟨ih.record, fun i m p hi hj => ?_⟩
          rcases memory_spawned hj with hj | ⟨-, heq⟩
          · exact ih.late i m p hi hj
          · rw [← heq] at hn
            exact .inl (call_waits hn)
      | @run st st' ts j m m' p p' e hj hs =>
          -- A late call loads the record or has returned; the others may only join their branches.
          have hmoved : st' = st ∧ (Late c j → p'.outcome?.isSome) := by
            by_cases hl : Late c j
            · rcases ih.late j m p hl hj with hw | hret
              · obtain ⟨hst, hp'⟩ := hw.step ih.record hterm hs
                exact ⟨hst, fun _ => hp'⟩
              · exact (no_step_of_returned hret hs).elim
            · cases e with
              | some ev => exact absurd (hlate j ev rfl) hl
              | none =>
                  cases hs
                  exact ⟨rfl, fun h => absurd h hl⟩
          refine ⟨hmoved.1 ▸ ih.record, fun i n q hi hget => ?_⟩
          rcases memory_set hget with ⟨rfl, heq⟩ | ⟨-, hget⟩
          · cases heq
            exact .inr (hmoved.2 hi)
          · exact ih.late i n q hi hget
      | crash j => exact ⟨ih.record, fun i m p hi hj => ih.late i m p hi (memory_killed hj)⟩

/-- **A TERMINAL RECORD STAYS, AMONG THE CALLS THAT LOAD IT.**  Any number of `start` and `resume` calls
    on one run, in any interleaving.  A call that has loaded or written a terminal record has returned,
    so it writes nothing more; and once the stored record is terminal, no operation of the calls that
    had not loaded it by then changes it. -/
theorem terminal_absorbing (run : RunRef) (C : Closures) (starts : GraphConfig → String → Prop)
    (st : RunStore) (c : System)
    (hr : Pool.Reach (exec run C) (Call run starts) ⟨st, []⟩ c) :
    (∀ (j : Nat) m p, c.threads[j]? = some (some (m, p)) → (∃ e ∈ m.history, seesTerminal e.2) →
      p.outcome?.isSome) ∧
    ∀ rec, c.store.record = some rec → rec.status.terminal = true → ∀ d,
      Pool.ReachIf (exec run C) (Call run starts) (fun _ j _ => Late c j) c d →
        d.store.record = some rec := by
  have hstops := reach_callStops hr
  constructor
  · rintro j m p hj ⟨e, he, hsees⟩
    cases hstops j _ hj with
    | waits hh hp =>
        rw [show m.history = [] from hh] at he
        exact nomatch he
    | drives hne hh hp => exact absurd hsees (hh e he)
    | returned hne hp => exact hp
  · intro rec hrec hterm d hd
    refine (Absorbed.reach hterm ⟨hrec, fun j m p hl hj => ?_⟩ hd).record
    rcases hl m p hj with hh | hret
    · cases hstops j _ hj with
      | waits hh hp => exact .inl hp
      | drives hne _ _ => exact absurd hh hne
      | returned hne _ => exact absurd hh hne
    · exact .inr hret

/-- A start of the gate that is told `yes`, for `n` operations. -/
def startedYes (n : Nat) : Drive GraphRunOutcome × World :=
  play (leftFirst (saying (.decided "yes")) ⟨"t", "r"⟩ n 0)
    (start ⟨"t", "r"⟩ gate "", (RunStore.empty, CallMemory.fresh))

/-- A resume of the gate after it, for `n` operations. -/
def resumedYes (st : RunStore) (n : Nat) : Drive GraphRunOutcome × World :=
  play (leftFirst (saying (.decided "yes")) ⟨"t", "r"⟩ n 0)
    (resume ⟨"t", "r"⟩, (st, CallMemory.fresh))

theorem sayingYes_exec (n : Nat) : ∀ x ∈ leftFirst (saying (.decided "yes")) ⟨"t", "r"⟩ n 0, ∀ i s,
    exec ⟨"t", "r"⟩ .arbitrary i s (x.2 i s).1 (x.2 i s).2 :=
  fun x hx i s => exec_arbitrary (leftFirst_exec _ _ n 0 x hx i s)

/-- The start has succeeded. -/
def gateDone : System := ⟨(startedYes 8).2.1, [some ((startedYes 8).2.2, (startedYes 8).1)]⟩

/-- A resume that comes then leaves the record. -/
theorem terminal_absorbing_gate :
    (gateDone.store.record.map (·.status) = some .succeeded) ∧
      (resumedYes gateDone.store 1).2.1.record = gateDone.store.record := by
  have hstart : Call ⟨"t", "r"⟩ (fun g _ => g = gate) (CallMemory.fresh, start ⟨"t", "r"⟩ gate "") :=
    .start gate "" rfl
  have hresume : Call ⟨"t", "r"⟩ (fun g _ => g = gate) (CallMemory.fresh, resume ⟨"t", "r"⟩) := .resume
  have hr : Pool.Reach (exec ⟨"t", "r"⟩ .arbitrary) (Call ⟨"t", "r"⟩ fun g _ => g = gate) ⟨.empty, []⟩
      gateDone := Pool.Reach.first .empty hstart (sayingYes_exec 8)
  have hspawned : Pool.ReachIf (exec ⟨"t", "r"⟩ .arbitrary) (Call ⟨"t", "r"⟩ fun g _ => g = gate)
      (fun _ j _ => Late gateDone j) gateDone
      ⟨gateDone.store, gateDone.threads ++ [some (CallMemory.fresh, resume ⟨"t", "r"⟩)]⟩ :=
    .tail .refl (.spawn hresume) fun _ _ h => nomatch h
  obtain ⟨es, hrun⟩ := play_sound (leftFirst (saying (.decided "yes")) ⟨"t", "r"⟩ 1 0) (sayingYes_exec 1)
    (resume ⟨"t", "r"⟩) (gateDone.store, CallMemory.fresh)
  have hlate : Late gateDone 1 := fun m p h => nomatch h
  have hd := hspawned.run (j := 1) rfl (fun _ _ _ => hlate) hrun
  have hkept := (terminal_absorbing _ _ _ _ _ hr).2 _ rfl rfl _ hd
  exact ⟨rfl, hkept⟩

/-- **A LAGGING RESUME OVERWRITES A TERMINAL RECORD**: two resumes of the gate load its running record,
    the first one succeeds, and the second one then saves its own checkpoint. -/
theorem lagging_resume_overwrites :
    ∃ c d : System,
      Pool.Reach (exec ⟨"t", "r"⟩ .arbitrary) (Call ⟨"t", "r"⟩ fun g _ => g = gate) ⟨.empty, []⟩ c ∧
      Pool.Reach (exec ⟨"t", "r"⟩ .arbitrary) (Call ⟨"t", "r"⟩ fun g _ => g = gate) c d ∧
      c.store.record.map (·.status) = some .succeeded ∧
      d.store.record.map (·.status) = some .running := by
  have hstart : Call ⟨"t", "r"⟩ (fun g _ => g = gate) (CallMemory.fresh, start ⟨"t", "r"⟩ gate "") :=
    .start gate "" rfl
  have hresume : Call ⟨"t", "r"⟩ (fun g _ => g = gate) (CallMemory.fresh, resume ⟨"t", "r"⟩) := .resume
  have hbegun := (Pool.Reach.first .empty hstart (sayingYes_exec 2)).spawned hresume
  have hloaded := (hbegun.play (j := 1) rfl (sayingYes_exec 1)).spawned hresume
  have hboth := hloaded.play (j := 2) rfl (sayingYes_exec 1)
  have hdone := hboth.play (j := 1) rfl (sayingYes_exec 6)
  exact ⟨_, _, hdone, Pool.Reach.refl.play (j := 2) rfl (sayingYes_exec 4), rfl, rfl⟩

end Greentic
