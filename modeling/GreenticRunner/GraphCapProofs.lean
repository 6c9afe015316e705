import GreenticRunner.GraphDuplicateProofs

/-! # The node-visit cap

    `MAX_NODE_VISITS` is meant to be global across the trunk and all branches, but it is
    enforced by two counters: the trunk counts the turns of its own loop, in which a whole
    region is one turn, and the branches share a counter that starts from the recorded
    visits, in which fan-outs and joins are missing.

    * `visits_capped` — a call whose visits all meet it makes at most `MAX_NODE_VISITS`;
    * `busyFan_overruns` — a region that nearly uses up the cap, and a trunk that goes on. -/

namespace Greentic

open FinMaps CountedPath Resumption

/-- The visits the stored record counts. -/
def recordedVisits (st : RunStore) : Nat := (st.record.map fun rec => rec.visits.total).getD 0

/-- The trunk visits a node only while the recorded visits and the fan-outs and joins of the
    call are fewer than the cap; the shared counter grants a branch visit only while it and
    the fan-outs and joins are. -/
def CapMet (cfg : GraphConfig) (s : World) : Op → Prop
  | .visit .trunk _ _ => recordedVisits s.1 + passes cfg s.2.history < maxNodeVisits
  | .fetchAdd => s.2.globalVisits < maxNodeVisits →
      s.2.globalVisits + passes cfg s.2.history < maxNodeVisits
  | _ => True

/-- An operation whose visit meets the cap. -/
def capped (run : RunRef) (cfg : GraphConfig) (C : Closures) (i : Op) (s : World) (r : i.Res)
    (s' : World) : Prop :=
  exec run C i s r s' ∧ CapMet cfg s i

/-- One call that has the store to itself. -/
def capSetup (run : RunRef) {cfg : GraphConfig} (hcfg : cfg.Accepted) (C : Closures) : Setup where
  run := run
  cfg := cfg
  accepted := hcfg
  C := C
  T := anyTrack run cfg C
  solo := True
  tight := True
  step := capped run cfg C
  sub := fun _ _ _ _ h => h.1
  tight_step := fun _ _ _ _ h => h.2

/-- Joins the trunk passes through do not change the visit counts. -/
theorem Setup.joinPasses_visits {S : Setup} {pt pt' : Point} {m : Nat}
    (h : Steps S.JoinPass pt m pt') : pt'.visits = pt.visits := by
  induction h with
  | refl => rfl
  | tail _ hs ih =>
      obtain ⟨n, next, -, -, -, heq⟩ := hs
      rw [heq]
      exact ih

/-- The stored record counts the visits of the trunk's position. -/
theorem Setup.Kept.recordedVisits_eq {S : Setup} {m : Nat} {pt : Point} {st : RunStore}
    (h : S.Kept m pt st) : recordedVisits st = pt.visits.total := by
  obtain ⟨rec, hrec, -, -, -, hpass⟩ := h
  rw [joinPasses_visits hpass, recordedVisits, hrec]
  rfl

/-- One operation of a call: a visit that meets the cap is at most the last one. -/
theorem visitsMade_step {run : RunRef} {cfg : GraphConfig} (hcfg : cfg.Accepted) {C : Closures}
    {s s' : World} {ev : Event Op Op.Res} (h : visitsMade s.2.history ≤ maxNodeVisits)
    (hs : capped run cfg C ev.1 s ev.2 s') (htold : (capSetup run hcfg C).Told s ev s') :
    visitsMade s'.2.history ≤ maxNodeVisits := by
  have hfact := htold.fact
  rw [htold.noted, visitsMade_snoc]
  obtain ⟨i, r⟩ := ev
  cases i with
  | visit place n a =>
      cases place with
      | trunk =>
          obtain ⟨X, k, pt, m, -, -, -, hkept, hcount⟩ := hfact
          have hrec := (hkept trivial).recordedVisits_eq
          have hmet : recordedVisits s.1 + passes cfg s.2.history < maxNodeVisits := hs.2
          have hcount' : visitsMade s.2.history + baseVisits s.2.history
              = pt.visits.total + passes cfg s.2.history := hcount
          show visitsMade s.2.history + 1 ≤ maxNodeVisits
          omega
      | branch slot =>
          have hlt : visitsMade s.2.history + baseVisits s.2.history < maxNodeVisits :=
            hfact trivial
          show visitsMade s.2.history + 1 ≤ maxNodeVisits
          omega
  | _ => exact h

/-- **THE CAP IS GLOBAL** for every call that starts a fresh run, with any closures and any
    interleaving of the branches, as long as each of its visits meets the cap. -/
theorem visits_capped (run : RunRef) (cfg : GraphConfig) (hcfg : cfg.Accepted) (C : Closures)
    (text : String) (es : List (Event Op Op.Res)) (p : Drive GraphRunOutcome) (s : World)
    (hr : Run (capped run cfg C) (start run cfg text) (RunStore.empty, CallMemory.fresh) es p s) :
    visitsMade s.2.history ≤ maxNodeVisits := by
  let S := capSetup run hcfg C
  have hst : StoreOk S.T RunStore.empty :=
    ⟨trivial, fun _ _ h => (nomatch h), fun h => h.elim⟩
  have hsat : (start run cfg text).Sat S.worldRely S.step S.Told S.Settles S.CallVerdict
      (RunStore.empty, CallMemory.fresh) :=
    Setup.start_sat trivial (Or.inr ⟨rfl, trivial⟩) hst
  refine Run.preserves (I := fun s => visitsMade s.2.history ≤ maxNodeVisits)
    Setup.worldRely_refl ?_ hr hsat (Nat.zero_le _)
  intro s ev s' h hs htold
  exact visitsMade_step hcfg h hs htold

/-! ## Calls on fixed graphs -/

instance (cfg : GraphConfig) (s : World) : (i : Op) → Decidable (CapMet cfg s i)
  | .visit .trunk _ _ =>
      inferInstanceAs (Decidable (recordedVisits s.1 + passes cfg s.2.history < maxNodeVisits))
  | .fetchAdd => inferInstanceAs (Decidable (s.2.globalVisits < maxNodeVisits →
      s.2.globalVisits + passes cfg s.2.history < maxNodeVisits))
  | .visit (.branch _) _ _ | .load | .save _ | .loadNodeVisit _ _ | .recordNodeVisit _ _ _
  | .agentTurn _ _ | .tool _ _ | .supervisor _ _ | .approval _ _ | .openFrontier _
  | .checkpointFrontier _ | .seedVisits _ | .saveSlot _ _ _ | .recordBranchVisits _
  | .readFrontier | .collectBranchVisits => .isTrue trivial

/-- A fan-out with a looping branch of seven nodes, then a looping trunk. -/
def busyFan : GraphConfig where
  schemaVersion := 2
  graph :=
    { entry := "fan"
      nodes := [⟨"fan", .parallel⟩, ⟨"work", .agent "" "" [] none none none⟩] ++
        ["1", "2", "3", "4", "5"].map (fun id => ⟨id, .router 0⟩) ++
        [⟨"more", .router 9⟩, ⟨"side", .tool "t"⟩, ⟨"meet", .join⟩,
          ⟨"again", .agent "" "" [] none none none⟩, ⟨"enough", .router 12⟩, ⟨"end", .respond⟩]
      edges := [⟨"fan", "work", some "a"⟩, ⟨"fan", "side", some "b"⟩, ⟨"work", "1", none⟩] ++
        ([("1", "2"), ("2", "3"), ("3", "4"), ("4", "5"), ("5", "more")].flatMap fun e =>
          [⟨e.1, e.2, some "loop"⟩, ⟨e.1, e.2, some "resolved"⟩]) ++
        [⟨"more", "work", some "loop"⟩, ⟨"more", "meet", some "resolved"⟩,
          ⟨"side", "meet", none⟩, ⟨"meet", "again", none⟩, ⟨"again", "enough", none⟩,
          ⟨"enough", "again", some "loop"⟩, ⟨"enough", "end", some "resolved"⟩] }

/-- Closures whose agents never resolve. -/
def unresolved : Effects where
  agentTurn := fun _ => .ok ⟨"", false⟩
  tool := fun _ => .ok .null
  supervisor := fun _ => .error (.supervisor "no route")
  approval := fun _ => .ok .awaiting

/-- A start of the graph: the first branch, then the second and the trunk. -/
def started (cfg : GraphConfig) (n m : Nat) : Drive GraphRunOutcome × World :=
  play (leftFirst unresolved ⟨"t", "r"⟩ n m)
    (start ⟨"t", "r"⟩ cfg "", (RunStore.empty, CallMemory.fresh))

theorem started_run (cfg : GraphConfig) (n m : Nat) :
    ∃ es, Run (exec ⟨"t", "r"⟩ unresolved.closures) (start ⟨"t", "r"⟩ cfg "")
      (RunStore.empty, CallMemory.fresh) es (started cfg n m).1 (started cfg n m).2 :=
  play_sound _ (leftFirst_exec unresolved ⟨"t", "r"⟩ n m) _ _

/-- A start of a fan-out over two tools meets the cap and makes four visits. -/
theorem visits_capped_forkJoin :
    visitsMade (started forkJoin 14 15).2.2.history = 4 ∧
      visitsMade (started forkJoin 14 15).2.2.history ≤ maxNodeVisits := by
  refine ⟨by decide +kernel, ?_⟩
  have hmeets : PlayMeets (fun i s => CapMet forkJoin s i) (leftFirst unresolved ⟨"t", "r"⟩ 14 15)
      (start ⟨"t", "r"⟩ forkJoin "", (RunStore.empty, CallMemory.fresh)) := by
    refine playMeets_of_test (C := fun i s => decide (CapMet forkJoin s i))
      (fun i s h => of_decide_eq_true h) _ _ ?_
    decide +kernel
  have hsound : ∀ x ∈ leftFirst unresolved ⟨"t", "r"⟩ 14 15, ∀ i s, True → CapMet forkJoin s i →
      capped ⟨"t", "r"⟩ forkJoin unresolved.closures i s (x.2 i s).1 (x.2 i s).2 ∧ True :=
    fun x hx i s _ hmet => ⟨⟨leftFirst_exec _ _ _ _ x hx i s, hmet⟩, trivial⟩
  obtain ⟨es, hrun⟩ := play_run (I := fun _ => True) _ hsound _ _ trivial hmeets
  exact visits_capped ⟨"t", "r"⟩ forkJoin rfl unresolved.closures "" es _ _ hrun

/-- **THE TWO COUNTERS DO NOT ADD UP**: the branches make 64 visits, the trunk goes on for
    another 7, and the call succeeds after 72. -/
theorem busyFan_overruns :
    busyFan.Accepted ∧ ∃ (es : List (Event Op Op.Res)) (p : Drive GraphRunOutcome) (s : World),
      Run (exec ⟨"t", "r"⟩ unresolved.closures) (start ⟨"t", "r"⟩ busyFan "")
        (RunStore.empty, CallMemory.fresh) es p s ∧
      visitsMade s.2.history = 72 ∧ maxNodeVisits = 64 := by
  refine ⟨rfl, ?_⟩
  obtain ⟨es, hrun⟩ := started_run busyFan 290 60
  refine ⟨es, _, _, hrun, ?_, rfl⟩
  decide +kernel

end Greentic
