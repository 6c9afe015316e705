import GreenticRunner.GraphCapProofs

/-! # What a region returns when a branch hits the cap

    `drive_frontier` waits for all branches and keeps the FIRST error in slot order.  The
    terminal status of a cap is written only when that first error is the cap, so an earlier
    branch that failed in another way hides it.

    * `FirstIsCap`, `cap_terminal_iff` — the region ends as capped exactly then;
    * `leftDown_hides` — an agent that is down beside a branch that hits the cap. -/

namespace Greentic

open FinMaps Resumption

/-! ## A store that may refuse a write -/

/-- The write is refused. -/
def Refused : (i : Op) → i.Res → Prop
  | .save _, r => ∃ e, r = .error e
  | .recordNodeVisit _ _ _, r => ∃ e, r = .error e
  | .checkpointFrontier _, r => ∃ e, r = .error e
  | .saveSlot _ _ _, r => ∃ e, r = .error e
  | _, _ => False

/-- One operation; a store that refuses a write keeps what it has. -/
def faulty (run : RunRef) (C : Closures) (i : Op) (s : World) (r : i.Res) (s' : World) : Prop :=
  exec run C i s r s' ∨ (Refused i r ∧ s' = note s.1 (s.1, (effect run s i).2) ⟨i, r⟩)

/-! ## A region forks once -/

variable {run : RunRef} {cfg : GraphConfig} {joinId : String} {trunk : Point} {C : Closures}

theorem forksInto_saveRecord {α : Type} {K : List (Except GraphExecError BranchOutcome) → Drive α}
    {rec : GraphRunRecord} {k : Unit → Drive α} (h : ForksInto K (k ())) :
    ForksInto K (saveRecord rec >>= k) := by
  intro r
  cases r with
  | ok u => exact h
  | error e => trivial

theorem forksInto_settle (rs : List (Except GraphExecError BranchOutcome)) :
    ForksInto (settleFrontier run cfg joinId trunk) (settleFrontier run cfg joinId trunk rs) := by
  rw [settleFrontier]
  split
  · intro frontier
    exact forksInto_saveRecord trivial
  · trivial
  · intro frontier collected
    cases nextLinear cfg joinId with
    | error e => trivial
    | ok next => exact forksInto_saveRecord trivial

/-- The only fork of a region continues with `settleFrontier`. -/
theorem forksInto_driveFrontier (frontier : List BranchCursor) (persist : Bool) :
    ForksInto (settleFrontier run cfg joinId trunk)
      (driveFrontier run cfg joinId trunk frontier persist) := by
  have hfork : ∀ seed, ForksInto (settleFrontier run cfg joinId trunk)
      (do Main.perform (Op.seedVisits seed)
          let results ← Main.joinAll
            (branchPrograms run cfg joinId (frontierCoord run cfg trunk) frontier)
          settleFrontier run cfg joinId trunk results) :=
    fun _ _ => ⟨rfl, forksInto_settle⟩
  intro _
  cases persist with
  | false => exact hfork _
  | true =>
      intro r
      cases r with
      | ok u => exact hfork _
      | error e => trivial

/-! ## The first error -/

/-- The first branch that failed hit the cap. -/
def FirstIsCap (rs : List (Except GraphExecError BranchOutcome)) : Prop :=
  ∃ ok id rest, rs = ok ++ .error (.iterationCap id) :: rest ∧ ∀ r ∈ ok, ∃ o, r = .ok o

/-- The error that the loop over the results keeps. -/
theorem foldResults_error (rs : List (Except GraphExecError BranchOutcome))
    (e : GraphExecError) (trail : List Json) (visits : Visits) :
    (foldResults rs (some e, trail, visits)).1 = some e := by
  induction rs generalizing trail visits with
  | nil => rfl
  | cons r rs ih =>
      cases r with
      | ok o => exact ih _ _
      | error e' => exact ih _ _

/-- Either all branches are done or there is a first one that failed. -/
theorem foldResults_first (rs : List (Except GraphExecError BranchOutcome)) (trail : List Json)
    (visits : Visits) :
    (∀ r ∈ rs, ∃ o, r = .ok o) ∨ ∃ ok e rest, rs = ok ++ .error e :: rest ∧
      (∀ r ∈ ok, ∃ o, r = .ok o) ∧ (foldResults rs (none, trail, visits)).1 = some e := by
  induction rs generalizing trail visits with
  | nil => exact .inl fun _ hr => nomatch hr
  | cons r rs ih =>
      cases r with
      | error e =>
          exact .inr ⟨[], e, rs, rfl, (fun _ hr => nomatch hr), foldResults_error rs e _ _⟩
      | ok o =>
          rcases ih (trail ++ o.trail) (visits.extend o.visits) with
            hall | ⟨ok, e, rest, rfl, hok, hfold⟩
          · refine .inl ?_
            intro r hr
            rcases List.mem_cons.mp hr with rfl | hr
            · exact ⟨o, rfl⟩
            · exact hall r hr
          · refine .inr ⟨.ok o :: ok, e, rest, rfl, ?_, hfold⟩
            intro r hr
            rcases List.mem_cons.mp hr with rfl | hr
            · exact ⟨o, rfl⟩
            · exact hok r hr

/-- A first failure is unique. -/
theorem firstIsCap_iff {ok rest : List (Except GraphExecError BranchOutcome)} {e : GraphExecError}
    (hok : ∀ r ∈ ok, ∃ o, r = .ok o) :
    FirstIsCap (ok ++ .error e :: rest) ↔ ∃ id, e = .iterationCap id := by
  constructor
  · rintro ⟨ok', id, rest', heq, hok'⟩
    refine ⟨id, ?_⟩
    induction ok generalizing ok' with
    | nil =>
        cases ok' with
        | nil => exact Except.error.inj (List.cons.inj heq).1
        | cons r ok' =>
            obtain ⟨o, ho⟩ := hok' r (List.mem_cons_self ..)
            have := (List.cons.inj heq).1
            rw [ho] at this
            exact nomatch this
    | cons r ok ih =>
        obtain ⟨o, ho⟩ := hok r (List.mem_cons_self ..)
        cases ok' with
        | nil =>
            have := (List.cons.inj heq).1
            rw [ho] at this
            exact nomatch this
        | cons r' ok' =>
            exact ih (fun x hx => hok x (List.mem_cons_of_mem _ hx)) ok' (List.cons.inj heq).2
              fun x hx => hok' x (List.mem_cons_of_mem _ hx)
  · rintro ⟨id, rfl⟩
    exact ⟨ok, id, rest, rfl, hok⟩

/-! ## How the region ends -/

/-- The region ended as capped: that is its error, and the stored record failed. -/
structure Capped (r : Except GraphExecError (Point × List Json)) (st : RunStore) : Prop where
  error : ∃ id, r = .error (.iterationCap id)
  failed : st.record.map (·.status) = some .failed

/-- The store took every record the region saved. -/
def Saved (es : List (Event Op Op.Res)) : Prop := ∀ rec r, ⟨Op.save rec, r⟩ ∈ es → r = .ok ()

theorem faulty_save {rec : GraphRunRecord} {s s' : World}
    (h : faulty run C (.save rec) s (.ok ()) s') : s'.1.record = some rec := by
  rcases h with ⟨hans, rfl⟩ | ⟨⟨e, he⟩, -⟩
  · have hans : Except.ok () = (s.1.save rec).map fun _ => () := hans
    show (storeAfter s.1 (s.1.save rec)).record = some rec
    rcases save_cases s.1 rec with ⟨-, h⟩ | ⟨c, -, h⟩
    · rw [h]
      rfl
    · rw [h] at hans
      exact nomatch hans
  · exact nomatch he

/-- The end of a region whose first failed branch hit the cap. -/
theorem capped_iff {id : String} {rec : List BranchCursor → GraphRunRecord}
    (hrec : ∀ f, (rec f).status = .failed) {s s' : World} {es : List (Event Op Op.Res)}
    {q : Drive (Point × List Json)} {r : Except GraphExecError (Point × List Json)}
    (h : Run (faulty run C) (do
      let frontier ← Main.perform Op.readFrontier
      saveRecord (rec frontier)
      .fail (.iterationCap id)) s es q s') (hq : q.outcome? = some r) :
    Capped r s'.1 ↔ Saved es := by
  obtain ⟨rfl, -, -⟩ | ⟨frontier, s₁, es₁, -, rfl, hwrite⟩ := Run.of_call h
  · exact nomatch hq
  obtain ⟨rfl, -, -⟩ | ⟨a, s₂, es₂, hsave, rfl, hend⟩ := Run.of_call hwrite
  · exact nomatch hq
  cases a with
  | ok u =>
      obtain ⟨rfl, rfl, rfl⟩ := Run.of_fail hend
      have hrecord := faulty_save hsave
      refine iff_of_true ⟨⟨id, (Option.some.inj hq).symm⟩, ?_⟩ ?_
      · rw [hrecord, Option.map_some, hrec]
      · intro rec' r' hmem
        rcases List.mem_cons.mp hmem with hmem | hmem
        · exact nomatch hmem
        · rw [List.mem_singleton] at hmem
          cases hmem
          rfl
  | error e =>
      obtain ⟨rfl, rfl, rfl⟩ := Run.of_fail hend
      refine iff_of_false ?_ ?_
      · rintro ⟨⟨id', hr⟩, -⟩
        rw [hr] at hq
        exact nomatch hq
      · intro hsaved
        exact nomatch hsaved (rec frontier) (.error e) (by simp)

/-- CAP BREACHES: over every graph, region, number of branches, interleaving and answers of the
    closures and of the store, when some branch returned the cap the region ends as capped exactly
    when the first branch that failed is one of those and the store takes the record. -/
theorem cap_terminal_iff {frontier : List BranchCursor} {persist : Bool} {s t s' : World}
    {es es' : List (Event Op Op.Res)} {ws : List (Prog Op Op.Res GraphExecError BranchOutcome)}
    {k : List (Except GraphExecError BranchOutcome) → Drive (Point × List Json)}
    {rs : List (Except GraphExecError BranchOutcome)} {q : Drive (Point × List Json)}
    {r : Except GraphExecError (Point × List Json)}
    (hjoin : Run (faulty run C) (driveFrontier run cfg joinId trunk frontier persist) s es
      (.fork ws k) t)
    (hset : ws.map Prog.outcome? = rs.map some) (hcap : ∃ id, .error (.iterationCap id) ∈ rs)
    (hrest : Run (faulty run C) (.fork ws k) t es' q s') (hq : q.outcome? = some r) :
    Capped r s'.1 ↔ FirstIsCap rs ∧ Saved es' := by
  obtain ⟨rfl, -⟩ := (forksInto_driveFrontier frontier persist).run hjoin
  obtain ⟨rfl, -, -⟩ | hrest := Run.of_settled hset hrest
  · exact nomatch hq
  rcases foldResults_first rs [] trunk.visits with
    hall | ⟨ok, e, rest, rfl, hok, hfold⟩
  · obtain ⟨id, hid⟩ := hcap
    obtain ⟨o, ho⟩ := hall _ hid
    exact nomatch ho
  rw [firstIsCap_iff hok]
  unfold settleFrontier at hrest
  split at hrest
  · rename_i id trail visits hfold'
    rw [hfold'] at hfold
    cases hfold
    rw [capped_iff (fun _ => rfl) hrest hq]
    exact (and_iff_right ⟨id, rfl⟩).symm
  · rename_i e' trail visits hnot hfold'
    rw [hfold'] at hfold
    cases hfold
    obtain ⟨rfl, -, -⟩ := Run.of_fail hrest
    refine iff_of_false ?_ ?_
    · rintro ⟨⟨id, hr⟩, -⟩
      rw [hr] at hq
      cases hq
      exact hnot _ rfl
    · rintro ⟨⟨id, rfl⟩, -⟩
      exact hnot _ rfl
  · rename_i trail visits hfold'
    rw [hfold'] at hfold
    exact nomatch hfold

/-! ## Regions on a fixed graph -/

/-- A fan-out with an agent in one branch and a loop in the other. -/
def loopFan : GraphConfig where
  schemaVersion := 2
  graph :=
    { entry := "fan"
      nodes := [⟨"fan", .parallel⟩, ⟨"left", .agent "" "" [] none none none⟩,
        ⟨"right", .agent "" "" [] none none none⟩, ⟨"again", .router 1000⟩, ⟨"meet", .join⟩,
        ⟨"end", .respond⟩]
      edges := [⟨"fan", "left", some "a"⟩, ⟨"fan", "right", some "b"⟩, ⟨"left", "meet", none⟩,
        ⟨"right", "again", none⟩, ⟨"again", "right", some "loop"⟩,
        ⟨"again", "meet", some "resolved"⟩, ⟨"meet", "end", none⟩] }

/-- The region of a fresh run of the graph. -/
def loopRegion : Drive (Point × List Json) :=
  driveFrontier ⟨"t", "r"⟩ loopFan "meet" (startPoint loopFan "")
    (initialFrontier loopFan (startPoint loopFan "")) true

/-- The region up to its join: `n` steps with the first branch, then `m` with the second. -/
def looped (f : Effects) (n m : Nat) : Drive (Point × List Json) × World :=
  play (leftFirst f ⟨"t", "r"⟩ n m) (loopRegion, (RunStore.empty, CallMemory.fresh))

/-- The end of the region. -/
def loopEnd (f : Effects) (n m : Nat) : Drive (Point × List Json) × World :=
  play (leftFirst f ⟨"t", "r"⟩ 3 0) (looped f n m)

theorem play_faulty (f : Effects) (n m : Nat) (p : Drive (Point × List Json)) (s : World) :
    ∃ es, Run (faulty ⟨"t", "r"⟩ f.closures) p s es (play (leftFirst f ⟨"t", "r"⟩ n m) (p, s)).1
      (play (leftFirst f ⟨"t", "r"⟩ n m) (p, s)).2 :=
  play_sound _ (fun x hx i s => .inl (leftFirst_exec f ⟨"t", "r"⟩ n m x hx i s)) _ _

/-- The results of the branches, once all have settled. -/
def branchResults : Drive (Point × List Json) → Option (List (Except GraphExecError BranchOutcome))
  | .fork ws _ => settled ws
  | _ => none

/-- The results of branches that have settled. -/
theorem branchResults_some {p : Drive (Point × List Json)}
    {rs : List (Except GraphExecError BranchOutcome)} (h : branchResults p = some rs) :
    ∃ ws k, p = .fork ws k ∧ ws.map Prog.outcome? = rs.map some := by
  cases p with
  | fork ws k => exact ⟨ws, k, rfl, settled_spec ws rs h⟩
  | _ => exact nomatch h

/-- The branch hit the cap. -/
def isCap : Except GraphExecError BranchOutcome → Bool
  | .error (.iterationCap _) => true
  | _ => false

/-- The test for the cap is sound. -/
theorem isCap_error {rs : List (Except GraphExecError BranchOutcome)} (h : rs.any isCap = true) :
    ∃ id, .error (.iterationCap id) ∈ rs := by
  obtain ⟨r, hr, hcap⟩ := List.any_eq_true.mp h
  match r, hcap with
  | .error (.iterationCap id), _ => exact ⟨id, hr⟩

/-- The region of the graph joins branches with the results `rs` and ends as `q` does. -/
structure Joins (C : Closures) (rs : List (Except GraphExecError BranchOutcome))
    (q : Drive (Point × List Json)) (s' : World) : Prop where
  cap : ∃ id, .error (.iterationCap id) ∈ rs
  run : ∃ es ws k t es', Run (faulty ⟨"t", "r"⟩ C) loopRegion (RunStore.empty, CallMemory.fresh) es
      (.fork ws k) t ∧ ws.map Prog.outcome? = rs.map some ∧
    Run (faulty ⟨"t", "r"⟩ C) (.fork ws k) t es' q s'

theorem looped_joins {f : Effects} {n m : Nat}
    (hset : (branchResults (looped f n m).1).any (·.any isCap) = true) :
    ∃ rs, Joins f.closures rs (loopEnd f n m).1 (loopEnd f n m).2 := by
  obtain ⟨rs, hrs, hcap⟩ := (Option.any_eq_true _ _).mp hset
  obtain ⟨ws, k, hp, hws⟩ := branchResults_some hrs
  obtain ⟨es, hrun⟩ := play_faulty f n m loopRegion (RunStore.empty, CallMemory.fresh)
  obtain ⟨es', hrun'⟩ := play_faulty f 3 0 (looped f n m).1 (looped f n m).2
  refine ⟨rs, isCap_error hcap, es, ws, k, (looped f n m).2, es', ?_, hws, ?_⟩
  · rw [← hp]
    exact hrun
  · rw [← hp]
    exact hrun'

/-- A region ends at the cap. -/
def endsAtCap : Except GraphExecError (Point × List Json) → Bool
  | .error (.iterationCap _) => true
  | _ => false

theorem endsAtCap_error {r : Except GraphExecError (Point × List Json)} (h : endsAtCap r = true) :
    ∃ id, r = .error (.iterationCap id) := by
  cases r with
  | ok o => cases h
  | error e =>
      cases e <;> first
        | exact ⟨_, rfl⟩
        | cases h

/-- A region ends with a failed agent. -/
def endsAtAgent : Except GraphExecError (Point × List Json) → Bool
  | .error (.agentTurn _) => true
  | _ => false

/-- The branch on the left meets the other one, which hits the cap. -/
theorem cap_terminal_iff_loop : ∃ rs q s' r, Joins unresolved.closures rs q s' ∧
    q.outcome? = some r ∧ Capped r s'.1 ∧ FirstIsCap rs := by
  have hset : (branchResults (looped unresolved 11 349).1).any (·.any isCap) = true := by
    decide +kernel
  obtain ⟨rs, hjoins⟩ := looped_joins hset
  obtain ⟨es, ws, k, t, es', hjoin, hws, hrest⟩ := hjoins.run
  have hout : (loopEnd unresolved 11 349).1.outcome?.any endsAtCap = true := by decide +kernel
  have hfailed : (loopEnd unresolved 11 349).2.1.record.map (·.status) = some .failed := by
    decide +kernel
  obtain ⟨r, hr, htest⟩ := (Option.any_eq_true _ _).mp hout
  have hcapped : Capped r (loopEnd unresolved 11 349).2.1 := by
    obtain ⟨id, rfl⟩ := endsAtCap_error htest
    exact ⟨⟨id, rfl⟩, hfailed⟩
  exact ⟨rs, _, _, r, hjoins, hr, hcapped,
    ((cap_terminal_iff hjoin hws hjoins.cap hrest hr).mp hcapped).1⟩

/-- The agent on the left is down, the others never resolve. -/
def leftDown : Effects where
  agentTurn := fun req => if req.nodeId = "left" then .error (.agentTurn "down") else .ok ⟨"", false⟩
  tool := fun _ => .ok .null
  supervisor := fun _ => .error (.supervisor "no route")
  approval := fun _ => .ok .awaiting

/-- The agent that is down hides the cap the other branch hits: the run is left running. -/
theorem leftDown_hides : loopFan.Accepted ∧ ∃ rs q s' r, Joins leftDown.closures rs q s' ∧
    q.outcome? = some r ∧ (¬ ∃ id, r = .error (.iterationCap id)) ∧
    s'.1.record.map (·.status) = some .running := by
  refine ⟨rfl, ?_⟩
  have hset : (branchResults (looped leftDown 7 349).1).any (·.any isCap) = true := by
    decide +kernel
  obtain ⟨rs, hjoins⟩ := looped_joins hset
  have hout : (loopEnd leftDown 7 349).1.outcome?.any endsAtAgent = true := by decide +kernel
  have hrunning : (loopEnd leftDown 7 349).2.1.record.map (·.status) = some .running := by
    decide +kernel
  obtain ⟨r, hr, htest⟩ := (Option.any_eq_true _ _).mp hout
  refine ⟨rs, _, _, r, hjoins, hr, ?_, hrunning⟩
  rintro ⟨id, rfl⟩
  cases htest

end Greentic
