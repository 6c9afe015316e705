import GreenticRunner.GraphSafetyProofs

/-! # Joins and the trunk

    The join arm of `drive` expects that a join is consumed by the fan-out in
    front of it.  Rule 10 of validation only asks that some parallel node is
    BEHIND every predecessor of a join, which does not keep the trunk away from
    joins.

    * `leftFirst` — a schedule that drives the branches one after the other;
    * `loopBack_at_join` — a graph that validation accepts, and a run of it whose
      trunk visits a join. -/

namespace Greentic

open FinMaps CountedPath Resumption

/-- A join node. -/
def IsJoin (cfg : GraphConfig) (id : String) : Prop :=
  ∃ n, cfg.graph.node id = some n ∧ n.kind = .join

/-- A region whose trunk comes back to one of its branch nodes. -/
def loopBack : GraphConfig where
  schemaVersion := 2
  graph :=
    { entry := "fan"
      nodes := [⟨"fan", .parallel⟩, ⟨"left", .tool "t"⟩, ⟨"right", .tool "t"⟩, ⟨"meet", .join⟩,
        ⟨"again", .router 1⟩, ⟨"end", .respond⟩]
      edges := [⟨"fan", "left", some "a"⟩, ⟨"fan", "right", some "b"⟩, ⟨"left", "meet", none⟩,
        ⟨"right", "meet", none⟩, ⟨"meet", "again", none⟩, ⟨"again", "left", some "loop"⟩,
        ⟨"again", "end", some "resolved"⟩] }

/-- A trunk visit of the node `id`. -/
def Op.isTrunkVisit (id : String) : Op → Bool
  | .visit .trunk n _ => n == id
  | _ => false

/-- Drive the first branch, then the second branch and the trunk. -/
def leftFirst (f : Effects) (run : RunRef) (n m : Nat) : List (Nat × Handler Op Op.Res World) :=
  List.replicate n (0, f.handler run) ++ List.replicate m (1, f.handler run)

theorem leftFirst_handler {f : Effects} {run : RunRef} {n m : Nat}
    {x : Nat × Handler Op Op.Res World} (hx : x ∈ leftFirst f run n m) : x.2 = f.handler run := by
  rcases List.mem_append.mp hx with h | h
  · rw [List.eq_of_mem_replicate h]
  · rw [List.eq_of_mem_replicate h]

theorem leftFirst_exec (f : Effects) (run : RunRef) (n m : Nat) :
    ∀ x ∈ leftFirst f run n m, ∀ i s, exec run f.closures i s (x.2 i s).1 (x.2 i s).2 := by
  intro x hx i s
  rw [leftFirst_handler hx]
  exact f.handler_exec run i s

/-- **VALIDATION DOES NOT KEEP THE TRUNK OFF JOINS**: `loopBack` is accepted, and its
    trunk visits the join `meet`. -/
theorem loopBack_at_join :
    loopBack.Accepted ∧ IsJoin loopBack "meet" ∧
    ∃ (c : System) (m : CallMemory) (p : Drive GraphRunOutcome),
      Pool.Reach (exec ⟨"t", "r"⟩ firstRoute.closures)
        (Call ⟨"t", "r"⟩ fun g _ => g = loopBack) ⟨.empty, []⟩ c ∧
      c.threads[0]? = some (some (m, p)) ∧
      ∃ e ∈ m.history, ∃ attempt, e.2.1 = .visit .trunk "meet" attempt := by
  refine ⟨rfl, ⟨⟨"meet", .join⟩, rfl, rfl⟩, ?_⟩
  refine ⟨_, _, _, Pool.Reach.first .empty (.start loopBack "" rfl)
    (leftFirst_exec firstRoute ⟨"t", "r"⟩ 14 20), rfl, ?_⟩
  have hany : (play (leftFirst firstRoute ⟨"t", "r"⟩ 14 20) (start ⟨"t", "r"⟩ loopBack "",
      (RunStore.empty, CallMemory.fresh))).2.2.history.any
        (fun e => e.2.1.isTrunkVisit "meet") = true := by
    decide +kernel
  obtain ⟨e, he, hvisit⟩ := List.any_eq_true.mp hany
  refine ⟨e, he, ?_⟩
  obtain ⟨st, i, r⟩ := e
  cases i with
  | visit place n attempt =>
      cases place with
      | trunk =>
          have hn : n = "meet" := of_decide_eq_true hvisit
          exact ⟨attempt, by rw [hn]⟩
      | branch slot => exact nomatch hvisit
  | _ => exact nomatch hvisit

end Greentic
