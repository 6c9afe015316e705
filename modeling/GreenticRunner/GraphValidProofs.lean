import GreenticRunner.GraphExecutor

/-! # What validation guarantees

    Everything the executor relies on is read off `Graph.validate` here, once:
    the entry and every edge endpoint exist, each kind has the outgoing edges
    its arm follows, and around a parallel node the branch walks are CLOSED —
    a branch can leave its walk set only into the region's join.

    * `WalkOk`, `walk_ok` — what one successful branch walk says;
    * `Accepted.region` — the walks of one parallel node: one common join and
      pairwise disjoint walk sets;
    * `find_join` — `find_join_for_parallel` finds that join. -/

namespace Greentic

/-! ## Reading the checks back -/

theorem checkAll_ok {α : Type} {check : α → Except String Unit} :
    ∀ {l : List α}, checkAll check l = .ok () → ∀ x ∈ l, check x = .ok () := by
  intro l
  induction l with
  | nil => intro _ x hx; exact nomatch hx
  | cons y ys ih =>
      intro h x hx
      simp only [checkAll, bind, Except.bind] at h
      cases hy : check y with
      | error e => rw [hy] at h; exact nomatch h
      | ok u =>
          rw [hy] at h
          rcases List.mem_cons.mp hx with heq | hmem
          · subst heq; exact hy
          · exact ih h x hmem

/-- A conditional error that did not fire. -/
theorem not_of_ite_error {c : Prop} [Decidable c] {m : String} {p : Except String Unit}
    (h : (if c then .error m else p) = .ok ()) : ¬ c ∧ p = .ok () := by
  by_cases hc : c
  · rw [if_pos hc] at h; exact nomatch h
  · rw [if_neg hc] at h; exact ⟨hc, h⟩

namespace Graph

variable {g : Graph}

theorem node_mem {id : String} {n : Node} (h : g.node id = some n) :
    n ∈ g.nodes ∧ n.id = id := by
  refine ⟨List.mem_of_find?_eq_some h, ?_⟩
  have := List.find?_some h
  exact beq_iff_eq.mp this

theorem mem_edgesFrom {id : String} {e : Edge} (h : e ∈ g.edgesFrom id) :
    e ∈ g.edges ∧ e.from_ = id := by
  obtain ⟨h1, h2⟩ := List.mem_filter.mp h
  exact ⟨h1, beq_iff_eq.mp h2⟩

/-- A branch target is the target of an outgoing edge. -/
theorem branchTarget_mem {id b t : String} (h : g.branchTarget id b = some t) :
    ∃ e ∈ g.edgesFrom id, e.to_ = t := by
  obtain ⟨e, he, ht⟩ := Option.map_eq_some_iff.mp h
  exact ⟨e, List.mem_of_find?_eq_some he, ht⟩

/-- An outgoing edge with the label gives a branch target. -/
theorem branchTarget_isSome {id b : String} {e : Edge} (he : e ∈ g.edgesFrom id)
    (hb : e.branch = some b) : ∃ t, g.branchTarget id b = some t := by
  have hsome : ((g.edgesFrom id).find? fun e => e.branch == some b).isSome := by
    rw [List.find?_isSome]
    exact ⟨e, he, by rw [hb]; exact beq_self_eq_true _⟩
  obtain ⟨e', he'⟩ := Option.isSome_iff_exists.mp hsome
  exact ⟨e'.to_, by rw [branchTarget, he']; rfl⟩

/-! ## The branch walk -/

/-- One edge followed by the walk. -/
def WalkArc (g : Graph) (x y : String) : Prop :=
  (∃ n, g.node x = some n ∧ n.kind ≠ .join) ∧ ∃ e ∈ g.edgesFrom x, e.to_ = y

/-- What a successful walk from `t` to the join `J` says about its node set. -/
structure WalkOk (g : Graph) (t J : String) (W : List String) : Prop where
  join_kind : ∃ n, g.node J = some n ∧ n.kind = .join
  start : t ∈ W ∨ t = J
  inner : ∀ x ∈ W, ∃ n, g.node x = some n ∧ n.kind ≠ .join ∧ n.kind ≠ .parallel ∧
    n.kind ≠ .respond
  closed : ∀ x ∈ W, ∀ e ∈ g.edgesFrom x, e.to_ ∈ W ∨ e.to_ = J
  reaches : Relation.ReflTransGen g.WalkArc t J

/-- The loop invariant of the walk from `t`. -/
structure WalkInv (g : Graph) (t : String) (stack W : List String) (found : Option String) :
    Prop where
  join_kind : ∀ j, found = some j → ∃ n, g.node j = some n ∧ n.kind = .join
  start : t ∈ W ∨ t ∈ stack ∨ found = some t
  inner : ∀ x ∈ W, ∃ n, g.node x = some n ∧ n.kind ≠ .join ∧ n.kind ≠ .parallel ∧
    n.kind ≠ .respond
  closed : ∀ x ∈ W, ∀ e ∈ g.edgesFrom x, e.to_ ∈ W ∨ e.to_ ∈ stack ∨ found = some e.to_
  reach_stack : ∀ x ∈ stack, Relation.ReflTransGen g.WalkArc t x
  reach_found : ∀ j, found = some j → Relation.ReflTransGen g.WalkArc t j

/-- Dropping a popped element that is visited or is the join found. -/
theorem WalkInv.pop {t x : String} {stack W : List String} {found found' : Option String}
    (h : WalkInv g t (x :: stack) W found) (hx : x ∈ W ∨ found' = some x)
    (hmono : ∀ j, found = some j → found' = some j)
    (hj : ∀ j, found' = some j → ∃ n, g.node j = some n ∧ n.kind = .join)
    (hr : ∀ j, found' = some j → Relation.ReflTransGen g.WalkArc t j) :
    WalkInv g t stack W found' where
  join_kind := hj
  start := by
    rcases h.start with h1 | h1 | h1
    · exact Or.inl h1
    · rcases List.mem_cons.mp h1 with heq | hmem
      · rcases hx with hxW | hxf
        · exact Or.inl (heq ▸ hxW)
        · exact Or.inr (Or.inr (heq ▸ hxf))
      · exact Or.inr (Or.inl hmem)
    · exact Or.inr (Or.inr (hmono _ h1))
  inner := h.inner
  closed := by
    intro y hy e he
    rcases h.closed y hy e he with h1 | h1 | h1
    · exact Or.inl h1
    · rcases List.mem_cons.mp h1 with heq | hmem
      · rcases hx with hxW | hxf
        · exact Or.inl (heq ▸ hxW)
        · exact Or.inr (Or.inr (heq ▸ hxf))
      · exact Or.inr (Or.inl hmem)
    · exact Or.inr (Or.inr (hmono _ h1))
  reach_stack := fun y hy => h.reach_stack y (List.mem_cons_of_mem _ hy)
  reach_found := hr

/-- Expanding an ordinary node keeps the walk invariant. -/
theorem WalkInv.expand {t x : String} {stack W : List String} {found : Option String}
    {n : Node} (h : WalkInv g t (x :: stack) W found) (hn : g.node x = some n)
    (hk : n.kind ≠ .join ∧ n.kind ≠ .parallel ∧ n.kind ≠ .respond) :
    WalkInv g t (((g.edgesFrom x).map (·.to_)).reverse ++ stack) (x :: W) found where
  join_kind := h.join_kind
  start := by
    rcases h.start with h1 | h1 | h1
    · exact Or.inl (List.mem_cons_of_mem _ h1)
    · rcases List.mem_cons.mp h1 with heq | hmem
      · exact Or.inl (heq ▸ List.mem_cons_self ..)
      · exact Or.inr (Or.inl (List.mem_append.mpr (Or.inr hmem)))
    · exact Or.inr (Or.inr h1)
  inner := by
    intro y hy
    rcases List.mem_cons.mp hy with heq | hmem
    · subst heq; exact ⟨n, hn, hk⟩
    · exact h.inner y hmem
  closed := by
    intro y hy e he
    rcases List.mem_cons.mp hy with heq | hmem
    · subst heq
      refine Or.inr (Or.inl (List.mem_append.mpr (Or.inl ?_)))
      exact List.mem_reverse.mpr (List.mem_map.mpr ⟨e, he, rfl⟩)
    · rcases h.closed y hmem e he with h1 | h1 | h1
      · exact Or.inl (List.mem_cons_of_mem _ h1)
      · rcases List.mem_cons.mp h1 with heq | hmem'
        · exact Or.inl (heq ▸ List.mem_cons_self ..)
        · exact Or.inr (Or.inl (List.mem_append.mpr (Or.inr hmem')))
      · exact Or.inr (Or.inr h1)
  reach_stack := by
    intro y hy
    rcases List.mem_append.mp hy with h1 | h1
    · obtain ⟨e, he, hey⟩ := List.mem_map.mp (List.mem_reverse.mp h1)
      have harc : g.WalkArc x y := ⟨⟨n, hn, hk.1⟩, e, he, hey⟩
      exact (h.reach_stack x (List.mem_cons_self ..)).tail harc
    · exact h.reach_stack y (List.mem_cons_of_mem _ h1)
  reach_found := h.reach_found

/-- The loop of the walk keeps its invariant to the end. -/
theorem walkLoop_ok {p t J : String} {V : List String} :
    ∀ (fuel : Nat) (stack W : List String) (found : Option String),
      walkLoop g p t fuel stack W found = .ok (J, V) → WalkInv g t stack W found →
      WalkOk g t J V := by
  intro fuel
  induction fuel with
  | zero =>
      intro stack W found h hinv
      cases stack with
      | nil =>
          cases found with
          | none => cases h
          | some j =>
              cases h
              exact ⟨hinv.join_kind J rfl, by simpa [eq_comm] using hinv.start, hinv.inner,
                fun x hx e he => by simpa [eq_comm] using hinv.closed x hx e he,
                hinv.reach_found J rfl⟩
      | cons x stack => cases h
  | succ fuel ih =>
      intro stack W found h hinv
      cases stack with
      | nil =>
          cases found with
          | none => cases h
          | some j =>
              cases h
              exact ⟨hinv.join_kind J rfl, by simpa [eq_comm] using hinv.start, hinv.inner,
                fun x hx e he => by simpa [eq_comm] using hinv.closed x hx e he,
                hinv.reach_found J rfl⟩
      | cons x stack =>
          unfold walkLoop at h
          by_cases hv : x ∈ W
          · rw [if_pos hv] at h
            exact ih stack W found h (hinv.pop (Or.inl hv) (fun _ h => h) hinv.join_kind
              hinv.reach_found)
          · rw [if_neg hv] at h
            cases hn : g.node x with
            | none => rw [hn] at h; cases h
            | some n =>
                rw [hn] at h
                dsimp only at h
                have hreach := hinv.reach_stack x (List.mem_cons_self ..)
                cases hk : n.kind with
                | join =>
                    rw [hk] at h
                    cases found with
                    | none =>
                        refine ih stack W (some x) h (hinv.pop (Or.inr rfl)
                          (fun j hj => (by cases hj)) ?_ ?_)
                        · intro j hj
                          cases hj
                          exact ⟨n, hn, hk⟩
                        · intro j hj
                          cases hj
                          exact hreach
                    | some j =>
                        dsimp only at h
                        by_cases hjx : j ≠ x
                        · rw [if_pos hjx] at h; cases h
                        · rw [if_neg hjx] at h
                          have hjx' : some j = some x := by rw [not_not.mp hjx]
                          exact ih stack W (some j) h (hinv.pop (Or.inr hjx') (fun _ h => h)
                            hinv.join_kind hinv.reach_found)
                | parallel => rw [hk] at h; cases h
                | respond => rw [hk] at h; cases h
                | agent _ _ _ _ _ _ =>
                    rw [hk] at h
                    exact ih _ _ _ h (hinv.expand hn (by rw [hk]; simp))
                | tool _ =>
                    rw [hk] at h
                    exact ih _ _ _ h (hinv.expand hn (by rw [hk]; simp))
                | router _ =>
                    rw [hk] at h
                    exact ih _ _ _ h (hinv.expand hn (by rw [hk]; simp))
                | supervisor _ _ _ _ _ =>
                    rw [hk] at h
                    exact ih _ _ _ h (hinv.expand hn (by rw [hk]; simp))
                | approval _ _ _ _ _ =>
                    rw [hk] at h
                    exact ih _ _ _ h (hinv.expand hn (by rw [hk]; simp))

/-- **THE WALK IS CLOSED**: a successful branch walk ends in a join, and no edge
    leaves its node set except into that join. -/
theorem walk_ok {p t J : String} {W : List String}
    (h : g.walkBranchToJoin p t = .ok (J, W)) : WalkOk g t J W := by
  refine walkLoop_ok walkLimit [t] [] none h ⟨?_, ?_, ?_, ?_, ?_, ?_⟩
  · intro j hj; cases hj
  · exact Or.inr (Or.inl (List.mem_cons_self ..))
  · intro x hx; cases hx
  · intro x hx; cases hx
  · intro x hx
    rw [List.mem_singleton.mp hx]
  · intro j hj; cases hj

/-! ## The branches of a parallel node -/

/-- The join that the branch starting at `t` reaches. -/
def branchJoin (g : Graph) (p t : String) : String :=
  match g.walkBranchToJoin p t with
  | .ok (J, _) => J
  | .error _ => ""

/-- The node set of the branch that starts at `t`. -/
def branchWalk (g : Graph) (p t : String) : List String :=
  match g.walkBranchToJoin p t with
  | .ok (_, W) => W
  | .error _ => []

theorem checkBranchLabels_ok {p : String} : ∀ {out : List Edge} {seen : List String},
    checkBranchLabels p seen out = .ok () →
    (∀ e ∈ out, e.branch = some (e.branch.getD "") ∧ e.branch.getD "" ∉ seen) ∧
      (out.map fun e => e.branch.getD "").Nodup := by
  intro out
  induction out with
  | nil => intro seen _; exact ⟨fun e he => (nomatch he), List.nodup_nil⟩
  | cons e out ih =>
      intro seen h
      simp only [checkBranchLabels] at h
      by_cases hemp : (e.branch.getD "").isEmpty
      · rw [if_pos hemp] at h; exact nomatch h
      · rw [if_neg hemp] at h
        by_cases hseen : e.branch.getD "" ∈ seen
        · rw [if_pos hseen] at h; exact nomatch h
        · rw [if_neg hseen] at h
          obtain ⟨hall, hnd⟩ := ih h
          have hsome : e.branch = some (e.branch.getD "") := by
            cases hb : e.branch with
            | none => rw [hb] at hemp; exact absurd rfl hemp
            | some b => rfl
          refine ⟨?_, List.nodup_cons.mpr ⟨?_, hnd⟩⟩
          · intro e' he'
            rcases List.mem_cons.mp he' with heq | hmem
            · subst heq; exact ⟨hsome, hseen⟩
            · exact ⟨(hall e' hmem).1, fun hc => (hall e' hmem).2 (List.mem_cons_of_mem _ hc)⟩
          · intro hmem
            obtain ⟨e', he', heq⟩ := List.mem_map.mp hmem
            refine (hall e' he').2 ?_
            rw [heq]
            exact List.mem_cons_self ..

/-- The walks are made edge by edge. -/
theorem walkBranches_ok {p : String} :
    ∀ {out : List Edge} {bs : List (String × String × List String)},
      g.walkBranches p out = .ok bs →
      bs = out.map (fun e => (e.branch.getD "", g.branchJoin p e.to_, g.branchWalk p e.to_)) ∧
      ∀ e ∈ out, g.walkBranchToJoin p e.to_ = .ok (g.branchJoin p e.to_, g.branchWalk p e.to_) := by
  intro out
  induction out with
  | nil => intro bs h; cases h; exact ⟨rfl, fun e he => (nomatch he)⟩
  | cons e out ih =>
      intro bs h
      simp only [walkBranches, bind, Except.bind] at h
      cases hw : g.walkBranchToJoin p e.to_ with
      | error m => rw [hw] at h; exact nomatch h
      | ok v =>
          rw [hw] at h
          dsimp only at h
          have hv : v = (g.branchJoin p e.to_, g.branchWalk p e.to_) := by
            rw [branchJoin, branchWalk, hw]
          cases hr : g.walkBranches p out with
          | error m => rw [hr] at h; exact nomatch h
          | ok rest =>
              rw [hr] at h
              cases h
              obtain ⟨hrest, hall⟩ := ih hr
              refine ⟨?_, ?_⟩
              · rw [List.map_cons, hrest, hv]
              · intro e' he'
                rcases List.mem_cons.mp he' with heq | hmem
                · subst heq; rw [hw, hv]
                · exact hall e' hmem

theorem checkCommonJoin_ok {p J : String} :
    ∀ {bs : List (String × String × List String)} {i : Nat},
      checkCommonJoin p J i bs = .ok () → ∀ b ∈ bs, b.2.1 = J := by
  intro bs
  induction bs with
  | nil => intro i _ b hb; exact nomatch hb
  | cons b bs ih =>
      intro i h b' hb'
      obtain ⟨hne, hrest⟩ := not_of_ite_error h
      rcases List.mem_cons.mp hb' with heq | hmem
      · subst heq; exact not_not.mp hne
      · exact ih hrest b' hmem

theorem checkDisjoint_ok {p : String} : ∀ {bs : List (String × String × List String)},
    checkDisjoint p bs = .ok () →
    bs.Pairwise fun b b' => ∀ x ∈ b.2.2, x ∉ b'.2.2 := by
  intro bs
  induction bs with
  | nil => intro _; exact .nil
  | cons b bs ih =>
      intro h
      obtain ⟨label, j, W⟩ := b
      simp only [checkDisjoint, bind, Except.bind] at h
      cases hc : checkAll (fun (x : String × String × List String) =>
          if (W.filter fun y => y ∈ x.2.2).isEmpty then (.ok () : Except String Unit)
          else .error
            s!"parallel node '{p}': branches '{label}' and '{x.1}' share node(s) {debugIds (W.filter fun y => y ∈ x.2.2)} before the join (branches must be node-disjoint)") bs with
      | error m => rw [hc] at h; exact nomatch h
      | ok u =>
          rw [hc] at h
          refine .cons ?_ (ih h)
          intro b' hb' x hx hx'
          have hemp := checkAll_ok hc b' hb'
          by_cases he : (W.filter fun y => y ∈ b'.2.2).isEmpty
          · have hnil := List.isEmpty_iff.mp he
            have : x ∈ W.filter fun y => y ∈ b'.2.2 :=
              List.mem_filter.mpr ⟨hx, decide_eq_true hx'⟩
            rw [hnil] at this
            exact nomatch this
          · rw [if_neg he] at hemp; exact nomatch hemp

/-- What validation says about the parallel node `p` whose branches meet in `J`. -/
structure RegionOk (g : Graph) (p J : String) : Prop where
  two : 2 ≤ (g.edgesFrom p).length
  label : ∀ e ∈ g.edgesFrom p, e.branch = some (e.branch.getD "")
  labels : ((g.edgesFrom p).map fun e => e.branch.getD "").Nodup
  walk : ∀ e ∈ g.edgesFrom p, g.walkBranchToJoin p e.to_ = .ok (J, g.branchWalk p e.to_)
  disjoint : (g.edgesFrom p).Pairwise fun e e' =>
    ∀ x ∈ g.branchWalk p e.to_, x ∉ g.branchWalk p e'.to_

theorem validateParallel_ok {n : Node}
    (h : g.validateParallel n (g.edgesFrom n.id) = .ok ()) : ∃ J, RegionOk g n.id J := by
  simp only [validateParallel, bind, Except.bind] at h
  obtain ⟨htwo, h⟩ := not_of_ite_error h
  cases hl : checkBranchLabels n.id [] (g.edgesFrom n.id) with
  | error m => rw [hl] at h; exact nomatch h
  | ok u =>
      rw [hl] at h
      dsimp only at h
      cases hw : g.walkBranches n.id (g.edgesFrom n.id) with
      | error m => rw [hw] at h; exact nomatch h
      | ok bs =>
          rw [hw] at h
          dsimp only at h
          cases hc : checkCommonJoin n.id ((bs.map (·.2.1)).headD "") 0 bs with
          | error m => rw [hc] at h; exact nomatch h
          | ok u =>
              rw [hc] at h
              obtain ⟨hbs, hwalks⟩ := walkBranches_ok hw
              have hjoin := checkCommonJoin_ok hc
              have hlab := checkBranchLabels_ok hl
              have hdis := checkDisjoint_ok h
              generalize (bs.map (·.2.1)).headD "" = J at hjoin
              rw [hbs, List.pairwise_map] at hdis
              refine ⟨J, Nat.le_of_not_lt htwo, fun e he => (hlab.1 e he).1, hlab.2, ?_, hdis⟩
              intro e he
              have hmem : (e.branch.getD "", g.branchJoin n.id e.to_, g.branchWalk n.id e.to_) ∈ bs :=
                hbs ▸ List.mem_map.mpr ⟨e, he, rfl⟩
              rw [hwalks e he, show g.branchJoin n.id e.to_ = J from hjoin _ hmem]

/-- The walk facts of one branch edge. -/
theorem RegionOk.walk_ok {p J : String} (h : RegionOk g p J) {e : Edge}
    (he : e ∈ g.edgesFrom p) : WalkOk g e.to_ J (g.branchWalk p e.to_) :=
  Graph.walk_ok (h.walk e he)

/-! ## The node rules -/

/-- Every rule of `validate`, one by one. -/
theorem validate_ok {v : Nat} (h : g.validate v = .ok ()) :
    (g.node g.entry).isSome ∧
    (∀ e ∈ g.edges, (g.node e.from_).isSome ∧ (g.node e.to_).isSome) ∧
    ∀ n ∈ g.nodes, g.validateNode v n = .ok () := by
  simp only [validate, bind, Except.bind] at h
  cases hu : checkUnique (fun id => s!"duplicate node id '{id}'") [] (g.nodes.map (·.id)) with
  | error m => rw [hu] at h; exact nomatch h
  | ok u =>
      rw [hu] at h
      obtain ⟨hentry, h⟩ := not_of_ite_error h
      cases he : checkAll (fun e : Edge =>
          if (g.node e.from_).isNone then .error s!"edge from unknown node '{e.from_}'"
          else if (g.node e.to_).isNone then .error s!"edge to unknown node '{e.to_}'"
          else .ok ()) g.edges with
      | error m => rw [he] at h; exact nomatch h
      | ok u =>
          rw [he] at h
          refine ⟨?_, ?_, checkAll_ok h⟩
          · simpa [Option.isSome_iff_ne_none] using hentry
          · intro e hmem
            obtain ⟨h1, h2⟩ := not_of_ite_error (checkAll_ok he e hmem)
            obtain ⟨h3, -⟩ := not_of_ite_error h2
            exact ⟨by simpa [Option.isSome_iff_ne_none] using h1,
              by simpa [Option.isSome_iff_ne_none] using h3⟩

/-- The edges of a node whose rule wants exactly one. -/
theorem exists_edge_of_length_one {id : String}
    (h : ¬ (g.edgesFrom id).length ≠ 1) : ∃ e rest, g.edgesFrom id = e :: rest := by
  cases hl : g.edgesFrom id with
  | nil => rw [hl] at h; exact absurd (by decide) h
  | cons e rest => exact ⟨e, rest, rfl⟩

end Graph

namespace GraphConfig

variable {cfg : GraphConfig}

/-- An accepted document has passed `validate`. -/
theorem Accepted.validate (h : cfg.Accepted) : cfg.graph.validate cfg.schemaVersion = .ok () := by
  unfold Accepted fromJson at h
  by_cases hv : 1 ≤ cfg.schemaVersion ∧ cfg.schemaVersion ≤ 2
  · rw [if_pos hv] at h
    cases hr : cfg.graph.validate cfg.schemaVersion with
    | ok u => rfl
    | error m => rw [hr] at h; exact nomatch h
  · rw [if_neg hv] at h; exact nomatch h

theorem Accepted.entry_node (h : cfg.Accepted) : (cfg.graph.node cfg.graph.entry).isSome :=
  (Graph.validate_ok h.validate).1

/-- An edge leads to a node of the graph. -/
theorem Accepted.edge_node (h : cfg.Accepted) {id : String} {e : Edge}
    (he : e ∈ cfg.graph.edgesFrom id) : (cfg.graph.node e.to_).isSome :=
  ((Graph.validate_ok h.validate).2.1 e (Graph.mem_edgesFrom he).1).2

/-- The rules of the node a cursor names. -/
theorem Accepted.node_rule (h : cfg.Accepted) {id : String} {n : Node}
    (hn : cfg.graph.node id = some n) :
    cfg.graph.validateNode cfg.schemaVersion n = .ok () ∧ n.id = id :=
  ⟨(Graph.validate_ok h.validate).2.2 n (Graph.node_mem hn).1, (Graph.node_mem hn).2⟩

/-- Agent, tool and join nodes have a successor. -/
theorem Accepted.next_linear (h : cfg.Accepted) {id : String} {n : Node}
    (hn : cfg.graph.node id = some n)
    (hk : n.kind.kindName = "agent" ∨ n.kind.kindName = "tool" ∨ n.kind.kindName = "join") :
    ∃ e ∈ cfg.graph.edgesFrom id, nextLinear cfg id = .ok e.to_ := by
  obtain ⟨hrule, hid⟩ := h.node_rule hn
  have hlen : ¬ (cfg.graph.edgesFrom id).length ≠ 1 := by
    subst hid
    simp only [Graph.validateNode, bind, Except.bind] at hrule
    obtain ⟨-, hrule⟩ := not_of_ite_error hrule
    cases hkind : n.kind with
    | agent _ _ _ _ _ _ => rw [hkind] at hrule; exact (not_of_ite_error hrule).1
    | tool _ => rw [hkind] at hrule; exact (not_of_ite_error hrule).1
    | join =>
        rw [hkind] at hrule
        exact (not_of_ite_error (not_of_ite_error hrule).2).1
    | router _ => rw [hkind] at hk; simp [NodeKind.kindName] at hk
    | respond => rw [hkind] at hk; simp [NodeKind.kindName] at hk
    | supervisor _ _ _ _ _ => rw [hkind] at hk; simp [NodeKind.kindName] at hk
    | parallel => rw [hkind] at hk; simp [NodeKind.kindName] at hk
    | approval _ _ _ _ _ => rw [hkind] at hk; simp [NodeKind.kindName] at hk
  obtain ⟨e, rest, hedges⟩ := Graph.exists_edge_of_length_one hlen
  refine ⟨e, by rw [hedges]; exact List.mem_cons_self .., ?_⟩
  rw [nextLinear, hedges]

/-- A router's selected edge exists. -/
theorem Accepted.route_ok (h : cfg.Accepted) {id : String} {n : Node} {m : Nat}
    (hn : cfg.graph.node id = some n) (hk : n.kind = .router m) (state : GraphRunState) :
    ∃ e ∈ cfg.graph.edgesFrom id, route cfg.graph id state = .ok e.to_ := by
  obtain ⟨hrule, hid⟩ := h.node_rule hn
  have hhas : ∀ b, b = "loop" ∨ b = "resolved" →
      ∃ e ∈ cfg.graph.edgesFrom id, e.branch = some b := by
    subst hid
    simp only [Graph.validateNode, bind, Except.bind] at hrule
    obtain ⟨-, hrule⟩ := not_of_ite_error hrule
    rw [hk] at hrule
    obtain ⟨hno, -⟩ := not_of_ite_error hrule
    simp only [Bool.or_eq_true, Bool.not_eq_true', not_or, Bool.not_eq_false, List.any_eq_true,
      beq_iff_eq] at hno
    intro b hb
    rcases hb with hb | hb
    · subst hb; exact hno.1
    · subst hb; exact hno.2
  have htarget : ∀ b, b = "loop" ∨ b = "resolved" →
      ∃ e ∈ cfg.graph.edgesFrom id, cfg.graph.branchTarget id b = some e.to_ := by
    intro b hb
    obtain ⟨e, he, hbr⟩ := hhas b hb
    obtain ⟨t, ht⟩ := Graph.branchTarget_isSome he hbr
    obtain ⟨e', he', ht'⟩ := Graph.branchTarget_mem ht
    exact ⟨e', he', by rw [ht, ht']⟩
  obtain ⟨e, he, ht⟩ := htarget
    (if state.resolved || state.iterations ≥ m then "resolved" else "loop") (by
      split
      · exact Or.inr rfl
      · exact Or.inl rfl)
  refine ⟨e, he, ?_⟩
  simp only [route, hn, hk, ht]

theorem exists_of_filter_length_one {α : Type} {l : List α} {p : α → Bool}
    (h : (l.filter p).length ≠ 0) : ∃ x ∈ l, p x = true := by
  cases hf : l.filter p with
  | nil => rw [hf] at h; exact absurd rfl h
  | cons x xs =>
      have hx : x ∈ l.filter p := hf ▸ List.mem_cons_self ..
      exact ⟨x, List.mem_of_mem_filter hx, (List.mem_filter.mp hx).2⟩

/-- A supervisor's declared routes have their edges. -/
theorem Accepted.supervisor_edge (h : cfg.Accepted) {id : String} {n : Node}
    {sp model : String} {routes : List SupervisorRoute} {provider agentRef : Option String}
    (hn : cfg.graph.node id = some n) (hk : n.kind = .supervisor sp model routes provider agentRef)
    {b : String} (hb : (routes.any fun r => r.branch = b) = true) :
    ∃ e ∈ cfg.graph.edgesFrom id, cfg.graph.branchTarget id b = some e.to_ := by
  obtain ⟨hrule, hid⟩ := h.node_rule hn
  obtain ⟨r, hr, hrb⟩ := List.any_eq_true.mp hb
  have hrb' : r.branch = b := of_decide_eq_true hrb
  subst hid
  simp only [Graph.validateNode, Graph.validateSupervisor, bind, Except.bind, hk] at hrule
  obtain ⟨-, hrule⟩ := not_of_ite_error hrule
  obtain ⟨-, hrule⟩ := not_of_ite_error hrule
  split at hrule
  · exact nomatch hrule
  · split at hrule
    · exact nomatch hrule
    · rename_i hroutes
      have hcheck := checkAll_ok hroutes r hr
      have hne : ((cfg.graph.edgesFrom n.id).filter fun e => e.branch == some r.branch).length ≠ 0 := by
        intro h0
        simp only [h0] at hcheck
        exact nomatch hcheck
      obtain ⟨e, he, hbr⟩ := exists_of_filter_length_one hne
      obtain ⟨t, ht⟩ := Graph.branchTarget_isSome he (beq_iff_eq.mp hbr)
      obtain ⟨e', he', ht'⟩ := Graph.branchTarget_mem ht
      exact ⟨e', he', by rw [← hrb', ht, ht']⟩

/-- A parallel node has a region. -/
theorem Accepted.region (h : cfg.Accepted) {id : String} {n : Node}
    (hn : cfg.graph.node id = some n) (hk : n.kind = .parallel) :
    ∃ J, Graph.RegionOk cfg.graph id J := by
  obtain ⟨hrule, hid⟩ := h.node_rule hn
  subst hid
  simp only [Graph.validateNode, bind, Except.bind, hk] at hrule
  obtain ⟨-, hrule⟩ := not_of_ite_error hrule
  exact Graph.validateParallel_ok hrule

/-! ## The join of a region -/

/-- What the search for the join can meet from a branch target. -/
theorem walk_arc_closed {J t : String} {W : List String}
    (hw : Graph.WalkOk cfg.graph t J W) {x y : String} (hx : x ∈ W ∨ x = J)
    (hxy : Relation.ReflTransGen (Worklist.Arc (expandJoin cfg)) x y) : y ∈ W ∨ y = J := by
  induction hxy with
  | refl => exact hx
  | tail _ harc ih =>
      obtain ⟨ys, hys, hmem⟩ := harc
      rcases ih with hin | heq
      · obtain ⟨n, hn, hk, -⟩ := hw.inner _ hin
        simp only [expandJoin, hn, hk, if_false] at hys
        cases hys
        obtain ⟨e, he, hey⟩ := List.mem_map.mp hmem
        exact hey ▸ hw.closed _ hin e he
      · obtain ⟨n, hn, hk⟩ := hw.join_kind
        rw [heq] at hys
        simp only [expandJoin, hn, hk, if_true] at hys
        exact nomatch hys

/-- **THE JOIN IS FOUND**: `find_join_for_parallel` returns the join on which the
    branch walks converge. -/
theorem find_join {p J : String} (hr : Graph.RegionOk cfg.graph p J) :
    findJoinForParallel cfg p = .ok J := by
  have hdeg : ∀ x ys, expandJoin cfg x = .ok ys →
      ys.length ≤ (cfg.graph.edges.map (·.from_)).count x := by
    intro x ys hys
    unfold expandJoin at hys
    cases hn : cfg.graph.node x with
    | none => rw [hn] at hys; exact nomatch hys
    | some n =>
        rw [hn] at hys
        dsimp only at hys
        by_cases hk : n.kind = .join
        · rw [if_pos hk] at hys; exact nomatch hys
        · rw [if_neg hk] at hys
          cases hys
          rw [List.length_map, Graph.edgesFrom, List.count_eq_countP, List.countP_map,
            List.countP_eq_length_filter]
          exact le_of_eq rfl
  have hfuel : (((cfg.graph.edgesFrom p).map (·.to_)).reverse).length +
      (cfg.graph.edges.map (·.from_)).length < 2 * cfg.graph.edges.length + 1 := by
    rw [List.length_reverse, List.length_map, List.length_map]
    have : (cfg.graph.edgesFrom p).length ≤ cfg.graph.edges.length := List.length_filter_le ..
    omega
  unfold findJoinForParallel
  cases hs : Worklist.search (expandJoin cfg) (2 * cfg.graph.edges.length + 1)
      ((cfg.graph.edgesFrom p).map (·.to_)).reverse [] with
  | none =>
      -- some branch target reaches the join, where the search stops
      obtain ⟨e, he⟩ : ∃ e, e ∈ cfg.graph.edgesFrom p :=
        List.exists_mem_of_length_pos (Nat.lt_of_lt_of_le (by decide) hr.two)
      have hw := hr.walk_ok he
      have hreach : Relation.ReflTransGen (Worklist.Arc (expandJoin cfg)) e.to_ J := by
        refine Relation.ReflTransGen.mono ?_ _ _ hw.reaches
        intro x y hxy
        obtain ⟨⟨n, hn, hk⟩, e', he', hey⟩ := hxy
        refine ⟨(cfg.graph.edgesFrom x).map (·.to_), ?_, List.mem_map.mpr ⟨e', he', hey⟩⟩
        simp only [expandJoin, hn, hk, if_false]
      obtain ⟨ys, hys⟩ := Worklist.search_none hdeg hfuel hs
        (List.mem_reverse.mpr (List.mem_map.mpr ⟨e, he, rfl⟩)) hreach
      obtain ⟨n, hn, hk⟩ := hw.join_kind
      simp only [expandJoin, hn, hk, if_true] at hys
      exact nomatch hys
  | some r =>
      obtain ⟨x, hx, y, hxy, hy⟩ := Worklist.search_stop _ _ _ hs
      obtain ⟨e, he, hex⟩ := List.mem_map.mp (List.mem_reverse.mp hx)
      have hw := hr.walk_ok he
      rcases walk_arc_closed hw (hex ▸ hw.start) hxy with hin | heq
      · obtain ⟨n, hn, hk, -⟩ := hw.inner y hin
        simp only [expandJoin, hn, hk, if_false] at hy
        exact nomatch hy
      · obtain ⟨n, hn, hk⟩ := hw.join_kind
        rw [heq] at hy
        simp only [expandJoin, hn, hk, if_true] at hy
        cases hy
        rfl

/-! ## The branches in label order -/

/-- The labelled branch edges, in the order of the document. -/
def labelledEdges (cfg : GraphConfig) (p : String) : List (String × String) :=
  (cfg.graph.edgesFrom p).map fun e => (e.branch.getD "", e.to_)

theorem branchEdges_perm {p J : String} (hr : Graph.RegionOk cfg.graph p J) :
    (branchEdges cfg p).Perm (labelledEdges cfg p) := by
  have heq : ((cfg.graph.edgesFrom p).filterMap fun e => e.branch.map fun b => (b, e.to_))
      = labelledEdges cfg p := by
    rw [labelledEdges, ← List.filterMap_eq_map]
    refine List.filterMap_congr ?_
    intro e he
    rw [hr.label e he]
    rfl
  rw [branchEdges, heq]
  exact List.perm_insertionSort ..

/-- A branch of the region: its walk ends in the join. -/
theorem branch_walk {p J : String} (hr : Graph.RegionOk cfg.graph p J) {x : String × String}
    (hx : x ∈ branchEdges cfg p) :
    Graph.WalkOk cfg.graph x.2 J (cfg.graph.branchWalk p x.2) := by
  obtain ⟨e, he, hex⟩ := List.mem_map.mp ((branchEdges_perm hr).mem_iff.mp hx)
  subst hex
  exact hr.walk_ok he

/-- Different branches have disjoint walks. -/
theorem branch_disjoint {p J : String} (hr : Graph.RegionOk cfg.graph p J) :
    (branchEdges cfg p).Pairwise fun x y =>
      ∀ z ∈ cfg.graph.branchWalk p x.2, z ∉ cfg.graph.branchWalk p y.2 := by
  refine (List.Perm.pairwise_iff ?_ (branchEdges_perm hr)).mpr ?_
  · intro x y hxy z hz hz'
    exact hxy z hz' hz
  · rw [labelledEdges, List.pairwise_map]
    exact hr.disjoint

/-- The branches are in label order. -/
theorem branch_sorted (p : String) : (branchEdges cfg p).Pairwise fun x y => x.1 ≤ y.1 := by
  have : Std.Total fun a b : String × String => a.1 ≤ b.1 := ⟨fun a b => le_total a.1 b.1⟩
  have : IsTrans (String × String) fun a b => a.1 ≤ b.1 := ⟨fun a b c h1 h2 => le_trans h1 h2⟩
  exact List.pairwise_insertionSort ..

end GraphConfig

end Greentic
