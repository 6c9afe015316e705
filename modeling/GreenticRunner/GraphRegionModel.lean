import GreenticRunner.GraphVisitProofs

/-! # The invariant of a parallel region

    While the branches of a region run, each branch has a GHOST: the position it
    last checkpointed and the phase of the visit it is in.  `Region.Inv` ties the
    ghosts to the shared memory and to the store; `RegionCount` is its arithmetic
    half, the shared visit counter and the visit book-keeping as sums over the
    ghosts.

    * `RegionCount.same`, `fetch`, `refuse`, `execute`, `save` — one branch moves;
    * `Region.Inv.update` — the invariant after one branch operation. -/

namespace Greentic

open FinMaps CountedPath Resumption

/-- The phase of a branch between two of its checkpoints. -/
inductive Phase where
  | head
  | counted
  | visited
  | missed
  | asked (v : Json)
  | got (raw : Json)
  | capped
  | parked

namespace Phase

/-- Counted by the shared counter but not yet in the slot. -/
def flying : Phase → Nat
  | counted | visited | missed | asked _ | got _ => 1
  | _ => 0

/-- Executed but not yet in the slot. -/
def shown : Phase → Nat
  | visited | missed | asked _ | got _ => 1
  | _ => 0

/-- Refused by the cap. -/
def refused : Phase → Nat
  | capped => 1
  | _ => 0

theorem shown_le_flying (p : Phase) : p.shown ≤ p.flying := by
  cases p <;> simp [shown, flying]

end Phase

/-- What the proof remembers about one branch. -/
structure Ghost where
  pt : Point
  phase : Phase

namespace Ghost

/-- The visits the shared counter has granted to the branch. -/
def used (P : Point) (g : Ghost) : Nat := spent P g.pt.visits + g.phase.flying

/-- The visits the branch has executed. -/
def seen (P : Point) (g : Ghost) : Nat := spent P g.pt.visits + g.phase.shown

/-- A granted visit that is not in the slot yet. -/
def flying (g : Ghost) : Nat := g.phase.flying

/-- A visit that was refused. -/
def refused (g : Ghost) : Nat := g.phase.refused

end Ghost

/-! ## The arithmetic -/

/-- Replacing one ghost changes a sum by the change at its place. -/
theorem sum_update {n j : Nat} (hj : j < n) (f : Ghost → Nat) (G : Nat → Ghost) (g : Ghost) :
    (∑ i ∈ Finset.range n, f (Function.update G j g i)) + f (G j)
      = (∑ i ∈ Finset.range n, f (G i)) + f g := by
  have hmem : j ∈ Finset.range n := Finset.mem_range.mpr hj
  rw [← Finset.add_sum_erase _ _ hmem, ← Finset.add_sum_erase _ (fun i => f (G i)) hmem,
    Function.update_self]
  have hsame : ∑ i ∈ (Finset.range n).erase j, f (Function.update G j g i)
      = ∑ i ∈ (Finset.range n).erase j, f (G i) := by
    refine Finset.sum_congr rfl ?_
    intro i hi
    rw [Function.update_of_ne (Finset.ne_of_mem_erase hi)]
  rw [hsame]
  omega

/-- A sum over the ghosts of the first `n` branches. -/
def sumOver (n : Nat) (f : Ghost → Nat) (G : Nat → Ghost) : Nat := ∑ i ∈ Finset.range n, f (G i)

theorem sumOver_update {n j : Nat} (hj : j < n) (f : Ghost → Nat) (G : Nat → Ghost) (g : Ghost) :
    sumOver n f (Function.update G j g) + f (G j) = sumOver n f G + f g :=
  sum_update hj f G g

theorem le_sumOver {n j : Nat} (hj : j < n) (f : Ghost → Nat) (G : Nat → Ghost) :
    f (G j) ≤ sumOver n f G :=
  Finset.single_le_sum (f := fun i => f (G i)) (fun _ _ => Nat.zero_le _) (Finset.mem_range.mpr hj)

theorem sumOver_le {n : Nat} {f f' : Ghost → Nat} (h : ∀ g, f g ≤ f' g) (G : Nat → Ghost) :
    sumOver n f G ≤ sumOver n f' G :=
  Finset.sum_le_sum fun i _ => h (G i)

/-- The counters of a region whose `n` branches have the ghosts `G`: `counter` is
    the shared counter, `made` the visits executed so far, `passed` the fan-outs
    and joins among them. -/
structure RegionCount (tight : Prop) (P : Point) (n counter made passed : Nat)
    (G : Nat → Ghost) : Prop where
  counter_eq : counter = P.visits.total + sumOver n (Ghost.used P) G +
    sumOver n Ghost.refused G
  cap : sumOver n (Ghost.used P) G = 0 ∨
    P.visits.total + sumOver n (Ghost.used P) G ≤ maxNodeVisits
  tight_cap : tight → sumOver n Ghost.flying G = 0 ∨
    passed + P.visits.total + sumOver n (Ghost.used P) G ≤ maxNodeVisits
  made_eq : made = passed + P.visits.total + sumOver n (Ghost.seen P) G

namespace RegionCount

variable {tight : Prop} {P : Point} {n counter made passed j : Nat} {G : Nat → Ghost} {g : Ghost}

/-- The sums after one branch has moved. -/
theorem sums (hj : j < n) (P : Point) (G : Nat → Ghost) (g : Ghost) :
    sumOver n (Ghost.used P) (Function.update G j g) + (spent P (G j).pt.visits + (G j).phase.flying)
        = sumOver n (Ghost.used P) G + (spent P g.pt.visits + g.phase.flying) ∧
    sumOver n (Ghost.seen P) (Function.update G j g) + (spent P (G j).pt.visits + (G j).phase.shown)
        = sumOver n (Ghost.seen P) G + (spent P g.pt.visits + g.phase.shown) ∧
    sumOver n Ghost.flying (Function.update G j g) + (G j).phase.flying
        = sumOver n Ghost.flying G + g.phase.flying ∧
    sumOver n Ghost.refused (Function.update G j g) + (G j).phase.refused
        = sumOver n Ghost.refused G + g.phase.refused :=
  ⟨sumOver_update hj (Ghost.used P) G g, sumOver_update hj (Ghost.seen P) G g,
    sumOver_update hj Ghost.flying G g, sumOver_update hj Ghost.refused G g⟩

/-- The branch moves on without a new visit. -/
theorem same (h : RegionCount tight P n counter made passed G) (hj : j < n)
    (hspent : spent P g.pt.visits = spent P (G j).pt.visits)
    (hfly : g.phase.flying = (G j).phase.flying) (hshown : g.phase.shown = (G j).phase.shown)
    (href : g.phase.refused = (G j).phase.refused) :
    RegionCount tight P n counter made passed (Function.update G j g) := by
  obtain ⟨hu, hs, hf, hr⟩ := sums hj P G g
  obtain ⟨hc, hcap, htc, hm⟩ := h
  exact ⟨by omega, by omega, fun ht => by have := htc ht; omega, by omega⟩

/-- The shared counter grants a visit. -/
theorem fetch (h : RegionCount tight P n counter made passed G) (hj : j < n)
    (hpt : g.pt = (G j).pt) (hg : g.phase = .counted) (hG : (G j).phase = .head)
    (hle : counter + 1 ≤ maxNodeVisits) (htight : tight → counter + passed < maxNodeVisits) :
    RegionCount tight P n (counter + 1) made passed (Function.update G j g) := by
  obtain ⟨hu, hs, hf, hr⟩ := sums hj P G g
  obtain ⟨hc, hcap, htc, hm⟩ := h
  rw [hpt, hg, hG] at hu hs
  rw [hg, hG] at hf hr
  dsimp only [Phase.flying, Phase.shown, Phase.refused] at hu hs hf hr
  exact ⟨by omega, by omega, fun ht => by have := htight ht; omega, by omega⟩

/-- The shared counter refuses a visit. -/
theorem refuse (h : RegionCount tight P n counter made passed G) (hj : j < n)
    (hpt : g.pt = (G j).pt) (hg : g.phase = .capped) (hG : (G j).phase = .head) :
    RegionCount tight P n (counter + 1) made passed (Function.update G j g) := by
  obtain ⟨hu, hs, hf, hr⟩ := sums hj P G g
  obtain ⟨hc, hcap, htc, hm⟩ := h
  rw [hpt, hg, hG] at hu hs
  rw [hg, hG] at hf hr
  dsimp only [Phase.flying, Phase.shown, Phase.refused] at hu hs hf hr
  exact ⟨by omega, by omega, fun ht => by have := htc ht; omega, by omega⟩

/-- A granted visit is executed. -/
theorem execute (h : RegionCount tight P n counter made passed G) (hj : j < n)
    (hpt : g.pt = (G j).pt) (hg : g.phase = .visited) (hG : (G j).phase = .counted) :
    RegionCount tight P n counter (made + 1) passed (Function.update G j g) ∧
      (tight → made < maxNodeVisits) := by
  obtain ⟨hu, hs, hf, hr⟩ := sums hj P G g
  obtain ⟨hc, hcap, htc, hm⟩ := h
  have hfj := le_sumOver hj Ghost.flying G
  -- the branch itself is granted but not executed, so fewer visits are executed than granted
  have hlt : sumOver n (Ghost.seen P) (Function.update G j g)
      ≤ sumOver n (Ghost.used P) (Function.update G j g) :=
    sumOver_le (fun g => Nat.add_le_add_left g.phase.shown_le_flying _) _
  rw [hpt, hg, hG] at hu hs
  rw [hg, hG] at hf hr
  rw [Ghost.flying, hG] at hfj
  dsimp only [Phase.flying, Phase.shown, Phase.refused] at hu hs hf hr hfj
  refine ⟨⟨by omega, by omega, fun ht => by have := htc ht; omega, by omega⟩, ?_⟩
  intro ht
  have := htc ht
  omega

/-- An executed visit reaches the slot. -/
theorem save (h : RegionCount tight P n counter made passed G) (hj : j < n)
    (hspent : spent P g.pt.visits = spent P (G j).pt.visits + 1) (hg : g.phase = .head)
    (hfly : (G j).phase.flying = 1) (hshown : (G j).phase.shown = 1)
    (href : (G j).phase.refused = 0) :
    RegionCount tight P n counter made passed (Function.update G j g) := by
  obtain ⟨hu, hs, hf, hr⟩ := sums hj P G g
  obtain ⟨hc, hcap, htc, hm⟩ := h
  rw [hspent, hg, hfly] at hu
  rw [hspent, hg, hshown] at hs
  rw [hg, hfly] at hf
  rw [hg, href] at hr
  dsimp only [Phase.flying, Phase.shown, Phase.refused] at hu hs hf hr
  exact ⟨by omega, by omega, fun ht => by have := htc ht; omega, by omega⟩

end RegionCount

/-! ## The invariant -/

/-- A region the trunk has entered at `P`, `k` steps after `X`; `workers` are the
    slots with a running branch. -/
structure Region (S : Setup) where
  X : S.Origin
  k : Nat
  P : Point
  J : String
  workers : Nat → Prop
  node : Node
  hnode : S.cfg.graph.node P.cursor = some node
  hkind : node.kind = .parallel
  hJ : findJoinForParallel S.cfg P.cursor = .ok J

namespace Region

variable {S : Setup} (R : Region S)

/-- The branches, in label order. -/
def edges : List (String × String) := branchEdges S.cfg R.P.cursor

/-- The part of the region's checkpoints that never changes. -/
def coord : FrontierCheckpoint := frontierCoord S.run S.cfg R.P

/-- Validation vouches for the region. -/
theorem ok : Graph.RegionOk S.cfg.graph R.P.cursor R.J := by
  obtain ⟨J, hJ⟩ := S.accepted.region R.hnode R.hkind
  have heq : J = R.J := Except.ok.inj ((GraphConfig.find_join hJ).symm.trans R.hJ)
  rw [← heq]
  exact hJ

/-- A slot, the ghost of its branch and its branch edge. -/
structure Slot (L : Ledger) (g : Ghost) (x : String × String) (bc : BranchCursor) : Prop where
  label : bc.branch = x.1
  point : slotPoint R.P bc = g.pt
  parked : bc.parked = true ↔ g.phase = .parked
  join : g.phase = .parked → g.pt.cursor = R.J
  full : (bc.visits = .empty ∧ bc.parked = false) ∨ R.P.visits.le bc.visits
  path : ∃ m, Steps (BranchStep S.cfg (rowAt L)) (branchStart R.P x) m g.pt

/-- What the phase of a branch says about the ledger. -/
def PhaseOk (s : World) (g : Ghost) : Prop :=
  match g.phase with
  | .head | .parked => True
  | .capped => CapExceeded s.2.history ∧ Over S.cfg s.1.ledger R.P R.J
  | .counted | .visited => g.pt.cursor ≠ R.J
  | .missed => g.pt.cursor ≠ R.J ∧ (S.solo → rowAt s.1.ledger g.pt = none)
  | .asked v => g.pt.cursor ≠ R.J ∧ Invoked s.2.history g.pt.cursor g.pt.attempt ∧
      ∃ n, S.cfg.graph.node g.pt.cursor = some n ∧ Answered S.run S.C S.cfg g.pt n.kind v
  | .got raw => g.pt.cursor ≠ R.J ∧ rowAt s.1.ledger g.pt = some raw

/-- The invariant of the region. -/
structure Inv (s : World) (G : Nat → Ghost) : Prop where
  came : S.Came R.X R.k R.P s
  len : s.2.frontier.length = R.edges.length
  slots : ∀ i x, R.edges[i]? = some x →
    ∃ bc, s.2.frontier[i]? = some bc ∧ R.Slot s.1.ledger (G i) x bc
  phases : ∀ i, i < R.edges.length → R.PhaseOk s (G i)
  idle : ∀ i, i < R.edges.length → ¬ R.workers i → (G i).phase = .parked
  count : RegionCount S.tight R.P R.edges.length s.2.globalVisits
    (visitsMade s.2.history + baseVisits s.2.history) (passes S.cfg s.2.history) G
  noted : ∀ key, (s.2.branchVisits.get? key).isSome →
    ∃ i, i < R.edges.length ∧ ((G i).pt.visits.get? key).isSome
  quiet : Quiet S.run S.cfg s.2.history
  kept : S.solo → s.1.record = some (S.regionRecord R.P s.2.frontier .running)
  named : S.solo → checkSegment "run_id" S.run.runId = .ok ()

variable {R}

theorem Slot.mono {L L' : Ledger} (hL : Ledger.le L L') {g : Ghost} {x : String × String}
    {bc : BranchCursor} (h : R.Slot L g x bc) : R.Slot L' g x bc := by
  obtain ⟨m, hp⟩ := h.path
  exact ⟨h.label, h.point, h.parked, h.join, h.full, m,
    hp.mono fun _ _ => BranchStep.mono hL.oracle⟩

/-- A branch with a ghost is inside its walk. -/
theorem Slot.inside {L : Ledger} {g : Ghost} {x : String × String} {bc : BranchCursor}
    (h : R.Slot L g x bc) (hx : x ∈ R.edges) :
    Inside R.P (S.cfg.graph.branchWalk R.P.cursor x.2) R.J g.pt := by
  obtain ⟨m, hp⟩ := h.path
  exact branch_inside R.ok hx hp

theorem Slot.slotOk {L : Ledger} {g : Ghost} {x : String × String} {bc : BranchCursor}
    (h : R.Slot L g x bc) : SlotOk S.cfg (rowAt L) R.P R.J x bc := by
  refine ⟨h.label, ?_, ?_, h.full⟩
  · rw [h.point]; exact h.path
  · intro hp
    have := h.join (h.parked.mp hp)
    rw [← h.point] at this
    exact this

/-- A phase keeps its meaning while the ledger grows elsewhere. -/
theorem phaseOk_mono {s s' : World} {g : Ghost} (h : R.PhaseOk s g)
    (hL : Ledger.le s.1.ledger s'.1.ledger)
    (hh : ∀ e ∈ s.2.history, e ∈ s'.2.history)
    (hrow : S.solo → g.pt.cursor ≠ R.J → rowAt s.1.ledger g.pt = none →
      rowAt s'.1.ledger g.pt = none) : R.PhaseOk s' g := by
  unfold PhaseOk at h ⊢
  cases hp : g.phase with
  | head => trivial
  | parked => trivial
  | capped =>
      rw [hp] at h
      obtain ⟨⟨e, he, hr⟩, hover⟩ := h
      exact ⟨⟨e, hh e he, hr⟩, hover.mono hL⟩
  | counted => rw [hp] at h; exact h
  | visited => rw [hp] at h; exact h
  | missed => rw [hp] at h; exact ⟨h.1, fun hs => hrow hs h.1 (h.2 hs)⟩
  | asked v =>
      rw [hp] at h
      obtain ⟨hne, ⟨e, he, hat⟩, hans⟩ := h
      exact ⟨hne, ⟨e, hh e he, hat⟩, hans⟩
  | got raw => rw [hp] at h; exact ⟨h.1, hL.oracle _ _ h.2⟩

/-- Two branches before the join are at different nodes. -/
theorem Inv.cursor_ne {s : World} {G : Nat → Ghost} (h : R.Inv s G) {i j : Nat}
    (hi : i < R.edges.length) (hj : j < R.edges.length) (hij : i ≠ j)
    (hci : (G i).pt.cursor ≠ R.J) (hcj : (G j).pt.cursor ≠ R.J) :
    (G i).pt.cursor ≠ (G j).pt.cursor := by
  obtain ⟨bi, -, hsi⟩ := h.slots i _ (List.getElem?_eq_getElem hi)
  obtain ⟨bj, -, hsj⟩ := h.slots j _ (List.getElem?_eq_getElem hj)
  have hwi := (hsi.inside (List.getElem_mem hi)).mem_walk hci
  have hwj := (hsj.inside (List.getElem_mem hj)).mem_walk hcj
  have hpw := List.pairwise_iff_getElem.mp (GraphConfig.branch_disjoint R.ok)
  intro heq
  rcases Nat.lt_or_gt_of_ne hij with hlt | hgt
  · exact hpw i j hi hj hlt _ hwi (heq ▸ hwj)
  · exact hpw j i hj hi hgt _ hwj (heq ▸ hwi)

/-- Slots that match their ghosts are a frontier a resume may continue from. -/
theorem frontierOk_of {L : Ledger} {frontier : List BranchCursor} {G : Nat → Ghost}
    (hlen : frontier.length = R.edges.length)
    (hslots : ∀ i x, R.edges[i]? = some x → ∃ bc, frontier[i]? = some bc ∧ R.Slot L (G i) x bc)
    (hcap : sumOver R.edges.length (Ghost.used R.P) G = 0 ∨
      R.P.visits.total + sumOver R.edges.length (Ghost.used R.P) G ≤ maxNodeVisits) :
    FrontierOk S.cfg (rowAt L) R.P frontier := by
  have hslot : ∀ i (hi : i < R.edges.length) (hi' : i < frontier.length),
      R.Slot L (G i) (R.edges.get ⟨i, hi⟩) (frontier.get ⟨i, hi'⟩) := by
    intro i hi hi'
    obtain ⟨bc, hbc, hs⟩ := hslots i _ (List.getElem?_eq_getElem hi)
    rw [List.getElem?_eq_getElem hi'] at hbc
    cases hbc
    exact hs
  refine ⟨⟨R.node, R.hnode, R.hkind⟩, ⟨R.J, R.hJ, ?_⟩, ?_⟩
  · refine List.forall₂_iff_get.mpr ⟨hlen.symm, ?_⟩
    intro i hi hi'
    exact (hslot i hi hi').slotOk
  · -- the slots have spent what the ghosts have, which is within what was granted
    have hsum : spentSlots R.P frontier ≤ sumOver R.edges.length (Ghost.used R.P) G := by
      rw [spentSlots, sumOver, ← hlen, Finset.sum_range, ← List.sum_ofFn]
      refine List.Forall₂.sum_le_sum (List.forall₂_iff_get.mpr ⟨by simp, ?_⟩)
      intro i hi hi'
      have hilt : i < frontier.length := by simpa using hi
      have hs := hslot i (by rw [← hlen]; exact hilt) hilt
      simp only [List.get_eq_getElem, List.getElem_map, List.getElem_ofFn]
      have hpt : slotPoint R.P frontier[i] = (G i).pt := hs.point
      rw [hpt]
      exact Nat.le_add_right _ _
    rcases hcap with h0 | hle
    · left; omega
    · right; omega

theorem Inv.frontierOk {s : World} {G : Nat → Ghost} (h : R.Inv s G) :
    FrontierOk S.cfg (rowAt s.1.ledger) R.P s.2.frontier :=
  frontierOk_of h.len h.slots h.count.cap

/-- Every position of a region is within reach of the track. -/
theorem Inv.reached {s : World} {G : Nat → Ghost} (h : R.Inv s G) {j : Nat}
    (hj : j < R.edges.length) : Reached S.cfg S.T.On s.1.ledger (G j).pt := by
  obtain ⟨bc, -, hs⟩ := h.slots j _ (List.getElem?_eq_getElem hj)
  obtain ⟨m, hp⟩ := hs.path
  exact Or.inr ⟨R.P, R.node, _, m, h.came.on, R.hnode, R.hkind, List.getElem_mem hj, hp⟩

/-- A region record is right. -/
theorem recordOk_region {T : Track S.run S.cfg S.C} {L : Ledger} {P : Point}
    {frontier : List BranchCursor} (hrun : checkSegment "run_id" S.run.runId = .ok ())
    (hon : T.On L P) (hf : FrontierOk S.cfg (rowAt L) P frontier) :
    RecordOk T L (S.regionRecord P frontier .running) := by
  refine ⟨⟨rfl, rfl⟩, hrun, hon, ?_⟩
  intro fr hfr
  cases hfr
  exact ⟨rfl, hf⟩

/-- What the other calls do keeps the invariant. -/
theorem Inv.rely {s s' : World} {G : Nat → Ghost} (h : R.Inv s G) (hr : S.worldRely s s') :
    R.Inv s' G := by
  obtain ⟨⟨hL, hst, hsolo⟩, hmem⟩ := hr
  refine ⟨h.came.rely ⟨⟨hL, hst, hsolo⟩, hmem⟩, by rw [hmem]; exact h.len, ?_, ?_, h.idle,
    by rw [hmem]; exact h.count, by rw [hmem]; exact h.noted, by rw [hmem]; exact h.quiet, ?_,
    h.named⟩
  · intro i x hx
    obtain ⟨bc, hbc, hs⟩ := h.slots i x hx
    exact ⟨bc, by rw [hmem]; exact hbc, hs.mono hL⟩
  · intro i hi
    refine phaseOk_mono (h.phases i hi) hL (fun e he => by rw [hmem]; exact he) ?_
    intro hs _ hrow
    rw [hsolo hs]
    exact hrow
  · intro hs
    rw [hsolo hs, hmem]
    exact h.kept hs

/-- **ONE BRANCH MOVES**: the invariant after an operation of branch `j`. -/
theorem Inv.update {s s' : World} {G : Nat → Ghost} (h : R.Inv s G) {j : Nat} {g : Ghost}
    (hj : j < R.edges.length) (hw : R.workers j) {i : Op} {r : i.Res}
    (hhist : s'.2.history = s.2.history ++ [(s.1, ⟨i, r⟩)])
    (hpend : ¬ Pending S.run S.cfg (s.1, ⟨i, r⟩))
    (hL : Ledger.le s.1.ledger s'.1.ledger) (hst : StoreOk S.T s'.1)
    (hrows : ∀ l, l < R.edges.length → l ≠ j → S.solo → (G l).pt.cursor ≠ R.J →
      rowAt s.1.ledger (G l).pt = none → rowAt s'.1.ledger (G l).pt = none)
    (hlen : s'.2.frontier.length = s.2.frontier.length)
    (hothers : ∀ l, l ≠ j → s'.2.frontier[l]? = s.2.frontier[l]?)
    (hslot : ∀ x, R.edges[j]? = some x →
      ∃ bc, s'.2.frontier[j]? = some bc ∧ R.Slot s'.1.ledger g x bc)
    (hphase : R.PhaseOk s' g)
    (hcount : RegionCount S.tight R.P R.edges.length s'.2.globalVisits
      (visitsMade s'.2.history + baseVisits s'.2.history) (passes S.cfg s'.2.history)
      (Function.update G j g))
    (hgrown : ∀ key, ((G j).pt.visits.get? key).isSome → (g.pt.visits.get? key).isSome)
    (hnoted : ∀ key, (s'.2.branchVisits.get? key).isSome →
      (s.2.branchVisits.get? key).isSome ∨ (g.pt.visits.get? key).isSome)
    (hkept : S.solo → s'.1.record = some (S.regionRecord R.P s'.2.frontier .running)) :
    R.Inv s' (Function.update G j g) := by
  have hload : loadedRecord s'.2.history = loadedRecord s.2.history := by
    obtain ⟨l, hl⟩ := h.came.loaded
    rw [hhist, loadedRecord_snoc hl, hl]
  refine ⟨h.came.mono hL hst hload, hlen.trans h.len, ?_, ?_, ?_, hcount, ?_, ?_, hkept, h.named⟩
  · intro l x hx
    by_cases hlj : l = j
    · subst hlj
      rw [Function.update_self]
      exact hslot x hx
    · obtain ⟨bc, hbc, hs⟩ := h.slots l x hx
      rw [Function.update_of_ne hlj, hothers l hlj]
      exact ⟨bc, hbc, hs.mono hL⟩
  · intro l hl
    by_cases hlj : l = j
    · subst hlj
      rw [Function.update_self]
      exact hphase
    · rw [Function.update_of_ne hlj]
      refine phaseOk_mono (h.phases l hl) hL ?_ (hrows l hl hlj)
      intro e he
      rw [hhist]
      exact List.mem_append_left _ he
  · intro l hl hnw
    have hlj : l ≠ j := fun hc => hnw (hc ▸ hw)
    rw [Function.update_of_ne hlj]
    exact h.idle l hl hnw
  · intro key hkey
    rcases hnoted key hkey with hold | hnew
    · obtain ⟨l, hl, hsome⟩ := h.noted key hold
      refine ⟨l, hl, ?_⟩
      by_cases hlj : l = j
      · subst hlj
        rw [Function.update_self]
        exact hgrown key hsome
      · rw [Function.update_of_ne hlj]
        exact hsome
    · exact ⟨j, hj, by rw [Function.update_self]; exact hnew⟩
  · rw [hhist]
    exact quiet_snoc hpend

end Region

end Greentic
