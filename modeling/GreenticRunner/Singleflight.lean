import GreenticRunner.MemoryCache

/-! # One flight for each key

    Callers that miss a component in the caches compile it one after another: `Singleflight` keeps a mutex for
    each key in use, behind an `Arc`, and the last one out REMOVES THE ENTRY when it counts no other reference.

    * `one_flight` — at most one caller of a key is past the mutex, however the callers interleave and
      whichever of them are cancelled;
    * `entries_in_use` — an entry stays behind only where two clean-ups of its cell overlapped;
    * `compiles_bounded` — a key is compiled once, and once more for each eviction and each failure; two
      compilations of one key overlap only where one of them was given up. -/

namespace Greentic.Singleflight

open Transition

variable {κ γ : Type} [DecidableEq κ]

/-- Where a caller of `acquire` stands with its cell. -/
inductive Phase where
  /-- `lock` is cloned out of the map. -/
  | entered
  /-- `guard` is built, and the other clone waits in `lock_owned`. -/
  | waiting
  | holding
  /-- The mutex is given back or was never got; the clone that was for it is still there. -/
  | releasing
  /-- Only `_lock` is left, and `remove_if` is to come. -/
  | closing
  /-- `_lock` is to be dropped. -/
  | cleaned
  | gone
deriving DecidableEq

/-- The references a caller has to its cell. -/
def Phase.refs : Phase → Nat
  | .entered => 1
  | .waiting => 2
  | .holding => 2
  | .releasing => 2
  | .closing => 1
  | .cleaned => 1
  | .gone => 0

structure Client (κ : Type) where
  key : κ
  cell : Nat
  phase : Phase

/-- `Singleflight`: the map of the cells, the next fresh one, and the callers so far. -/
structure Flights (κ : Type) where
  locks : κ → Option Nat
  next : Nat
  clients : List (Client κ)

def Flights.start : Flights κ := ⟨fun _ => none, 0, []⟩

/-- `Arc::strong_count` of the cell of an entry: the entry and the callers. -/
def strongCount (s : Flights κ) (cell : Nat) : Nat :=
  1 + (s.clients.map fun x => if x.cell = cell then x.phase.refs else 0).sum

inductive Act (κ : Type) where
  | acquire (key : κ)
  | queue (i : Nat)
  | lock (i : Nat)
  /-- The future is dropped while it waits. -/
  | cancel (i : Nat)
  /-- The guard is dropped. -/
  | release (i : Nat)
  | unref (i : Nat)
  | clean (i : Nat)
  | forget (i : Nat)

variable (s : Flights κ)

/-- `entry(key).or_insert_with(..).clone()`. -/
def acquire (key : κ) : Flights κ :=
  match s.locks key with
  | some cell => { s with clients := s.clients ++ [⟨key, cell, .entered⟩] }
  | none => {
      locks := Function.update s.locks key (some s.next)
      next := s.next + 1
      clients := s.clients ++ [⟨key, s.next, .entered⟩] }

/-- Caller `i` moves on. -/
def Flights.move (i : Nat) (x : Client κ) (phase : Phase) : Flights κ :=
  { s with clients := s.clients.set i { x with phase } }

/-- `remove_if`. -/
def clean (i : Nat) (x : Client κ) : Flights κ :=
  match s.locks x.key with
  | some cell =>
      if strongCount s cell ≤ 2 then
        { s.move i x .cleaned with locks := Function.update s.locks x.key none }
      else s.move i x .cleaned
  | none => s.move i x .cleaned

/-- A step of the callers. -/
def step : Act κ → Option (Flights κ)
  | .acquire key => some (acquire s key)
  | .queue i => do
      let x ← s.clients[i]?
      if x.phase = .entered then some (s.move i x .waiting) else none
  | .lock i => do
      let x ← s.clients[i]?
      if x.phase = .waiting ∧ ∀ y ∈ s.clients, y.phase = .holding → y.cell ≠ x.cell then
        some (s.move i x .holding)
      else none
  | .cancel i => do
      let x ← s.clients[i]?
      if x.phase = .waiting then some (s.move i x .releasing) else none
  | .release i => do
      let x ← s.clients[i]?
      if x.phase = .holding then some (s.move i x .releasing) else none
  | .unref i => do
      let x ← s.clients[i]?
      if x.phase = .releasing then some (s.move i x .closing) else none
  | .clean i => do
      let x ← s.clients[i]?
      if x.phase = .closing then some (clean s i x) else none
  | .forget i => do
      let x ← s.clients[i]?
      if x.phase = .cleaned then some (s.move i x .gone) else none

/-- The steps in which a caller only moves on. -/
def Moves : Phase → Phase → Prop
  | .entered, .waiting | .waiting, .releasing | .holding, .releasing | .releasing, .closing
  | .cleaned, .gone => True
  | _, _ => False

variable {s} {s' : Flights κ} {a : Act κ} {x : Client κ} {i : Nat}

/-- What a step can do. -/
theorem step_cases (h : step s a = some s') :
    (∃ key, s' = acquire s key) ∨
      ∃ i x, s.clients[i]? = some x ∧
        ((∃ phase, Moves x.phase phase ∧ (x.phase = .holding → a = .release i) ∧ s' = s.move i x phase) ∨
          (a = .lock i ∧ x.phase = .waiting ∧ (∀ y ∈ s.clients, y.phase = .holding → y.cell ≠ x.cell) ∧
            s' = s.move i x .holding) ∨
          (a = .clean i ∧ x.phase = .closing ∧ s' = clean s i x)) := by
  cases a with
  | acquire key =>
      cases h
      exact .inl ⟨key, rfl⟩
  | lock i =>
      obtain ⟨x, hi, h⟩ := Option.bind_eq_some_iff.mp h
      obtain ⟨⟨hx, hfree⟩, h⟩ := Option.ite_none_right_eq_some.mp h
      exact .inr ⟨i, x, hi, .inr (.inl ⟨rfl, hx, hfree, (Option.some.inj h).symm⟩)⟩
  | clean i =>
      obtain ⟨x, hi, h⟩ := Option.bind_eq_some_iff.mp h
      obtain ⟨hx, h⟩ := Option.ite_none_right_eq_some.mp h
      exact .inr ⟨i, x, hi, .inr (.inr ⟨rfl, hx, (Option.some.inj h).symm⟩)⟩
  | release i =>
      obtain ⟨x, hi, h⟩ := Option.bind_eq_some_iff.mp h
      obtain ⟨hx, h⟩ := Option.ite_none_right_eq_some.mp h
      exact .inr ⟨i, x, hi, .inl ⟨_, by rw [hx]; trivial, fun _ => rfl, (Option.some.inj h).symm⟩⟩
  | queue i | cancel i | unref i | forget i =>
      obtain ⟨x, hi, h⟩ := Option.bind_eq_some_iff.mp h
      obtain ⟨hx, h⟩ := Option.ite_none_right_eq_some.mp h
      exact .inr ⟨i, x, hi, .inl ⟨_, by rw [hx]; trivial, by rw [hx]; exact nofun, (Option.some.inj h).symm⟩⟩

/-! ## One flight -/

/-- A caller that still has its clean-up to do. -/
def Phase.active : Phase → Prop
  | .cleaned | .gone => False
  | _ => True

theorem Moves.kept {p q : Phase} (h : Moves p q) : (q.active ↔ p.active) ∧ q ≠ .holding := by
  cases p <;> cases q <;> simp_all [Moves, Phase.active]

theorem Phase.active.refs_pos {p : Phase} (h : p.active) : 1 ≤ p.refs := by
  cases p <;> simp_all [Phase.active, Phase.refs]

/-- Two parts of a sum. -/
theorem add_le_sum_map {α : Type} {xs : List α} (f : α → Nat) {i j : Nat} {x y : α} (hi : xs[i]? = some x)
    (hj : xs[j]? = some y) (hij : i ≠ j) : f x + f y ≤ (xs.map f).sum := by
  induction xs generalizing i j with
  | nil => exact nomatch hi
  | cons z zs ih =>
      have hpart : ∀ {k : Nat} {w : α}, zs[k]? = some w → f w ≤ (zs.map f).sum := by
        intro k w hk
        obtain ⟨before, after, rfl, -⟩ := exists_set_eq hk
        rw [List.map_append, List.sum_append, List.map_cons, List.sum_cons]
        omega
      rw [List.map_cons, List.sum_cons]
      cases i with
      | zero =>
          cases hi
          cases j with
          | zero => exact absurd rfl hij
          | succ j => exact Nat.add_le_add_left (hpart (List.getElem?_cons_succ ▸ hj)) _
      | succ i =>
          cases j with
          | zero =>
              cases hj
              rw [Nat.add_comm]
              exact Nat.add_le_add_left (hpart (List.getElem?_cons_succ ▸ hi)) _
          | succ j =>
              have := ih (List.getElem?_cons_succ ▸ hi) (List.getElem?_cons_succ ▸ hj) fun h => hij (congrArg _ h)
              omega

/-- A sum that is more than one of its parts has another one. -/
theorem exists_of_lt_sum_map {α : Type} {xs : List α} (f : α → Nat) {x : α} (hi : xs[i]? = some x)
    (h : f x < (xs.map f).sum) : ∃ (j : Nat) (y : α), j ≠ i ∧ xs[j]? = some y ∧ 0 < f y := by
  by_contra hnone
  have hzero : ∀ j y, j ≠ i → xs[j]? = some y → f y = 0 := fun j y hji hj =>
    Nat.eq_zero_of_not_pos fun hpos => hnone ⟨j, y, hji, hj, hpos⟩
  refine absurd h (Nat.not_lt.mpr ?_)
  clear h hnone
  induction xs generalizing i with
  | nil => exact nomatch hi
  | cons z zs ih =>
      rw [List.map_cons, List.sum_cons]
      cases i with
      | zero =>
          cases hi
          have hrest : (zs.map f).sum = 0 := by
            refine List.sum_eq_zero fun n hn => ?_
            obtain ⟨y, hy, rfl⟩ := List.mem_map.mp hn
            obtain ⟨j, hj⟩ := List.getElem?_of_mem hy
            exact hzero (j + 1) y (Nat.succ_ne_zero j) (List.getElem?_cons_succ.trans hj)
          rw [hrest]
          exact Nat.le_refl _
      | succ i =>
          have hz : f z = 0 := hzero 0 z (Nat.succ_ne_zero i).symm rfl
          rw [hz, Nat.zero_add]
          exact ih (List.getElem?_cons_succ ▸ hi) fun j y hji hj =>
            hzero (j + 1) y (fun heq => hji (Nat.succ.inj heq)) (List.getElem?_cons_succ.trans hj)

omit [DecidableEq κ] in
/-- The references of two callers of one cell, and the entry's. -/
theorem refs_le_strongCount {i j : Nat} {x y : Client κ} (hi : s.clients[i]? = some x)
    (hj : s.clients[j]? = some y) (hij : i ≠ j) (hcell : y.cell = x.cell) :
    1 + (x.phase.refs + y.phase.refs) ≤ strongCount s x.cell := by
  have := add_le_sum_map (fun z : Client κ => if z.cell = x.cell then z.phase.refs else 0) hi hj hij
  rw [if_pos rfl, if_pos hcell] at this
  rw [strongCount]
  omega

/-- The callers that are not done have the cell of the entry of their key, and a cell has one holder. -/
structure Inv (s : Flights κ) : Prop where
  cell : ∀ x ∈ s.clients, x.phase.active → s.locks x.key = some x.cell
  single : ∀ (i j : Nat) (x y : Client κ), s.clients[i]? = some x → s.clients[j]? = some y → x.phase = .holding →
    y.phase = .holding → x.cell = y.cell → i = j

omit [DecidableEq κ] in
theorem inv_start : Inv (Flights.start : Flights κ) :=
  ⟨fun _ hx => absurd hx List.not_mem_nil, fun _ _ _ _ hi => nomatch hi⟩

/-- One more client. -/
theorem Inv.acquire (h : Inv s) (key : κ) : Inv (acquire s key) := by
  -- the new caller is not holding
  have hsingle : ∀ cell (i j : Nat) (x y : Client κ), (s.clients ++ [⟨key, cell, .entered⟩])[i]? = some x →
      (s.clients ++ [⟨key, cell, .entered⟩])[j]? = some y → x.phase = .holding → y.phase = .holding →
      x.cell = y.cell → i = j := by
    intro cell i j x y hi hj hx hy hcell
    rcases getElem?_of_snoc hi with ⟨-, rfl⟩ | hi
    · exact nomatch hx
    · rcases getElem?_of_snoc hj with ⟨-, rfl⟩ | hj
      · exact nomatch hy
      · exact h.single i j x y hi hj hx hy hcell
  rw [Singleflight.acquire]
  split
  next cell hcell =>
    refine ⟨fun x hx hactive => ?_, hsingle cell⟩
    rcases List.mem_append.mp hx with hx | hx
    · exact h.cell x hx hactive
    · rw [List.mem_singleton.mp hx]
      exact hcell
  next hnone =>
    refine ⟨fun x hx hactive => ?_, hsingle s.next⟩
    rcases List.mem_append.mp hx with hx | hx
    · -- a caller that is not done has an entry, so its key is another one
      have hlocks := h.cell x hx hactive
      have hne : x.key ≠ key := fun heq => by
        rw [heq, hnone] at hlocks
        exact nomatch hlocks
      show Function.update s.locks key (some s.next) x.key = some x.cell
      rw [Function.update_of_ne hne]
      exact hlocks
    · rw [List.mem_singleton.mp hx]
      exact Function.update_self ..

omit [DecidableEq κ] in
/-- A caller moves on, and no other caller takes the mutex of a cell that has a holder. -/
theorem Inv.move (h : Inv s) (hi : s.clients[i]? = some x) {phase : Phase}
    (hactive : phase.active → x.phase.active)
    (hholding : phase = .holding → ∀ y ∈ s.clients, y.phase = .holding → y.cell ≠ x.cell) :
    Inv (s.move i x phase) := by
  refine ⟨fun y hy hyactive => ?_, fun j k y z hj hk hy hz hcell => ?_⟩
  · rcases mem_of_set hy with rfl | hy
    · exact h.cell x (List.mem_of_getElem? hi) (hactive hyactive)
    · exact h.cell y hy hyactive
  · rcases getElem?_of_set hj with ⟨rfl, rfl⟩ | ⟨-, hj'⟩
    · rcases getElem?_of_set hk with ⟨rfl, rfl⟩ | ⟨-, hk'⟩
      · rfl
      · exact absurd hcell.symm (hholding hy z (List.mem_of_getElem? hk') hz)
    · rcases getElem?_of_set hk with ⟨rfl, rfl⟩ | ⟨-, hk'⟩
      · exact absurd hcell (hholding hz y (List.mem_of_getElem? hj') hy)
      · exact h.single j k y z hj' hk' hy hz hcell

/-- An entry that is removed has no other caller: each one would count as the third reference. -/
theorem Inv.clean (h : Inv s) (hi : s.clients[i]? = some x) (hx : x.phase = .closing) :
    Inv (clean s i x) := by
  have hlocks := h.cell x (List.mem_of_getElem? hi) (by rw [hx]; trivial)
  have hmove : Inv (s.move i x .cleaned) := h.move hi (fun hf => hf.elim) (fun hf => nomatch hf)
  rw [Singleflight.clean, hlocks]
  dsimp only
  split
  next hcount =>
    refine ⟨fun y hy hactive => ?_, hmove.single⟩
    have hne : y.key ≠ x.key := by
      intro heq
      obtain ⟨j, hj⟩ := List.getElem?_of_mem hy
      rcases getElem?_of_set hj with ⟨rfl, rfl⟩ | ⟨hji, hj⟩
      · exact hactive
      · have hcell : y.cell = x.cell := by
          have hy' := h.cell y (List.mem_of_getElem? hj) hactive
          rw [heq, hlocks] at hy'
          exact (Option.some.inj hy').symm
        have hrefs := refs_le_strongCount hi hj (Ne.symm hji) hcell
        have hown : x.phase.refs = 1 := by rw [hx]; rfl
        have hother := hactive.refs_pos
        omega
    have hlocks' := hmove.cell y hy hactive
    show Function.update s.locks x.key none y.key = some y.cell
    rw [Function.update_of_ne hne]
    exact hlocks'
  · exact hmove

/-- One step keeps the invariant. -/
theorem Inv.step (h : Inv s) (hs : Singleflight.step s a = some s') : Inv s' := by
  rcases step_cases hs with ⟨key, rfl⟩ | ⟨i, x, hi, ⟨phase, hmoves, -, rfl⟩ | ⟨-, hx, hfree, rfl⟩ | ⟨-, hx, rfl⟩⟩
  · exact h.acquire key
  · exact h.move hi hmoves.kept.1.mp fun hholding => absurd hholding hmoves.kept.2
  · exact h.move hi (fun _ => by rw [hx]; trivial) fun _ => hfree
  · exact h.clean hi hx

/-- The callers and the map reached from the start, in any order of steps that all meet `C`. -/
abbrev Reached (C : Flights κ → Act κ → Prop) : Flights κ → Prop := Reach step C .start

/-- So it holds in every run. -/
theorem Reached.inv {C : Flights κ → Act κ → Prop} (h : Reached C s) : Inv s :=
  Reach.inv inv_start (fun _ _ _ hi _ hs => hi.step hs) h

omit [DecidableEq κ] in
/-- The callers of one key that hold a mutex hold the same one. -/
theorem Inv.one (h : Inv s) {i j : Nat} {x y : Client κ} (hi : s.clients[i]? = some x)
    (hj : s.clients[j]? = some y) (hx : x.phase = .holding) (hy : y.phase = .holding) (hkey : x.key = y.key) :
    i = j := by
  have hxcell := h.cell x (List.mem_of_getElem? hi) (by rw [hx]; trivial)
  have hycell := h.cell y (List.mem_of_getElem? hj) (by rw [hy]; trivial)
  rw [hkey, hycell] at hxcell
  exact h.single i j x y hi hj hx hy (Option.some.inj hxcell).symm

/-- **ONE FLIGHT FOR EACH KEY**: however callers come, are cancelled while they wait and leave, two callers of
    one key are never past the mutex together, and the entry of a key is the cell of every caller of it that
    has not done its clean-up. -/
theorem one_flight {s : Flights κ} (h : Reached Any s) :
    (∀ (i j : Nat) (x y : Client κ), s.clients[i]? = some x → s.clients[j]? = some y → x.phase = .holding →
      y.phase = .holding → x.key = y.key → i = j) ∧
    ∀ x ∈ s.clients, x.phase.active → s.locks x.key = some x.cell :=
  ⟨fun _ _ _ _ hi hj hx hy => h.inv.one hi hj hx hy, h.inv.cell⟩

/-- A holder, and a caller that is cancelled while it waits. -/
def holderAndCancelled : List (Act Nat) :=
  [.acquire 0, .acquire 0, .queue 0, .lock 0, .queue 1, .cancel 1, .release 0, .unref 0, .unref 1]

theorem one_flight_cancelled : ∃ s : Flights Nat, Reached Any s ∧ s.clients.length = 2 ∧
    ∀ x ∈ s.clients, x.phase.active → s.locks x.key = some x.cell := by
  have hrun : ∃ s, Reach step Any (Flights.start : Flights Nat) s ∧ (s.clients.length == 2) = true :=
    Reach.of_test holderAndCancelled rfl
  obtain ⟨s, hs, ht⟩ := hrun
  exact ⟨s, hs, eq_of_beq ht, (one_flight hs).2⟩

/-! ## Entries without a caller -/

/-- At a clean-up no other caller of the cell is in its own one. -/
def Apart (s : Flights κ) : Act κ → Prop
  | .clean i => ∀ (j : Nat) (x y : Client κ), s.clients[i]? = some x → s.clients[j]? = some y → y.cell = x.cell →
      y.phase = .closing ∨ y.phase = .cleaned → j = i
  | _ => True

/-- Every entry has a caller that is to clean it up, and a cell belongs to one key. -/
structure Used (s : Flights κ) : Prop where
  used : ∀ k c, s.locks k = some c → ∃ x ∈ s.clients, x.key = k ∧ x.cell = c ∧ x.phase.active
  fresh : ∀ x ∈ s.clients, x.cell < s.next
  keyed : ∀ x ∈ s.clients, ∀ y ∈ s.clients, x.cell = y.cell → x.key = y.key

omit [DecidableEq κ] in
theorem used_start : Used (Flights.start : Flights κ) :=
  ⟨(fun _ _ hk => nomatch hk), fun _ hx => absurd hx List.not_mem_nil, fun _ hx => absurd hx List.not_mem_nil⟩

theorem Used.acquire (h : Used s) (key : κ) : Used (acquire s key) := by
  rw [Singleflight.acquire]
  split
  next cell hcell =>
    obtain ⟨z, hz, hzkey, hzcell, -⟩ := h.used key cell hcell
    refine ⟨fun k c hk => ?_, fun x hx => ?_, fun x hx y hy hxy => ?_⟩
    · obtain ⟨x, hx, hx'⟩ := h.used k c hk
      exact ⟨x, List.mem_append_left _ hx, hx'⟩
    · rcases List.mem_append.mp hx with hx | hx
      · exact h.fresh x hx
      · rw [List.mem_singleton.mp hx]
        exact hzcell ▸ h.fresh z hz
    · rcases List.mem_append.mp hx with hx | hx <;> rcases List.mem_append.mp hy with hy | hy
      · exact h.keyed x hx y hy hxy
      · rw [List.mem_singleton.mp hy] at hxy ⊢
        exact (h.keyed x hx z hz (hxy.trans hzcell.symm)).trans hzkey
      · rw [List.mem_singleton.mp hx] at hxy ⊢
        exact hzkey.symm.trans (h.keyed z hz y hy (hzcell.trans hxy))
      · rw [List.mem_singleton.mp hx, List.mem_singleton.mp hy]
  next hnone =>
    refine ⟨fun k c hk => ?_, fun x hx => ?_, fun x hx y hy hxy => ?_⟩
    · by_cases hkey : k = key
      · subst hkey
        have hc : some s.next = some c := (Function.update_self k (some s.next) s.locks).symm.trans hk
        exact ⟨_, List.mem_concat_self, rfl, Option.some.inj hc, trivial⟩
      · have hold : s.locks k = some c := (Function.update_of_ne hkey (some s.next) s.locks).symm.trans hk
        obtain ⟨x, hx, hx'⟩ := h.used k c hold
        exact ⟨x, List.mem_append_left _ hx, hx'⟩
    · rcases List.mem_append.mp hx with hx | hx
      · exact Nat.lt_succ_of_lt (h.fresh x hx)
      · rw [List.mem_singleton.mp hx]
        exact Nat.lt_succ_self _
    · rcases List.mem_append.mp hx with hx | hx <;> rcases List.mem_append.mp hy with hy | hy
      · exact h.keyed x hx y hy hxy
      · rw [List.mem_singleton.mp hy] at hxy
        exact absurd hxy (Nat.ne_of_lt (h.fresh x hx))
      · rw [List.mem_singleton.mp hx] at hxy
        exact absurd hxy.symm (Nat.ne_of_lt (h.fresh y hy))
      · rw [List.mem_singleton.mp hx, List.mem_singleton.mp hy]

omit [DecidableEq κ] in
/-- A caller moves on; the entry of its cell has it or another caller for the clean-up. -/
theorem Used.move (h : Used s) (hi : s.clients[i]? = some x) {phase : Phase}
    {locks : κ → Option Nat} (hlocks : ∀ k c, locks k = some c → s.locks k = some c)
    (hkept : ∀ k, locks k = some x.cell → (x.phase.active → phase.active) ∨
      ∃ (j : Nat) (y : Client κ), j ≠ i ∧ s.clients[j]? = some y ∧ y.cell = x.cell ∧ y.phase.active) :
    Used { s.move i x phase with locks } := by
  -- the callers before and behind the step, by key and cell
  have hback : ∀ y ∈ (s.move i x phase).clients, ∃ z ∈ s.clients, z.key = y.key ∧ z.cell = y.cell := by
    intro y hy
    rcases mem_of_set hy with rfl | hy
    · exact ⟨x, List.mem_of_getElem? hi, rfl, rfl⟩
    · exact ⟨y, hy, rfl, rfl⟩
  have hforth : ∀ j y, j ≠ i → s.clients[j]? = some y → y ∈ (s.move i x phase).clients := by
    intro j y hji hj
    refine List.mem_of_getElem? (i := j) ?_
    rw [Flights.move, List.getElem?_set_ne (Ne.symm hji)]
    exact hj
  have hself : { x with phase } ∈ (s.move i x phase).clients := by
    refine List.mem_of_getElem? (i := i) ?_
    rw [Flights.move, List.getElem?_set_self (List.getElem?_eq_some_iff.mp hi).1]
  refine ⟨fun k c hk => ?_, fun y hy => ?_, fun y hy z hz hyz => ?_⟩
  · obtain ⟨y, hy, hykey, rfl, hactive⟩ := h.used k c (hlocks k c hk)
    obtain ⟨j, hj⟩ := List.getElem?_of_mem hy
    by_cases hji : j = i
    · subst hji
      obtain rfl : x = y := Option.some.inj (hi.symm.trans hj)
      rcases hkept k hk with hphase | ⟨m, z, hm, hz, hzcell, hzactive⟩
      · exact ⟨_, hself, hykey, rfl, hphase hactive⟩
      · have hzkey : z.key = k := (h.keyed z (List.mem_of_getElem? hz) x hy hzcell).trans hykey
        exact ⟨z, hforth m z hm hz, hzkey, hzcell, hzactive⟩
    · exact ⟨y, hforth j y hji hj, hykey, rfl, hactive⟩
  · obtain ⟨z, hz, -, hcell⟩ := hback y hy
    exact hcell ▸ h.fresh z hz
  · obtain ⟨y', hy', hykey, hycell⟩ := hback y hy
    obtain ⟨z', hz', hzkey, hzcell⟩ := hback z hz
    rw [← hykey, ← hzkey]
    exact h.keyed y' hy' z' hz' (by rw [hycell, hzcell, hyz])

/-- What keeps an entry at a lone clean-up is a caller that is to do its own. -/
theorem Used.clean (h : Used s) (hinv : Inv s) (hi : s.clients[i]? = some x)
    (hx : x.phase = .closing) (hapart : Apart s (.clean i)) : Used (clean s i x) := by
  have hlocks := hinv.cell x (List.mem_of_getElem? hi) (by rw [hx]; trivial)
  rw [Singleflight.clean, hlocks]
  dsimp only
  split
  next hcount =>
    have hother : ∀ k c, Function.update s.locks x.key none k = some c → k ≠ x.key ∧ s.locks k = some c := by
      intro k c hk
      by_cases hkey : k = x.key
      · rw [hkey, Function.update_self] at hk
        exact nomatch hk
      · rw [Function.update_of_ne hkey] at hk
        exact ⟨hkey, hk⟩
    refine h.move hi (fun k c hk => (hother k c hk).2) fun k hk => ?_
    -- the cell belongs to the key of the caller alone
    obtain ⟨hkey, hk⟩ := hother k x.cell hk
    obtain ⟨y, hy, rfl, hcell, -⟩ := h.used k x.cell hk
    exact absurd (h.keyed y hy x (List.mem_of_getElem? hi) hcell) hkey
  next hcount =>
    refine h.move hi (fun k c hk => hk) fun k _ => .inr ?_
    have hown : x.phase.refs = 1 := by rw [hx]; rfl
    obtain ⟨j, y, hji, hj, hpos⟩ := exists_of_lt_sum_map
      (fun z : Client κ => if z.cell = x.cell then z.phase.refs else 0) hi (by
        rw [if_pos rfl, hown]
        rw [strongCount] at hcount
        omega)
    obtain ⟨hcell, hrefs⟩ : y.cell = x.cell ∧ 0 < y.phase.refs := by
      by_cases hcell : y.cell = x.cell
      · rw [if_pos hcell] at hpos
        exact ⟨hcell, hpos⟩
      · rw [if_neg hcell] at hpos
        exact absurd hpos (Nat.lt_irrefl 0)
    refine ⟨j, y, hji, hj, hcell, ?_⟩
    have hlone := hapart j x y hi hj hcell
    cases hphase : y.phase with
    | closing => exact absurd (hlone (.inl hphase)) hji
    | cleaned => exact absurd (hlone (.inr hphase)) hji
    | gone =>
        rw [hphase] at hrefs
        exact absurd hrefs (Nat.lt_irrefl 0)
    | entered | waiting | holding | releasing => trivial

/-- A step of clean-ups that do not overlap. -/
theorem Used.step (h : Used s) (hinv : Inv s) (hapart : Apart s a) (hs : Singleflight.step s a = some s') :
    Used s' := by
  rcases step_cases hs with ⟨key, rfl⟩ | ⟨i, x, hi, ⟨phase, hmoves, -, rfl⟩ | ⟨-, hx, hfree, rfl⟩ | ⟨rfl, hx, rfl⟩⟩
  · exact h.acquire key
  · exact h.move hi (fun k c hk => hk) fun k _ => .inl hmoves.kept.1.mpr
  · exact h.move hi (fun k c hk => hk) fun k _ => .inl fun _ => trivial
  · exact h.clean hinv hi hx hapart

/-- **THE MAP HOLDS THE KEYS IN USE**: in every run in which no two clean-ups of one cell overlap, a key has an
    entry exactly while a caller of it has its clean-up to do. -/
theorem entries_in_use {s : Flights κ} (h : Reached Apart s) (key : κ) :
    (∃ cell, s.locks key = some cell) ↔ ∃ x ∈ s.clients, x.key = key ∧ x.phase.active := by
  have hboth : Inv s ∧ Used s := by
    refine Reach.inv (I := fun s : Flights κ => Inv s ∧ Used s) ⟨inv_start, used_start⟩ ?_ h
    rintro s a s' ⟨hinv, hused⟩ hapart hs
    exact ⟨hinv.step hs, hused.step hinv hapart hs⟩
  constructor
  · rintro ⟨cell, hcell⟩
    obtain ⟨x, hx, hkey, -, hactive⟩ := hboth.2.used key cell hcell
    exact ⟨x, hx, hkey, hactive⟩
  · rintro ⟨x, hx, rfl, hactive⟩
    exact ⟨x.cell, hboth.1.cell x hx hactive⟩

omit [DecidableEq κ] in
/-- `Apart`, as a test over the callers there are. -/
theorem apart_clean_iff : Apart s (.clean i) ↔
    ∀ j ∈ List.range s.clients.length, ∀ y ∈ s.clients[j]?.toList, ∀ x ∈ s.clients[i]?.toList,
      y.cell = x.cell → y.phase = .closing ∨ y.phase = .cleaned → j = i := by
  constructor
  · intro h j _ y hy x hx
    exact h j x y (Option.mem_toList.mp hx) (Option.mem_toList.mp hy)
  · intro h j x y hi hj
    exact h j (List.mem_range.mpr (List.getElem?_eq_some_iff.mp hj).1) y (Option.mem_toList.mpr hj) x
      (Option.mem_toList.mpr hi)

instance (s : Flights κ) : (a : Act κ) → Decidable (Apart s a)
  | .clean _ => decidable_of_iff _ apart_clean_iff.symm
  | .acquire _ | .queue _ | .lock _ | .cancel _ | .release _ | .unref _ | .forget _ => .isTrue trivial

/-- Key 0 has two callers, of which one is cancelled, and a third one after both have cleaned up; key 1 has
    a holder all the time. -/
def callersInTurn : List (Act Nat) :=
  holderAndCancelled.take 6 ++ [.acquire 1, .queue 2, .lock 2, .unref 1, .clean 1, .forget 1, .release 0, .unref 0,
    .clean 0, .acquire 0, .queue 3]

theorem entries_in_use_callers : ∃ s : Flights Nat, Reached Apart s ∧ s.clients.length = 4 ∧
    s.locks 0 = some 2 ∧ s.locks 1 = some 1 ∧ s.locks 2 = none ∧
    ∀ key, (∃ cell, s.locks key = some cell) ↔ ∃ x ∈ s.clients, x.key = key ∧ x.phase.active := by
  have hrun : ∃ s, Reach step Apart (Flights.start : Flights Nat) s ∧
      (s.clients.length == 4 && s.locks 0 == some 2 && s.locks 1 == some 1 && s.locks 2 == none) = true :=
    Reach.of_test callersInTurn (by decide +kernel)
  obtain ⟨s, hs, htest⟩ := hrun
  simp only [Bool.and_eq_true, beq_iff_eq] at htest
  obtain ⟨⟨⟨hlen, h0⟩, h1⟩, h2⟩ := htest
  exact ⟨s, hs, hlen, h0, h1, h2, entries_in_use hs⟩

/-- TWO CLEAN-UPS THAT OVERLAP leave the entry behind: each one counts the `_lock` of the other. -/
theorem overlap_leaves_entry : ∃ s : Flights Nat, Reached Any s ∧
    (∀ x ∈ s.clients, x.phase = .gone) ∧ s.locks 0 = some 0 := by
  have hrun : ∃ s, Reach step Any (Flights.start : Flights Nat) s ∧
      ((s.clients.all fun x => x.phase == .gone) && s.locks 0 == some 0) = true :=
    Reach.of_test (holderAndCancelled ++ [.clean 0, .clean 1, .forget 0, .forget 1]) rfl
  obtain ⟨s, hs, ht⟩ := hrun
  obtain ⟨hgone, hlocks⟩ := Bool.and_eq_true_iff.mp ht
  exact ⟨s, hs, fun x hx => eq_of_beq (List.all_eq_true.mp hgone x hx), eq_of_beq hlocks⟩

/-! ## Loads -/

open AssocMaps (AssocMap)
open ComponentCache (MemoryCache MemoryState)

/-- What a caller did under the mutex. -/
inductive Work where
  | arrived
  /-- The memory cache does not have the key; what is on disk is looked at next. -/
  | missed
  | compiling
  | served
deriving DecidableEq

/-- The callers of `get_component` with the memory cache, the compilations that run on the blocking pool by
    caller and key, the keys compiled so far, and the compilations given up. -/
structure Loads (κ γ : Type) where
  flights : Flights κ
  memory : MemoryState κ γ
  work : Nat → Work
  running : List (Nat × κ)
  compiled : List κ
  failed : List (Nat × κ)

def Loads.start : Loads κ γ := ⟨.start, .default, fun _ => .arrived, [], [], []⟩

inductive LoadAct (κ γ : Type) where
  | flight (a : Act κ)
  /-- The look before the mutex. -/
  | look (key : κ)
  /-- `deserialize_disk_hit`, before the mutex or under it. -/
  | diskHit (key : κ) (component : γ) (bytes : Nat)
  /-- The look under the mutex. -/
  | check (i : Nat)
  /-- `spawn_blocking`. -/
  | compile (i : Nat)
  /-- The task of caller `i` is over, whether or not anyone waits for it. -/
  | compiled (i : Nat)
  | finish (i : Nat) (component : γ) (bytes : Nat)

/-- The compilation that is given up with its guard: it failed, or its caller was cancelled. -/
def givenUp (s : Loads κ γ) : Act κ → List (Nat × κ)
  | .release i =>
      ((s.flights.clients[i]?).filter fun _ => s.work i = .compiling).toList.map fun x => (i, x.key)
  | _ => []

/-- `memory.get`, where the memory cache is enabled. -/
def lookUp (c : Option MemoryCache) (s : MemoryState κ γ) (key : κ) : Option γ × MemoryState κ γ :=
  match c with
  | some _ => MemoryCache.get s key
  | none => (none, s)

/-- `memory.insert`, where the memory cache is enabled. -/
def keep (c : Option MemoryCache) (s : MemoryState κ γ) (key : κ) (component : γ) (bytes : Nat) :
    MemoryState κ γ :=
  match c with
  | some c => c.insert s key component bytes false
  | none => s

/-- A step of `get_component`. -/
def loadStep (c : Option MemoryCache) (s : Loads κ γ) : LoadAct κ γ → Option (Loads κ γ)
  | .flight a => do
      let flights ← step s.flights a
      some { s with flights, failed := s.failed ++ givenUp s a }
  | .look key => some { s with memory := (lookUp c s.memory key).2 }
  | .diskHit key component bytes => some { s with memory := keep c s.memory key component bytes }
  | .check i => do
      let x ← s.flights.clients[i]?
      if x.phase = .holding ∧ s.work i = .arrived then
        let found := lookUp c s.memory x.key
        some { s with
          memory := found.2
          work := Function.update s.work i (if found.1.isSome then .served else .missed) }
      else none
  | .compile i => do
      let x ← s.flights.clients[i]?
      if x.phase = .holding ∧ s.work i = .missed then
        some { s with
          work := Function.update s.work i .compiling
          running := s.running ++ [(i, x.key)]
          compiled := s.compiled ++ [x.key] }
      else none
  | .compiled i =>
      if ∃ task ∈ s.running, task.1 = i then
        some { s with running := s.running.filter fun task => task.1 ≠ i }
      else none
  | .finish i component bytes => do
      let x ← s.flights.clients[i]?
      if x.phase = .holding ∧ s.work i = .compiling ∧ ∀ task ∈ s.running, task.1 ≠ i then
        some { s with
          memory := keep c s.memory x.key component bytes
          work := Function.update s.work i .served }
      else none

/-- How many compilations of a key were given up. -/
def failures (s : Loads κ γ) (key : κ) : Nat := s.failed.countP fun f => f.2 = key

/-- How often a key was evicted. -/
def losses (s : MemoryState κ γ) (key : κ) : Nat := s.evicted.countP fun e => e.key = key

/-- The evictions of a key, and the entry it has. -/
def stays (s : MemoryState κ γ) (key : κ) : Nat := losses s key + if (s.entries.get? key).isSome then 1 else 0

theorem losses_le_stays (s : MemoryState κ γ) (key : κ) : losses s key ≤ stays s key := Nat.le_add_right ..

theorem stays_le (s : MemoryState κ γ) (key : κ) : stays s key ≤ losses s key + 1 := by
  rw [stays]
  split <;> omega

theorem get_stays (s : MemoryState κ γ) (key k : κ) :
    losses (MemoryCache.get s key).2 k = losses s k ∧ stays (MemoryCache.get s key).2 k = stays s k := by
  rw [MemoryCache.get]
  split
  next entry hentry =>
    refine ⟨rfl, ?_⟩
    by_cases hk : k = key
    · subst hk
      simp only [stays, losses, AssocMap.get?_insert_self, hentry]
      rfl
    · simp only [stays, losses, AssocMap.get?_insert_of_ne hk]
  · exact ⟨rfl, rfl⟩

/-- An evicted key has no entry left and one more eviction. -/
theorem evict_stays (s : MemoryState κ γ) (candidate k : κ) :
    losses s k ≤ losses (ComponentCache.evict s candidate) k ∧
      stays (ComponentCache.evict s candidate) k = stays s k := by
  rw [ComponentCache.evict]
  split
  · exact ⟨Nat.le_refl _, rfl⟩
  next entry hentry =>
    by_cases hk : candidate = k
    · subst hk
      simp [losses, stays, hentry]
    · simp [losses, stays, hk, AssocMap.get?_erase_of_ne (Ne.symm hk)]

/-- What is put into the cache is there, or was evicted since. -/
theorem insert_stays (c : MemoryCache) (s : MemoryState κ γ) (key : κ) (component : γ) (bytes : Nat) (k : κ) :
    losses s k ≤ losses (c.insert s key component bytes false) k ∧
      stays s k ≤ stays (c.insert s key component bytes false) k ∧
      losses s key + 1 ≤ stays (c.insert s key component bytes false) key := by
  have hpass : ∀ (protectLfu : Bool) (attempts : Nat) (m : MemoryState κ γ) (j : κ),
      losses m j ≤ losses (c.evictPass protectLfu attempts m) j ∧
        stays (c.evictPass protectLfu attempts m) j = stays m j := by
    intro protectLfu attempts m j
    refine ComponentCache.evictPass_inv (I := fun m' => losses m j ≤ losses m' j ∧ stays m' j = stays m j)
      (fun m' lru k h _ _ => h) (fun m' lru k h _ _ => ?_) attempts m ⟨Nat.le_refl _, rfl⟩
    obtain ⟨hlosses, hstays⟩ := evict_stays { m' with lru } k j
    exact ⟨Nat.le_trans h.1 hlosses, hstays.trans h.2⟩
  have hevict : ∀ (m : MemoryState κ γ) (j : κ),
      losses m j ≤ losses (c.evictIfNeeded m) j ∧ stays (c.evictIfNeeded m) j = stays m j := by
    intro m j
    rw [MemoryCache.evictIfNeeded]
    split
    · exact ⟨Nat.le_refl _, rfl⟩
    · dsimp only
      obtain ⟨hlosses, hstays⟩ := hpass true m.lru.length m j
      split
      · exact ⟨hlosses, hstays⟩
      · obtain ⟨hlosses', hstays'⟩ := hpass false _ (c.evictPass true m.lru.length m) j
        exact ⟨Nat.le_trans hlosses hlosses', hstays'.trans hstays⟩
  have hput : ∀ j, losses (MemoryCache.put s key component bytes false) j = losses s j ∧
      (MemoryCache.put s key component bytes false).entries.get? j =
        if j = key then some ⟨component, bytes, 0, false, s.clock⟩ else s.entries.get? j := by
    intro j
    rw [MemoryCache.put]
    by_cases hj : j = key
    · subst hj
      split <;> exact ⟨rfl, by rw [if_pos rfl, AssocMap.get?_insert_self]⟩
    · rw [if_neg hj]
      split
      · exact ⟨rfl, by rw [AssocMap.get?_insert_of_ne hj, AssocMap.get?_erase_of_ne hj]⟩
      · exact ⟨rfl, by rw [AssocMap.get?_insert_of_ne hj]⟩
  rw [MemoryCache.insert]
  refine ⟨?_, ?_, ?_⟩
  · rw [← (hput k).1]
    exact (hevict _ k).1
  · rw [(hevict _ k).2]
    by_cases hk : k = key
    · refine Nat.le_trans (stays_le s k) ?_
      rw [stays, (hput k).1, (hput k).2, if_pos hk]
      exact Nat.le_refl _
    · rw [stays, stays, (hput k).1, (hput k).2, if_neg hk]
  · rw [(hevict _ key).2, stays, (hput key).1, (hput key).2, if_pos rfl]
    exact Nat.le_refl _

/-! ## Compilations -/

/-- The books of the compilations of every key. -/
structure Compiled (s : Loads κ γ) : Prop where
  flights : Inv s.flights
  /-- A caller that waits has not looked under the mutex. -/
  arrived : ∀ (i : Nat) (x : Client κ), s.flights.clients[i]? = some x → x.phase = .entered ∨ x.phase = .waiting →
    s.work i = .arrived
  unborn : ∀ i, s.flights.clients.length ≤ i → s.work i = .arrived
  /-- No compilation of the key is running. -/
  idle : ∀ k, (∀ (i : Nat) (x : Client κ), s.flights.clients[i]? = some x → x.phase = .holding → x.key = k →
    s.work i ≠ .compiling) → s.compiled.count k ≤ stays s.memory k + failures s k
  missed : ∀ (i : Nat) (x : Client κ), s.flights.clients[i]? = some x → x.phase = .holding → s.work i = .missed →
    s.compiled.count x.key ≤ losses s.memory x.key + failures s x.key
  compiling : ∀ (i : Nat) (x : Client κ), s.flights.clients[i]? = some x → x.phase = .holding →
    s.work i = .compiling → s.compiled.count x.key ≤ losses s.memory x.key + failures s x.key + 1

variable {c : MemoryCache} {t t' : Loads κ γ}

theorem compiled_start : Compiled (Loads.start : Loads κ γ) where
  flights := inv_start
  arrived := fun _ _ _ _ => rfl
  unborn := fun _ _ => rfl
  idle := fun _ _ => Nat.zero_le _
  missed := fun _ _ hi => nomatch hi
  compiling := fun _ _ hi => nomatch hi

/-- The memory cache changes, and no key gets worse. -/
theorem Compiled.memory (h : Compiled t) {memory : MemoryState κ γ} (hlosses : ∀ k, losses t.memory k ≤ losses memory k)
    (hstays : ∀ k, stays t.memory k ≤ stays memory k) : Compiled { t with memory } where
  flights := h.flights
  arrived := h.arrived
  unborn := h.unborn
  idle := fun k hidle => Nat.le_trans (h.idle k hidle) (Nat.add_le_add_right (hstays k) _)
  missed := fun i x hi hx hw => Nat.le_trans (h.missed i x hi hx hw) (Nat.add_le_add_right (hlosses _) _)
  compiling := fun i x hi hx hw =>
    Nat.le_trans (h.compiling i x hi hx hw) (Nat.add_le_add_right (Nat.add_le_add_right (hlosses _) _) 1)

theorem clean_clients (s : Flights κ) (i : Nat) (x : Client κ) : (clean s i x).clients = (s.move i x .cleaned).clients := by
  rw [clean]
  split
  · split <;> rfl
  · rfl

theorem clients_length_le {s s' : Flights κ} {a : Act κ} (h : step s a = some s') :
    s.clients.length ≤ s'.clients.length := by
  rcases step_cases h with ⟨key, rfl⟩ | ⟨i, x, hi, ⟨phase, -, -, rfl⟩ | ⟨-, -, -, rfl⟩ | ⟨-, -, rfl⟩⟩
  · rw [acquire]
    split <;> simp
  · rw [Flights.move, List.length_set]
  · rw [Flights.move, List.length_set]
  · rw [clean_clients, Flights.move, List.length_set]

/-- A caller behind a step is new, unchanged, or one that has moved on. -/
theorem client_before {s s' : Flights κ} {a : Act κ} (h : step s a = some s')
    (hi : s'.clients[i]? = some x) :
    (s.clients.length ≤ i ∧ x.phase = .entered) ∨ s.clients[i]? = some x ∨
      ∃ y, s.clients[i]? = some y ∧ (Moves y.phase x.phase ∨ (y.phase = .waiting ∧ x.phase = .holding) ∨
        x.phase = .cleaned) := by
  rcases step_cases h with ⟨key, rfl⟩ | ⟨j, y, hj, ⟨phase, hmoves, -, rfl⟩ | ⟨-, hy, -, rfl⟩ | ⟨-, -, rfl⟩⟩
  · rw [acquire] at hi
    split at hi
    · rcases getElem?_of_snoc hi with ⟨rfl, rfl⟩ | hi
      · exact .inl ⟨Nat.le_refl _, rfl⟩
      · exact .inr (.inl hi)
    · rcases getElem?_of_snoc hi with ⟨rfl, rfl⟩ | hi
      · exact .inl ⟨Nat.le_refl _, rfl⟩
      · exact .inr (.inl hi)
  · rcases getElem?_of_set hi with ⟨rfl, rfl⟩ | ⟨-, hi⟩
    · exact .inr (.inr ⟨y, hj, .inl hmoves⟩)
    · exact .inr (.inl hi)
  · rcases getElem?_of_set hi with ⟨rfl, rfl⟩ | ⟨-, hi⟩
    · exact .inr (.inr ⟨y, hj, .inr (.inl ⟨hy, rfl⟩)⟩)
    · exact .inr (.inl hi)
  · rw [clean_clients] at hi
    rcases getElem?_of_set hi with ⟨rfl, rfl⟩ | ⟨-, hi⟩
    · exact .inr (.inr ⟨y, hj, .inr (.inr rfl)⟩)
    · exact .inr (.inl hi)

/-- A holder stays one until its guard is dropped. -/
theorem holding_after {s s' : Flights κ} {a : Act κ} (h : step s a = some s')
    (hi : s.clients[i]? = some x) (hx : x.phase = .holding) : s'.clients[i]? = some x ∨ a = .release i := by
  have hother : ∀ {j : Nat} {y : Client κ}, s.clients[j]? = some y → y.phase ≠ .holding → ∀ phase,
      (s.move j y phase).clients[i]? = some x := by
    intro j y hj hy phase
    have hji : j ≠ i := by
      rintro rfl
      rw [hi] at hj
      exact hy (Option.some.inj hj ▸ hx)
    rw [Flights.move, List.getElem?_set_ne hji]
    exact hi
  rcases step_cases h with ⟨key, rfl⟩ | ⟨j, y, hj, ⟨phase, -, hrelease, rfl⟩ | ⟨-, hy, -, rfl⟩ | ⟨-, hy, rfl⟩⟩
  · rw [acquire]
    have hlt := (List.getElem?_eq_some_iff.mp hi).1
    split
    · exact .inl ((List.getElem?_append_left hlt).trans hi)
    · exact .inl ((List.getElem?_append_left hlt).trans hi)
  · by_cases hyholding : y.phase = .holding
    · obtain rfl := hrelease hyholding
      by_cases hji : j = i
      · exact .inr (by rw [hji])
      · rw [Flights.move, List.getElem?_set_ne hji]
        exact .inl hi
    · exact .inl (hother hj hyholding phase)
  · exact .inl (hother hj (by rw [hy]; exact nofun) _)
  · rw [clean_clients]
    exact .inl (hother hj (by rw [hy]; exact nofun) _)

omit [DecidableEq κ] in
theorem givenUp_release {t : Loads κ γ} (hi : t.flights.clients[i]? = some x)
    (hw : t.work i = .compiling) : givenUp t (.release i) = [(i, x.key)] := by
  rw [givenUp, hi, Option.filter_some, if_pos (decide_eq_true hw)]
  rfl

theorem Compiled.flight (h : Compiled t) {a : Act κ} {flights : Flights κ} (hs : step t.flights a = some flights) :
    Compiled { t with flights, failed := t.failed ++ givenUp t a } := by
  have hfailed : ∀ k, failures t k ≤ failures { t with flights, failed := t.failed ++ givenUp t a } k := fun k => by
    rw [failures, failures, List.countP_append]
    exact Nat.le_add_right ..
  -- a caller with work behind it was holding before
  have hheld : ∀ (i : Nat) (x : Client κ), flights.clients[i]? = some x → x.phase = .holding → t.work i ≠ .arrived →
      t.flights.clients[i]? = some x := by
    intro i x hi hx hw
    rcases client_before hs hi with ⟨-, hentered⟩ | hsame | ⟨y, hy, hmoves | ⟨hwaiting, -⟩ | hcleaned⟩
    · rw [hx] at hentered
      exact nomatch hentered
    · exact hsame
    · exact absurd hx hmoves.kept.2
    · exact absurd (h.arrived i y hy (.inr hwaiting)) hw
    · rw [hx] at hcleaned
      exact nomatch hcleaned
  refine ⟨h.flights.step hs, fun i x hi hx => ?_, fun i hi => h.unborn i (Nat.le_trans (clients_length_le hs) hi),
    fun k hidle => ?_, fun i x hi hx hw => ?_, fun i x hi hx hw => ?_⟩
  · rcases client_before hs hi with ⟨hnew, -⟩ | hsame | ⟨y, hy, hmoves | ⟨-, hholding⟩ | hcleaned⟩
    · exact h.unborn i hnew
    · exact h.arrived i x hsame hx
    · refine h.arrived i y hy ?_
      rcases hx with hx | hx <;> rw [hx] at hmoves <;> revert hmoves <;> cases y.phase <;> simp [Moves]
    · rcases hx with hx | hx <;> rw [hx] at hholding <;> exact nomatch hholding
    · rcases hx with hx | hx <;> rw [hx] at hcleaned <;> exact nomatch hcleaned
  · by_cases hrunning : ∃ (i : Nat) (x : Client κ), t.flights.clients[i]? = some x ∧ x.phase = .holding ∧ x.key = k ∧
        t.work i = .compiling
    · obtain ⟨i, x, hi, hx, rfl, hw⟩ := hrunning
      rcases holding_after hs hi hx with hstill | rfl
      · exact absurd hw (hidle i x hstill hx rfl)
      · -- the compilation was given up, and is one of the failures
        have hbound := h.compiling i x hi hx hw
        have hstays := losses_le_stays t.memory x.key
        rw [failures] at hbound ⊢
        rw [givenUp_release hi hw, List.countP_append, List.countP_singleton, if_pos (decide_eq_true rfl)]
        dsimp only
        omega
    · refine Nat.le_trans (h.idle k fun i x hi hx hk hw => hrunning ⟨i, x, hi, hx, hk, hw⟩) ?_
      exact Nat.add_le_add_left (hfailed k) _
  · have hbound := h.missed i x (hheld i x hi hx (by rw [hw]; exact nofun)) hx hw
    exact Nat.le_trans hbound (Nat.add_le_add_left (hfailed _) _)
  · have hbound := h.compiling i x (hheld i x hi hx (by rw [hw]; exact nofun)) hx hw
    exact Nat.le_trans hbound (Nat.add_le_add_right (Nat.add_le_add_left (hfailed _) _) 1)

/-- The holder of the mutex of a key takes a step: the books of the other keys stay. -/
theorem Compiled.work (h : Compiled t) (hi : t.flights.clients[i]? = some x)
    (hx : x.phase = .holding) {w : Work} {memory : MemoryState κ γ} {running : List (Nat × κ)} {compiled : List κ}
    (hlosses : ∀ k, losses t.memory k ≤ losses memory k)
    (hother : ∀ k, k ≠ x.key → compiled.count k = t.compiled.count k ∧ stays t.memory k ≤ stays memory k)
    (hidle : w ≠ .compiling → compiled.count x.key ≤ stays memory x.key + failures t x.key)
    (hmissed : w = .missed → compiled.count x.key ≤ losses memory x.key + failures t x.key)
    (hcompiling : w = .compiling → compiled.count x.key ≤ losses memory x.key + failures t x.key + 1) :
    Compiled { t with memory, work := Function.update t.work i w, running, compiled } := by
  -- another holder has another key
  have hapart : ∀ (j : Nat) (y : Client κ), t.flights.clients[j]? = some y → y.phase = .holding → j ≠ i →
      y.key ≠ x.key := fun j y hj hy hji hkey => hji (h.flights.one hj hi hy hx hkey)
  refine ⟨h.flights, fun j y hj hy => ?_, fun j hj => ?_, fun k hk => ?_, fun j y hj hy hw => ?_,
    fun j y hj hy hw => ?_⟩
  · have hji : j ≠ i := by
      rintro rfl
      obtain rfl := Option.some.inj (hi.symm.trans hj)
      rcases hy with hy | hy <;> rw [hx] at hy <;> exact nomatch hy
    exact (Function.update_of_ne hji ..).trans (h.arrived j y hj hy)
  · have hji : j ≠ i := by
      rintro rfl
      exact absurd (List.getElem?_eq_some_iff.mp hi).1 (Nat.not_lt.mpr hj)
    exact (Function.update_of_ne hji ..).trans (h.unborn j hj)
  · by_cases hkey : k = x.key
    · rw [hkey]
      refine hidle ?_
      have hself := hk i x hi hx hkey.symm
      dsimp only at hself
      rwa [Function.update_self] at hself
    · obtain ⟨hsame, hstays⟩ := hother k hkey
      dsimp only
      rw [hsame]
      refine Nat.le_trans (h.idle k fun j y hj hy hyk hw => ?_) (Nat.add_le_add_right hstays _)
      have hji : j ≠ i := by
        rintro rfl
        obtain rfl := Option.some.inj (hi.symm.trans hj)
        exact hkey hyk.symm
      exact hk j y hj hy hyk ((Function.update_of_ne hji ..).trans hw)
  · by_cases hji : j = i
    · subst hji
      obtain rfl := Option.some.inj (hi.symm.trans hj)
      exact hmissed ((Function.update_self ..).symm.trans hw)
    · have hkey := hapart j y hj hy hji
      dsimp only at hw ⊢
      rw [Function.update_of_ne hji] at hw
      rw [(hother _ hkey).1]
      exact Nat.le_trans (h.missed j y hj hy hw) (Nat.add_le_add_right (hlosses _) _)
  · by_cases hji : j = i
    · subst hji
      obtain rfl := Option.some.inj (hi.symm.trans hj)
      exact hcompiling ((Function.update_self ..).symm.trans hw)
    · have hkey := hapart j y hj hy hji
      dsimp only at hw ⊢
      rw [Function.update_of_ne hji] at hw
      rw [(hother _ hkey).1]
      exact Nat.le_trans (h.compiling j y hj hy hw) (Nat.add_le_add_right (Nat.add_le_add_right (hlosses _) _) 1)

/-- While the holder of a key is not compiling it, nobody is. -/
theorem Compiled.idle_of_holder (h : Compiled t) (hi : t.flights.clients[i]? = some x)
    (hx : x.phase = .holding) (hw : t.work i ≠ .compiling) :
    t.compiled.count x.key ≤ stays t.memory x.key + failures t x.key := by
  refine h.idle x.key fun j y hj hy hkey hyw => ?_
  obtain rfl := h.flights.one hj hi hy hx hkey
  exact hw hyw

theorem Compiled.check (h : Compiled t) (hi : t.flights.clients[i]? = some x)
    (hx : x.phase = .holding) (hw : t.work i = .arrived) :
    Compiled { t with
      memory := (MemoryCache.get t.memory x.key).2
      work := Function.update t.work i (if (MemoryCache.get t.memory x.key).1.isSome then .served else .missed) } := by
  have hidle := h.idle_of_holder hi hx (by rw [hw]; intro h; cases h)
  have hget := get_stays t.memory x.key
  refine h.work hi hx (fun k => Nat.le_of_eq (hget k).1.symm) (fun k _ => ⟨rfl, Nat.le_of_eq (hget k).2.symm⟩) ?_ ?_ ?_
  · intro _
    rw [(hget _).2]
    exact hidle
  · intro hmissed
    -- the key has no entry, so what stays of it are its evictions
    have hnone : t.memory.entries.get? x.key = none := by
      cases hentry : t.memory.entries.get? x.key with
      | none => rfl
      | some entry => simp [MemoryCache.get, hentry] at hmissed
    rw [(hget _).1]
    rw [stays, hnone] at hidle
    exact hidle
  · intro hcompiling
    split at hcompiling <;> cases hcompiling

/-- One step of a load. -/
theorem Compiled.step (h : Compiled t) {a : LoadAct κ γ} (hs : loadStep (some c) t a = some t') : Compiled t' := by
  cases a with
  | flight a =>
      obtain ⟨flights, hflights, hs⟩ := Option.bind_eq_some_iff.mp hs
      obtain rfl := Option.some.inj hs
      exact h.flight hflights
  | look key =>
      obtain rfl := Option.some.inj hs
      exact h.memory (fun k => Nat.le_of_eq (get_stays t.memory key k).1.symm)
        fun k => Nat.le_of_eq (get_stays t.memory key k).2.symm
  | diskHit key component bytes =>
      obtain rfl := Option.some.inj hs
      exact h.memory (fun k => (insert_stays c t.memory key component bytes k).1)
        fun k => (insert_stays c t.memory key component bytes k).2.1
  | check i =>
      obtain ⟨x, hi, hs⟩ := Option.bind_eq_some_iff.mp hs
      obtain ⟨⟨hx, hw⟩, hs⟩ := Option.ite_none_right_eq_some.mp hs
      obtain rfl := Option.some.inj hs
      exact h.check hi hx hw
  | compile i =>
      obtain ⟨x, hi, hs⟩ := Option.bind_eq_some_iff.mp hs
      obtain ⟨⟨hx, hw⟩, hs⟩ := Option.ite_none_right_eq_some.mp hs
      obtain rfl := Option.some.inj hs
      have hmissed := h.missed i x hi hx hw
      refine h.work hi hx (fun _ => Nat.le_refl _) (fun k hk => ⟨?_, Nat.le_refl _⟩) (fun hne => absurd rfl hne)
        (fun heq => nomatch heq) fun _ => ?_
      · rw [List.count_append, List.count_singleton, if_neg (by simpa using Ne.symm hk), Nat.add_zero]
      · rw [List.count_append, List.count_singleton_self]
        exact Nat.add_le_add_right hmissed 1
  | compiled i =>
      obtain ⟨-, hs⟩ := Option.ite_none_right_eq_some.mp hs
      obtain rfl := Option.some.inj hs
      exact ⟨h.flights, h.arrived, h.unborn, h.idle, h.missed, h.compiling⟩
  | finish i component bytes =>
      obtain ⟨x, hi, hs⟩ := Option.bind_eq_some_iff.mp hs
      obtain ⟨⟨hx, hw, -⟩, hs⟩ := Option.ite_none_right_eq_some.mp hs
      obtain rfl := Option.some.inj hs
      have hcompiling := h.compiling i x hi hx hw
      have hinsert := insert_stays c t.memory x.key component bytes
      refine h.work hi hx (fun k => (hinsert k).1) (fun k _ => ⟨rfl, (hinsert k).2.1⟩) (fun _ => ?_)
        (fun heq => nomatch heq) fun heq => nomatch heq
      have hstays : losses t.memory x.key + 1 ≤ stays (keep (some c) t.memory x.key component bytes) x.key :=
        (hinsert x.key).2.2
      omega

/-! ## Compilations that run -/

/-- A caller keeps its key. -/
theorem key_after {s s' : Flights κ} {a : Act κ} (h : step s a = some s')
    (hi : s.clients[i]? = some x) : ∃ y, s'.clients[i]? = some y ∧ y.key = x.key := by
  have hlt := (List.getElem?_eq_some_iff.mp hi).1
  have hmove : ∀ {j : Nat} {y : Client κ} (phase : Phase), s.clients[j]? = some y →
      ∃ z, (s.move j y phase).clients[i]? = some z ∧ z.key = x.key := by
    intro j y phase hj
    by_cases hji : j = i
    · subst hji
      obtain rfl := Option.some.inj (hi.symm.trans hj)
      exact ⟨_, List.getElem?_set_self hlt, rfl⟩
    · exact ⟨x, (List.getElem?_set_ne hji).trans hi, rfl⟩
  rcases step_cases h with ⟨key, rfl⟩ | ⟨j, y, hj, ⟨phase, -, -, rfl⟩ | ⟨-, -, -, rfl⟩ | ⟨-, -, rfl⟩⟩
  · refine ⟨x, ?_, rfl⟩
    rw [acquire]
    split
    · exact (List.getElem?_append_left hlt).trans hi
    · exact (List.getElem?_append_left hlt).trans hi
  · exact hmove phase hj
  · exact hmove .holding hj
  · rw [clean_clients]
    exact hmove .cleaned hj

/-- A compilation that runs has a caller that holds the mutex of its key, or was given up. -/
structure Attended (s : Loads κ γ) : Prop where
  flights : Inv s.flights
  nodup : s.running.Nodup
  task : ∀ task ∈ s.running, s.work task.1 = .compiling ∧ ∃ x, s.flights.clients[task.1]? = some x ∧
    x.key = task.2 ∧ (x.phase = .holding ∨ task ∈ s.failed)

omit [DecidableEq κ] in
theorem attended_start : Attended (Loads.start : Loads κ γ) :=
  ⟨inv_start, List.nodup_nil, fun _ htask => absurd htask List.not_mem_nil⟩

omit [DecidableEq κ] in
/-- A caller without a running compilation takes a step. -/
theorem Attended.work (h : Attended t) {w : Work} (hi : ∀ task ∈ t.running, task.1 ≠ i)
    (memory : MemoryState κ γ) : Attended { t with memory, work := Function.update t.work i w } := by
  refine ⟨h.flights, h.nodup, fun task htask => ?_⟩
  obtain ⟨hw, hcaller⟩ := h.task task htask
  exact ⟨(Function.update_of_ne (hi task htask) ..).trans hw, hcaller⟩

omit [DecidableEq κ] in
theorem Attended.idle (h : Attended t) (hw : t.work i ≠ .compiling) : ∀ task ∈ t.running, task.1 ≠ i := by
  rintro task htask rfl
  exact hw (h.task task htask).1

theorem Attended.flight (h : Attended t) {a : Act κ} {flights : Flights κ} (hs : step t.flights a = some flights) :
    Attended { t with flights, failed := t.failed ++ givenUp t a } := by
  refine ⟨h.flights.step hs, h.nodup, fun task htask => ?_⟩
  obtain ⟨hw, x, hx, hkey, hcaller⟩ := h.task task htask
  obtain ⟨y, hy, hykey⟩ := key_after hs hx
  refine ⟨hw, y, hy, hykey.trans hkey, ?_⟩
  rcases hcaller with hholding | hfailed
  · rcases holding_after hs hx hholding with hstill | rfl
    · obtain rfl := Option.some.inj (hy.symm.trans hstill)
      exact .inl hholding
    · refine .inr (List.mem_append_right _ ?_)
      rw [givenUp_release hx hw, hkey]
      exact List.mem_singleton_self _
  · exact .inr (List.mem_append_left _ hfailed)

/-- One step keeps every compilation attended. -/
theorem Attended.step {c : Option MemoryCache} (h : Attended t) {a : LoadAct κ γ} (hs : loadStep c t a = some t') :
    Attended t' := by
  cases a with
  | flight a =>
      obtain ⟨flights, hflights, hs⟩ := Option.bind_eq_some_iff.mp hs
      obtain rfl := Option.some.inj hs
      exact h.flight hflights
  | look key =>
      obtain rfl := Option.some.inj hs
      exact ⟨h.flights, h.nodup, h.task⟩
  | diskHit key component bytes =>
      obtain rfl := Option.some.inj hs
      exact ⟨h.flights, h.nodup, h.task⟩
  | check i =>
      obtain ⟨x, hi, hs⟩ := Option.bind_eq_some_iff.mp hs
      obtain ⟨⟨hx, hw⟩, hs⟩ := Option.ite_none_right_eq_some.mp hs
      obtain rfl := Option.some.inj hs
      exact h.work (h.idle (by rw [hw]; intro hne; cases hne)) _
  | compile i =>
      obtain ⟨x, hi, hs⟩ := Option.bind_eq_some_iff.mp hs
      obtain ⟨⟨hx, hw⟩, hs⟩ := Option.ite_none_right_eq_some.mp hs
      obtain rfl := Option.some.inj hs
      have hidle := h.idle (i := i) (by rw [hw]; intro hne; cases hne)
      have hnew : (i, x.key) ∉ t.running := fun hmem => hidle _ hmem rfl
      refine ⟨h.flights, List.Nodup.append h.nodup (List.nodup_singleton _) ?_, fun task htask => ?_⟩
      · intro task htask hmem
        rw [List.mem_singleton.mp hmem] at htask
        exact hnew htask
      · rcases List.mem_append.mp htask with hold | hmem
        · obtain ⟨hcompiling, hcaller⟩ := h.task task hold
          exact ⟨(Function.update_of_ne (hidle task hold) ..).trans hcompiling, hcaller⟩
        · rw [List.mem_singleton.mp hmem]
          exact ⟨Function.update_self .., x, hi, rfl, .inl hx⟩
  | compiled i =>
      obtain ⟨-, hs⟩ := Option.ite_none_right_eq_some.mp hs
      obtain rfl := Option.some.inj hs
      exact ⟨h.flights, h.nodup.filter _, fun task htask => h.task task (List.mem_of_mem_filter htask)⟩
  | finish i component bytes =>
      obtain ⟨x, hi, hs⟩ := Option.bind_eq_some_iff.mp hs
      obtain ⟨⟨hx, hw, hdone⟩, hs⟩ := Option.ite_none_right_eq_some.mp hs
      obtain rfl := Option.some.inj hs
      exact h.work hdone _

/-- One of the running compilations of a key has a caller that holds the mutex, the others were given up. -/
theorem Attended.bounded (h : Attended t) (key : κ) :
    (t.running.countP fun task => task.2 = key) ≤ failures t key + 1 := by
  rw [failures, List.countP_eq_length_filter, List.countP_eq_length_filter]
  have hnodup := h.nodup.filter fun task => task.2 = key
  by_cases hheld : ∃ task ∈ t.running, task.2 = key ∧ ∃ x, t.flights.clients[task.1]? = some x ∧
      x.key = key ∧ x.phase = .holding
  · obtain ⟨held, hmem, hkey, x, hx, hxkey, hholding⟩ := hheld
    have hsub : (t.running.filter fun task => task.2 = key) ⊆
        held :: t.failed.filter fun f => f.2 = key := by
      intro task htask
      obtain ⟨hrunning, htaskkey⟩ := List.mem_filter.mp htask
      have htaskkey' : task.2 = key := of_decide_eq_true htaskkey
      obtain ⟨-, y, hy, hykey, hyholding | hfailed⟩ := h.task task hrunning
      · -- both callers hold the mutex of the key, so they are one
        have hone := h.flights.one hx hy hholding hyholding (hxkey.trans (hykey.trans htaskkey').symm)
        exact List.mem_cons.mpr (.inl (Prod.ext hone.symm (htaskkey'.trans hkey.symm)))
      · exact List.mem_cons.mpr (.inr (List.mem_filter.mpr ⟨hfailed, htaskkey⟩))
    exact (List.subperm_of_subset hnodup hsub).length_le
  · have hsub : (t.running.filter fun task => task.2 = key) ⊆ t.failed.filter fun f => f.2 = key := by
      intro task htask
      obtain ⟨hrunning, htaskkey⟩ := List.mem_filter.mp htask
      have htaskkey' : task.2 = key := of_decide_eq_true htaskkey
      obtain ⟨-, y, hy, hykey, hyholding | hfailed⟩ := h.task task hrunning
      · exact absurd ⟨task, hrunning, htaskkey', y, hy, hykey.trans htaskkey', hyholding⟩ hheld
      · exact List.mem_filter.mpr ⟨hfailed, htaskkey⟩
    exact Nat.le_succ_of_le (List.subperm_of_subset hnodup hsub).length_le

/-- **A KEY IS COMPILED ONCE**, and once more for each eviction of it and each compilation that failed or was
    given up: however many callers load it, in any interleaving and with any cancellations, and whatever the
    disk answers.  A compilation outlives a caller that is cancelled, so with or without the memory cache the
    compilations of a key that run together are at most one more than those given up. -/
theorem compiles_bounded (c : Option MemoryCache) {t : Loads κ γ} (h : Reach (loadStep c) Any .start t) (key : κ) :
    (c.isSome = true → t.compiled.count key ≤ losses t.memory key + failures t key + 1) ∧
      (t.running.countP fun task => task.2 = key) ≤ failures t key + 1 := by
  refine ⟨fun hc => ?_, ?_⟩
  · obtain ⟨cache, rfl⟩ := Option.isSome_iff_exists.mp hc
    have hbooks : Compiled t := Reach.inv compiled_start (fun _ _ _ hi _ hs => hi.step hs) h
    by_cases hrunning : ∃ (i : Nat) (x : Client κ), t.flights.clients[i]? = some x ∧ x.phase = .holding ∧
        x.key = key ∧ t.work i = .compiling
    · obtain ⟨i, x, hi, hx, rfl, hw⟩ := hrunning
      exact hbooks.compiling i x hi hx hw
    · have hidle := hbooks.idle key fun i x hi hx hk hw => hrunning ⟨i, x, hi, hx, hk, hw⟩
      have := stays_le t.memory key
      omega
  · have hattended : Attended t := Reach.inv attended_start (fun _ _ _ hi _ hs => hi.step hs) h
    exact hattended.bounded key

/-- Caller `i` has the mutex and did not find the key. -/
def enter (i key : Nat) : List (LoadAct Nat Unit) :=
  [.flight (.acquire key), .flight (.queue i), .flight (.lock i), .check i]

/-- Key 0 is compiled by a caller that is cancelled, by the next one at the same time, by nobody where it is
    in memory, and again when key 1 has taken its place. -/
def sharedCompile : List (LoadAct Nat Unit) :=
  enter 0 0 ++ [.compile 0, .flight (.release 0)] ++ enter 1 0 ++ [.compile 1]

def laterCompiles : List (LoadAct Nat Unit) :=
  [.compiled 0, .compiled 1, .finish 1 () 4, .flight (.release 1)] ++ enter 2 0 ++ [.flight (.release 2)] ++
    enter 3 1 ++ [.compile 3, .compiled 3, .finish 3 () 9, .flight (.release 3)] ++ enter 4 0 ++ [.compile 4]

theorem compiles_bounded_shared :
    (∃ t : Loads Nat Unit, Reach (loadStep (some ⟨10, 0⟩)) Any .start t ∧
      (t.running.countP fun task => task.2 = 0) = 2 ∧
      (t.running.countP fun task => task.2 = 0) ≤ failures t 0 + 1) ∧
    ∃ t : Loads Nat Unit, Reach (loadStep (some ⟨10, 0⟩)) Any .start t ∧ t.flights.clients.length = 5 ∧
      t.compiled.count 0 = 3 ∧ losses t.memory 0 = 1 ∧ failures t 0 = 1 ∧
      t.compiled.count 0 ≤ losses t.memory 0 + failures t 0 + 1 := by
  have hboth : ∃ t, Reach (loadStep (some ⟨10, 0⟩)) Any (Loads.start : Loads Nat Unit) t ∧
      ((t.running.countP fun task => task.2 = 0) == 2) = true :=
    Reach.of_test sharedCompile (by decide +kernel)
  have hlater : ∃ t, Reach (loadStep (some ⟨10, 0⟩)) Any (Loads.start : Loads Nat Unit) t ∧
      (t.flights.clients.length == 5 && t.compiled.count 0 == 3 && losses t.memory 0 == 1 &&
        failures t 0 == 1) = true :=
    Reach.of_test (sharedCompile ++ laterCompiles) (by decide +kernel)
  obtain ⟨t, ht, htest⟩ := hboth
  obtain ⟨t', ht', htest'⟩ := hlater
  simp only [Bool.and_eq_true, beq_iff_eq] at htest'
  obtain ⟨⟨⟨hlen, hcount⟩, hlost⟩, hfailed⟩ := htest'
  exact ⟨⟨t, ht, eq_of_beq htest, (compiles_bounded (some ⟨10, 0⟩) ht 0).2⟩,
    t', ht', hlen, hcount, hlost, hfailed, (compiles_bounded (some ⟨10, 0⟩) ht' 0).1 rfl⟩

end Greentic.Singleflight
