import GreenticRunner.KeyedSlots
import GreenticRunner.Transition

/-! # Keyed turn locks

    `TurnLocks::run` of `engine/turn_lock.rs` and `SessionStoreHost::lock_session` of
    `storage/session.rs`: one mutex per key in a shared map, whose entry is removed by the
    last one to let go of it.

    * `Call.move` — the atomic steps of a call, `step` — any call moves or a new one starts;
    * `Inv` — the map, the reference counts, the mutexes and the calls fit together;
    * `turn_locks` — exclusion, re-entry without waiting, no entry without a user.

    `run` consults the task-local `HELD` and `lock_session` does not; this is the
    parameter `reentrant`.  A future may be dropped at any await point; its nested
    futures are dropped before its own guard. -/

namespace Greentic.TurnLocks

open KeyedSlots Transition

/-- How far a call has come.  The argument is the cell whose `Arc` the call owns. -/
inductive Phase where
  /-- not polled yet -/
  | entering
  /-- in its body without a guard: the task already holds the key -/
  | nested
  /-- `lock_owned` is pending -/
  | waiting (cell : Nat)
  /-- the mutex was handed to the pending `lock_owned` -/
  | granted (cell : Nat)
  /-- in its body, under the guard -/
  | body (cell : Nat)
  /-- the mutex is released, its `Arc` not yet dropped -/
  | unlocked (cell : Nat)
  /-- the `Arc` is dropped, `remove_if` is next -/
  | sweeping
  | done
  deriving DecidableEq

namespace Phase

/-- The cell whose `Arc` is owned. -/
def cell? : Phase → Option Nat
  | .waiting c | .granted c | .body c | .unlocked c => some c
  | _ => none

/-- The cell whose mutex is held. -/
def locks? : Phase → Option Nat
  | .granted c | .body c => some c
  | _ => none

/-- Between the lookup of the slot and the end of the guard's drop. -/
def inUse : Phase → Bool
  | .waiting _ | .granted _ | .body _ | .unlocked _ | .sweeping => true
  | _ => false

end Phase

/-- One call, with `HELD` as it found it and the call whose body it was made in. -/
structure Call where
  key : String
  held : List String
  parent : Option Nat
  phase : Phase
  deriving DecidableEq

/-- `HELD` inside the body of a call. -/
def Call.scope (c : Call) : Option (List String) :=
  match c.phase with
  | .body _ => some (c.held ++ [c.key])
  | .nested => some c.held
  | _ => none

/-- The `Arc` a call owns. -/
def Call.ref (c : Call) : Option (String × Nat) := c.phase.cell?.map fun cell => (c.key, cell)

/-- The lock table: the map of slots and the holder of every mutex. -/
structure Table where
  slots : Slots String
  holder : Nat → Option Nat

namespace Table

def lock (t : Table) (cell i : Nat) : Table :=
  { t with holder := Function.update t.holder cell (some i) }

def unlock (t : Table) (cell : Nat) : Table :=
  { t with holder := Function.update t.holder cell none }

end Table

/-- The atomic steps of a call. -/
inductive Move where
  | enter
  | grant
  | poll
  | abandon
  | leave
  | dropArc
  | sweep
  deriving DecidableEq

/-- One step of the call `c` with number `i`. -/
def Call.move (reentrant : Bool) (i : Nat) (t : Table) (c : Call) : Move → Option (Table × Phase)
  | .enter =>
      match c.phase with
      | .entering =>
          if reentrant && c.held.contains c.key then some (t, .nested)
          else some ({ t with slots := (t.slots.enter c.key).2 },
            .waiting (t.slots.enter c.key).1)
      | _ => none
  | .grant =>
      match c.phase with
      | .waiting cell => if t.holder cell = none then some (t.lock cell i, .granted cell) else none
      | _ => none
  | .poll =>
      match c.phase with
      | .granted cell => some (t, .body cell)
      | _ => none
  -- The future is dropped before its body ran.
  | .abandon =>
      match c.phase with
      | .entering => some (t, .done)
      | .waiting cell => some ({ t with slots := t.slots.drop cell }, .sweeping)
      | .granted cell => some (t.unlock cell, .unlocked cell)
      | _ => none
  -- The body returned, panicked or was dropped.
  | .leave =>
      match c.phase with
      | .nested => some (t, .done)
      | .body cell => some (t.unlock cell, .unlocked cell)
      | _ => none
  | .dropArc =>
      match c.phase with
      | .unlocked cell => some ({ t with slots := t.slots.drop cell }, .sweeping)
      | _ => none
  | .sweep =>
      match c.phase with
      | .sweeping => some ({ t with slots := t.slots.removeIf c.key }, .done)
      | _ => none

/-- The table and all calls, numbered in the order they were made. -/
structure System where
  table : Table
  calls : List Call

/-- No call was made. -/
def System.start : System := ⟨⟨.empty, fun _ => none⟩, []⟩

/-- What happens next: a call is made, by a task (`none`) or in the body of a call, or a
    call moves. -/
inductive Act where
  | call (parent : Option Nat) (key : String)
  | move (i : Nat) (m : Move)

/-- Every call made in the body of the call `i` has ended. -/
def System.childless (s : System) (i : Nat) : Bool :=
  s.calls.all fun c => c.parent ≠ some i || c.phase = .done

/-- One step of the system. -/
def step (reentrant : Bool) (s : System) : Act → Option System
  | .call none key => some { s with calls := s.calls ++ [⟨key, [], none, .entering⟩] }
  | .call (some p) key => do
      let c ← s.calls[p]?
      let held ← c.scope
      some { s with calls := s.calls ++ [⟨key, held, some p, .entering⟩] }
  | .move i m => do
      let c ← s.calls[i]?
      if m = .leave ∧ s.childless i = false then none
      else
        let (t, phase) ← c.move reentrant i s.table m
        some ⟨t, s.calls.set i { c with phase := phase }⟩

/-! ## What a step can do -/

/-- What one move does to the table and to the phase. -/
inductive Moved (reentrant : Bool) (i : Nat) (t : Table) (c : Call) : Table → Phase → Prop where
  | reenter (hp : c.phase = .entering) (hr : reentrant = true) (hk : c.key ∈ c.held) :
      Moved reentrant i t c t .nested
  | lookup (hp : c.phase = .entering) (hk : reentrant = true → c.key ∉ c.held) :
      Moved reentrant i t c { t with slots := (t.slots.enter c.key).2 }
        (.waiting (t.slots.enter c.key).1)
  | grant {cell : Nat} (hp : c.phase = .waiting cell) (hf : t.holder cell = none) :
      Moved reentrant i t c (t.lock cell i) (.granted cell)
  | poll {cell : Nat} (hp : c.phase = .granted cell) : Moved reentrant i t c t (.body cell)
  | unlock {cell : Nat} (hp : c.phase = .granted cell ∨ c.phase = .body cell) :
      Moved reentrant i t c (t.unlock cell) (.unlocked cell)
  | drop {cell : Nat} (hp : c.phase = .waiting cell ∨ c.phase = .unlocked cell) :
      Moved reentrant i t c { t with slots := t.slots.drop cell } .sweeping
  | finish (hp : c.phase = .entering ∨ c.phase = .nested) : Moved reentrant i t c t .done
  | sweep (hp : c.phase = .sweeping) :
      Moved reentrant i t c { t with slots := t.slots.removeIf c.key } .done

theorem moved_of_move {reentrant : Bool} {i : Nat} {t t' : Table} {c : Call} {m : Move} {p : Phase}
    (h : c.move reentrant i t m = some (t', p)) : Moved reentrant i t c t' p := by
  cases m with
  | enter =>
      simp only [Call.move] at h
      split at h
      next hp =>
        split at h
        next hk =>
          cases h
          rw [Bool.and_eq_true, List.contains_iff_mem] at hk
          exact .reenter hp hk.1 hk.2
        next hk =>
          cases h
          refine .lookup hp ?_
          intro hr hmem
          exact hk (by rw [hr, List.contains_iff_mem.mpr hmem]; rfl)
      next => exact nomatch h
  | grant =>
      simp only [Call.move] at h
      split at h
      next cell hp =>
        split at h
        next hf =>
          cases h
          exact .grant hp hf
        next => exact nomatch h
      next => exact nomatch h
  | poll =>
      simp only [Call.move] at h
      split at h
      next cell hp =>
        cases h
        exact .poll hp
      next => exact nomatch h
  | abandon =>
      simp only [Call.move] at h
      split at h
      next hp =>
        cases h
        exact .finish (.inl hp)
      next cell hp =>
        cases h
        exact .drop (.inl hp)
      next cell hp =>
        cases h
        exact .unlock (.inl hp)
      next => exact nomatch h
  | leave =>
      simp only [Call.move] at h
      split at h
      next hp =>
        cases h
        exact .finish (.inr hp)
      next cell hp =>
        cases h
        exact .unlock (.inr hp)
      next => exact nomatch h
  | dropArc =>
      simp only [Call.move] at h
      split at h
      next cell hp =>
        cases h
        exact .drop (.inr hp)
      next => exact nomatch h
  | sweep =>
      simp only [Call.move] at h
      split at h
      next hp =>
        cases h
        exact .sweep hp
      next => exact nomatch h

/-- A call that is in its body can only leave it. -/
theorem move_of_scope {reentrant : Bool} {i : Nat} {t : Table} {c : Call} {m : Move}
    {held : List String} (hs : c.scope = some held) (hm : m ≠ .leave) :
    c.move reentrant i t m = none := by
  have hp : (∃ cell, c.phase = .body cell) ∨ c.phase = .nested := by
    rw [Call.scope] at hs
    split at hs
    next cell hp => exact .inl ⟨cell, hp⟩
    next hp => exact .inr hp
    next => exact nomatch hs
  rcases hp with ⟨cell, hp⟩ | hp
  · cases m <;> simp_all [Call.move]
  · cases m <;> simp_all [Call.move]

/-- A call just made: by a task, or in the body of another call. -/
inductive Called (s : System) : Call → Prop where
  | task (key : String) : Called s ⟨key, [], none, .entering⟩
  | body {p : Nat} {d : Call} {held : List String} (key : String) (hd : s.calls[p]? = some d)
      (hs : d.scope = some held) : Called s ⟨key, held, some p, .entering⟩

/-- What one step of the system does. -/
theorem step_cases {reentrant : Bool} {s s' : System} {a : Act}
    (h : step reentrant s a = some s') :
    (∃ c, Called s c ∧ s' = { s with calls := s.calls ++ [c] }) ∨
    ∃ i c t p, s.calls[i]? = some c ∧ Moved reentrant i s.table c t p ∧
      (c.scope.isSome → s.childless i = true) ∧
      s' = ⟨t, s.calls.set i { c with phase := p }⟩ := by
  cases a with
  | call parent key =>
      left
      cases parent with
      | none =>
          cases h
          exact ⟨_, .task key, rfl⟩
      | some p =>
          obtain ⟨d, hd, h⟩ := Option.bind_eq_some_iff.mp h
          obtain ⟨held, hs, h⟩ := Option.bind_eq_some_iff.mp h
          cases h
          exact ⟨_, .body key hd hs, rfl⟩
  | move i m =>
      right
      obtain ⟨c, hc, h⟩ := Option.bind_eq_some_iff.mp h
      split at h
      next => exact nomatch h
      next hl =>
        obtain ⟨⟨t, p⟩, hmove, h⟩ := Option.bind_eq_some_iff.mp h
        cases h
        refine ⟨i, c, t, p, hc, moved_of_move hmove, ?_, rfl⟩
        intro hs
        obtain ⟨held, hs⟩ := Option.isSome_iff_exists.mp hs
        by_cases hm : m = .leave
        · by_cases hch : s.childless i = true
          · exact hch
          · exact absurd ⟨hm, Bool.eq_false_iff.mpr hch⟩ hl
        · rw [move_of_scope hs hm] at hmove
          exact nomatch hmove

/-! ## The invariant -/

/-- The calls, the map, the reference counts and the mutexes fit together. -/
structure Inv (reentrant : Bool) (s : System) : Prop where
  counted : s.table.slots.Counted Call.ref s.calls
  holder : ∀ cell i, s.table.holder cell = some i ↔
    ∃ c, s.calls[i]? = some c ∧ c.phase.locks? = some cell
  swept : ∀ k cell, s.table.slots.slot k = some cell →
    ∃ c ∈ s.calls, c.key = k ∧ c.phase.inUse = true
  inScope : ∀ c ∈ s.calls, c.phase ≠ .done → (c.parent = none ∧ c.held = []) ∨
    ∃ p d, c.parent = some p ∧ s.calls[p]? = some d ∧ d.scope = some c.held
  waits : reentrant = true → ∀ c ∈ s.calls, c.phase.inUse = true → c.key ∉ c.held

theorem inv_start (reentrant : Bool) : Inv reentrant .start where
  counted := .empty
  holder := by
    intro cell i
    constructor
    · intro h
      exact nomatch h
    · rintro ⟨c, hc, -⟩
      exact nomatch hc
  swept := fun _ _ h => nomatch h
  inScope := fun _ h => nomatch h
  waits := fun _ _ h => nomatch h

theorem Called.phase {s : System} {c : Call} (h : Called s c) : c.phase = .entering := by
  cases h <;> rfl

theorem Inv.called {reentrant : Bool} {s : System} {c : Call} (h : Inv reentrant s)
    (hc : Called s c) : Inv reentrant { s with calls := s.calls ++ [c] } where
  counted := h.counted.snoc (by rw [Call.ref, hc.phase]; rfl)
  holder := by
    intro cell i
    rw [h.holder cell i]
    constructor
    · rintro ⟨d, hd, hl⟩
      exact ⟨d, List.getElem?_append_left (List.getElem?_eq_some_iff.mp hd).1 ▸ hd, hl⟩
    · rintro ⟨d, hd, hl⟩
      rcases List.getElem?_append .. ▸ hd with hd
      split at hd
      · exact ⟨d, hd, hl⟩
      · have : d = c := by simpa using List.mem_of_getElem? hd
        rw [this, hc.phase] at hl
        exact nomatch hl
  swept := by
    intro k cell hk
    obtain ⟨d, hd, hkey, huse⟩ := h.swept k cell hk
    exact ⟨d, List.mem_append_left _ hd, hkey, huse⟩
  inScope := by
    have hmono {p : Nat} {d : Call} (hd : s.calls[p]? = some d) : (s.calls ++ [c])[p]? = some d :=
      List.getElem?_append_left (List.getElem?_eq_some_iff.mp hd).1 ▸ hd
    intro d hd hdone
    rcases List.mem_append.mp hd with hd | hd
    · rcases h.inScope d hd hdone with htask | ⟨p, e, hp, he, hs⟩
      · exact .inl htask
      · exact .inr ⟨p, e, hp, hmono he, hs⟩
    · rw [List.mem_singleton.mp hd]
      cases hc with
      | task key => exact .inl ⟨rfl, rfl⟩
      | body key he hs => exact .inr ⟨_, _, rfl, hmono he, hs⟩
  waits := by
    intro hr d hd huse
    rcases List.mem_append.mp hd with hd | hd
    · exact h.waits hr d hd huse
    · rw [List.mem_singleton.mp hd, hc.phase] at huse
      exact nomatch huse

section Moves

variable {reentrant : Bool} {i : Nat} {t t' : Table} {c : Call} {p : Phase} {cs : List Call}

/-- The call after its move. -/
theorem Moved.counted (hm : Moved reentrant i t c t' p) (h : t.slots.Counted Call.ref cs)
    (hc : cs[i]? = some c) : t'.slots.Counted Call.ref (cs.set i { c with phase := p }) := by
  have hsame {q : Phase} (hq : q.cell? = c.phase.cell?) :
      t.slots.Counted Call.ref (cs.set i { c with phase := q }) :=
    h.keep hc (by rw [Call.ref, Call.ref, hq])
  cases hm with
  | reenter hp => exact hsame (by rw [hp]; rfl)
  | lookup hp => exact h.enter hc (by rw [Call.ref, hp]; rfl) rfl
  | grant hp => exact hsame (by rw [hp]; rfl)
  | poll hp => exact hsame (by rw [hp]; rfl)
  | unlock hp =>
      refine hsame ?_
      rcases hp with hp | hp <;> rw [hp] <;> rfl
  | @drop cell hp =>
      refine h.drop (k := c.key) hc ?_ rfl
      rcases hp with hp | hp <;> rw [Call.ref, hp] <;> rfl
  | finish hp =>
      refine hsame ?_
      rcases hp with hp | hp <;> rw [hp] <;> rfl
  | sweep hp => exact (hsame (by rw [hp]; rfl)).removeIf c.key |>.1

theorem mem_set_self (hc : cs[i]? = some c) (d : Call) : d ∈ cs.set i d :=
  List.mem_set (List.getElem?_eq_some_iff.mp hc).1 d

/-- A call other than the moving one is still there. -/
theorem mem_set_of_ne (hc : cs[i]? = some c) {d : Call} (hd : d ∈ cs) (hne : d ≠ c) (e : Call) :
    d ∈ cs.set i e := by
  obtain ⟨j, hj⟩ := List.getElem?_of_mem hd
  refine List.mem_of_getElem? (i := j) ?_
  rw [List.getElem?_set_ne ?_]
  · exact hj
  · rintro rfl
    exact hne (Option.some.inj (hj.symm.trans hc))

/-- An entry stays in use: by the moving call, by the one that used it, or, after a
    sweep, by one that still owns its `Arc`. -/
theorem Moved.swept (hm : Moved reentrant i t c t' p) (h : t.slots.Counted Call.ref cs)
    (hc : cs[i]? = some c)
    (hs : ∀ k cell, t.slots.slot k = some cell → ∃ d ∈ cs, d.key = k ∧ d.phase.inUse = true)
    (k : String) (cell : Nat) (hk : t'.slots.slot k = some cell) :
    ∃ d ∈ cs.set i { c with phase := p }, d.key = k ∧ d.phase.inUse = true := by
  -- A user of the key is still one unless it is the call that ends here.
  have hkeep (hold : t.slots.slot k = some cell) (huse : c.phase.inUse = true → p.inUse = true) :
      ∃ d ∈ cs.set i { c with phase := p }, d.key = k ∧ d.phase.inUse = true := by
    obtain ⟨d, hd, hkey, hin⟩ := hs k cell hold
    by_cases hdc : d = c
    · subst hdc
      exact ⟨_, mem_set_self hc _, hkey, huse hin⟩
    · exact ⟨d, mem_set_of_ne hc hd hdc _, hkey, hin⟩
  cases hm with
  | reenter hp => exact hkeep hk (by rw [hp]; intro hu; cases hu)
  | lookup hp =>
      by_cases hkey : c.key = k
      · exact ⟨_, mem_set_self hc _, hkey, rfl⟩
      · refine hkeep ?_ fun _ => rfl
        change (t.slots.enter c.key).2.slot k = some cell at hk
        rw [Slots.enter] at hk
        split at hk
        next => exact hk
        next => exact (Function.update_of_ne (Ne.symm hkey) ..).symm.trans hk
  | grant => exact hkeep hk fun _ => rfl
  | poll => exact hkeep hk fun _ => rfl
  | unlock => exact hkeep hk fun _ => rfl
  | drop => exact hkeep hk fun _ => rfl
  | finish hp =>
      refine hkeep hk ?_
      rcases hp with hp | hp <;> (rw [hp]; intro hu; cases hu)
  | sweep hp =>
      obtain ⟨-, hback, hleft⟩ := h.removeIf c.key
      by_cases hkey : c.key = k
      · subst hkey
        obtain ⟨d, hd, hr⟩ := hleft cell hk
        have hdc : d ≠ c := by
          rintro rfl
          rw [Call.ref, hp] at hr
          cases hr
        refine ⟨d, mem_set_of_ne hc hd hdc _, ?_⟩
        rw [Call.ref] at hr
        cases hcell : d.phase with
        | waiting _ | granted _ | body _ | unlocked _ =>
            rw [hcell] at hr
            exact ⟨congrArg Prod.fst (Option.some.inj hr), rfl⟩
        | entering | nested | sweeping | done =>
            rw [hcell] at hr
            cases hr
      · obtain ⟨d, hd, hdk, hin⟩ := hs k cell (hback k cell hk)
        refine ⟨d, mem_set_of_ne hc hd ?_ _, hdk, hin⟩
        rintro rfl
        exact hkey hdk

/-- The holders of the mutexes after a move. -/
theorem Moved.holder (hm : Moved reentrant i t c t' p) (hc : cs[i]? = some c)
    (h : ∀ cell j, t.holder cell = some j ↔ ∃ d, cs[j]? = some d ∧ d.phase.locks? = some cell)
    (cell j : Nat) : t'.holder cell = some j ↔
      ∃ d, (cs.set i { c with phase := p })[j]? = some d ∧ d.phase.locks? = some cell := by
  have hlt := (List.getElem?_eq_some_iff.mp hc).1
  have hself {q : Phase} : (∃ d, (cs.set i { c with phase := q })[i]? = some d ∧
      d.phase.locks? = some cell) ↔ q.locks? = some cell := by
    rw [List.getElem?_set_self hlt]
    constructor
    · rintro ⟨d, hd, hl⟩
      cases hd
      exact hl
    · intro hl
      exact ⟨_, rfl, hl⟩
  have hother {q : Phase} (hj : i ≠ j) : (∃ d, (cs.set i { c with phase := q })[j]? = some d ∧
      d.phase.locks? = some cell) ↔ t.holder cell = some j := by
    rw [List.getElem?_set_ne hj, h]
  have hmine : t.holder cell = some i ↔ c.phase.locks? = some cell := by
    rw [h]
    constructor
    · rintro ⟨d, hd, hl⟩
      rw [hc] at hd
      cases hd
      exact hl
    · intro hl
      exact ⟨c, hc, hl⟩
  have hsame {q : Phase} (hq : q.locks? = c.phase.locks?) : t.holder cell = some j ↔
      ∃ d, (cs.set i { c with phase := q })[j]? = some d ∧ d.phase.locks? = some cell := by
    by_cases hj : i = j
    · subst hj
      rw [hself, hq, hmine]
    · rw [hother hj]
  cases hm with
  | reenter hp => exact hsame (by rw [hp]; rfl)
  | lookup hp => exact hsame (by rw [hp]; rfl)
  | @grant cell' hp hf =>
      show Function.update t.holder cell' (some i) cell = some j ↔ _
      by_cases hcell : cell = cell'
      · subst hcell
        rw [Function.update_self]
        by_cases hj : i = j
        · subst hj
          rw [hself]
          exact ⟨fun _ => rfl, fun _ => rfl⟩
        · rw [hother hj, hf]
          exact ⟨fun hi => absurd (Option.some.inj hi) hj, fun hi => (nomatch hi)⟩
      · rw [Function.update_of_ne hcell]
        by_cases hj : i = j
        · subst hj
          rw [hself, hmine, hp]
          exact ⟨fun hl => (nomatch hl),
            fun hl => absurd (Option.some.inj hl).symm hcell⟩
        · rw [hother hj]
  | poll hp => exact hsame (by rw [hp]; rfl)
  | @unlock cell' hp =>
      have hl : c.phase.locks? = some cell' := by rcases hp with hp | hp <;> rw [hp] <;> rfl
      show Function.update t.holder cell' none cell = some j ↔ _
      by_cases hcell : cell = cell'
      · subst hcell
        rw [Function.update_self]
        by_cases hj : i = j
        · subst hj
          rw [hself]
          exact ⟨fun hn => (nomatch hn), fun hn => (nomatch hn)⟩
        · rw [hother hj, hmine.mpr hl]
          exact ⟨fun hn => (nomatch hn), fun hi => absurd (Option.some.inj hi) hj⟩
      · rw [Function.update_of_ne hcell]
        by_cases hj : i = j
        · subst hj
          rw [hself, hmine, hl]
          exact ⟨fun hi => absurd (Option.some.inj hi).symm hcell, fun hn => (nomatch hn)⟩
        · rw [hother hj]
  | drop hp =>
      refine hsame ?_
      rcases hp with hp | hp
      · rw [hp]; rfl
      · rw [hp]; rfl
  | finish hp => exact hsame (by rcases hp with hp | hp <;> rw [hp] <;> rfl)
  | sweep hp => exact hsame (by rw [hp]; rfl)

/-- A call that moves has not ended. -/
theorem Moved.alive (hm : Moved reentrant i t c t' p) : c.phase ≠ .done := by
  intro hd
  cases hm with
  | reenter hp | lookup hp | grant hp | poll hp | sweep hp =>
      rw [hd] at hp
      exact nomatch hp
  | unlock hp | drop hp | finish hp =>
      rw [hd] at hp
      rcases hp with hp | hp <;> exact nomatch hp

/-- A call that has to wait did not hold its key before. -/
theorem Moved.waits (hm : Moved reentrant i t c t' p) (hr : reentrant = true)
    (h : c.phase.inUse = true → c.key ∉ c.held) (hp : p.inUse = true) : c.key ∉ c.held := by
  cases hm with
  | lookup _ hk => exact hk hr
  | grant hp' | poll hp' => exact h (by rw [hp']; rfl)
  | unlock hp' | drop hp' => exact h (by rcases hp' with hp' | hp' <;> rw [hp'] <;> rfl)
  | reenter | finish | sweep => exact nomatch hp

end Moves

theorem Inv.moved {reentrant : Bool} {s : System} {i : Nat} {c : Call} {t : Table} {p : Phase}
    (h : Inv reentrant s) (hc : s.calls[i]? = some c) (hm : Moved reentrant i s.table c t p)
    (hch : c.scope.isSome → s.childless i = true) :
    Inv reentrant ⟨t, s.calls.set i { c with phase := p }⟩ where
  counted := hm.counted h.counted hc
  holder := hm.holder hc h.holder
  swept := hm.swept h.counted hc h.swept
  inScope := by
    -- No call that has not ended was made in the body of the one that moves.
    have hkeep (d : Call) (hd : d ∈ s.calls) (hdone : d.phase ≠ .done) :
        (d.parent = none ∧ d.held = []) ∨ ∃ q e, d.parent = some q ∧
          (s.calls.set i { c with phase := p })[q]? = some e ∧ e.scope = some d.held := by
      rcases h.inScope d hd hdone with htask | ⟨q, e, hq, he, hs⟩
      · exact .inl htask
      · refine .inr ⟨q, e, hq, ?_, hs⟩
        rw [List.getElem?_set_ne ?_]
        · exact he
        · rintro rfl
          rw [hc] at he
          cases he
          have hall := List.all_eq_true.mp (hch (by rw [hs]; rfl)) d hd
          simp [hq, hdone] at hall
    intro d hd hdone
    rcases mem_of_set hd with rfl | hd
    · exact hkeep c (List.mem_of_getElem? hc) hm.alive
    · exact hkeep d hd hdone
  waits := by
    intro hr d hd huse
    rcases mem_of_set hd with rfl | hd
    · exact hm.waits hr (h.waits hr c (List.mem_of_getElem? hc)) huse
    · exact h.waits hr d hd huse

theorem Inv.step {reentrant : Bool} {s s' : System} {a : Act} (h : Inv reentrant s)
    (hs : step reentrant s a = some s') : Inv reentrant s' := by
  rcases step_cases hs with ⟨c, hc, rfl⟩ | ⟨i, c, t, p, hc, hm, hch, rfl⟩
  · exact h.called hc
  · exact h.moved hc hm hch

theorem inv_reach {reentrant : Bool} {s : System} (h : Reach (step reentrant) Any .start s) :
    Inv reentrant s :=
  h.inv (inv_start reentrant) fun _ _ _ hi _ hs => hi.step hs

/-! ## The locks -/

/-- The call `j` is above the call `i`: `i` was made, through any number of calls, in the
    body of `j`. -/
inductive Above (s : System) : Nat → Nat → Prop where
  | parent {i j : Nat} {c : Call} (hc : s.calls[i]? = some c) (hp : c.parent = some j) :
      Above s i j
  | step {i p j : Nat} {c : Call} (hc : s.calls[i]? = some c) (hp : c.parent = some p)
      (h : Above s p j) : Above s i j

/-- What a call in a body finds in `HELD`: the keys of all guards above it. -/
theorem Inv.held {reentrant : Bool} {s : System} {i j cell : Nat} {c d : Call}
    (h : Inv reentrant s) (ha : Above s i j) (hc : s.calls[i]? = some c) (hdone : c.phase ≠ .done)
    (hd : s.calls[j]? = some d) (hb : d.phase = .body cell) : d.key ∈ c.held := by
  -- The call that `c` was made in is in its body.
  have hup {i p : Nat} {c : Call} (hc : s.calls[i]? = some c) (hdone : c.phase ≠ .done)
      (hp : c.parent = some p) : ∃ e, s.calls[p]? = some e ∧ e.scope = some c.held := by
    rcases h.inScope c (List.mem_of_getElem? hc) hdone with ⟨hn, -⟩ | ⟨q, e, hq, he, hs⟩
    · rw [hn] at hp
      exact nomatch hp
    · rw [hq] at hp
      cases hp
      exact ⟨e, he, hs⟩
  induction ha generalizing c with
  | parent hc' hp =>
      rw [hc] at hc'
      cases hc'
      obtain ⟨e, he, hs⟩ := hup hc hdone hp
      rw [hd] at he
      cases he
      rw [Call.scope, hb] at hs
      rw [← Option.some.inj hs]
      exact List.mem_append_right _ (List.mem_singleton_self _)
  | step hc' hp _ ih =>
      rw [hc] at hc'
      cases hc'
      obtain ⟨e, he, hs⟩ := hup hc hdone hp
      have hmem : d.key ∈ e.held := by
        refine ih he ?_ hd
        intro hdn
        rw [Call.scope, hdn] at hs
        exact nomatch hs
      rw [Call.scope] at hs
      split at hs
      · rw [← Option.some.inj hs]
        exact List.mem_append_left _ hmem
      · rw [← Option.some.inj hs]
        exact hmem
      · exact nomatch hs

/-- **Keyed locks exclude and never leak.**  In every reachable state two guarded bodies
    of one key are the same call; a call whose key is held further up on its task never
    waits and enters its body at once; a key that no call is using has no entry. -/
theorem turn_locks (reentrant : Bool) (s : System)
    (h : Reach (step reentrant) Any .start s) :
    (∀ (i j : Nat) (c d : Call) (cell cell' : Nat), s.calls[i]? = some c → s.calls[j]? = some d →
      c.phase = .body cell → d.phase = .body cell' → c.key = d.key → i = j) ∧
    (reentrant = true → ∀ (i j : Nat) (c d : Call) (cell : Nat), s.calls[i]? = some c →
      s.calls[j]? = some d → Above s i j → d.phase = .body cell → d.key = c.key →
      (c.phase = .entering ∧ c.move true i s.table .enter = some (s.table, .nested)) ∨
        c.phase = .nested ∨ c.phase = .done) ∧
    ∀ k, (∀ c ∈ s.calls, c.phase.inUse = true → c.key ≠ k) → s.table.slots.slot k = none := by
  have hi := inv_reach h
  refine ⟨?_, ?_, ?_⟩
  · intro i j c d cell cell' hc hd hb hb' hkey
    have hslot := hi.counted.owned c (List.mem_of_getElem? hc) c.key cell (by rw [Call.ref, hb]; rfl)
    have hslot' := hi.counted.owned d (List.mem_of_getElem? hd) d.key cell'
      (by rw [Call.ref, hb']; rfl)
    rw [hkey, hslot'] at hslot
    cases hslot
    have hm := (hi.holder cell i).mpr ⟨c, hc, by rw [hb]; rfl⟩
    have hm' := (hi.holder cell j).mpr ⟨d, hd, by rw [hb']; rfl⟩
    exact Option.some.inj (hm.symm.trans hm')
  · intro hr i j c d cell hc hd ha hb hkey
    by_cases hdone : c.phase = .done
    · exact .inr (.inr hdone)
    · have hheld : c.key ∈ c.held := hkey ▸ hi.held ha hc hdone hd hb
      have hnot : c.phase.inUse = false := by
        by_cases hu : c.phase.inUse = true
        · exact absurd hheld (hi.waits hr c (List.mem_of_getElem? hc) hu)
        · exact Bool.eq_false_iff.mpr hu
      cases hp : c.phase with
      | entering =>
          refine .inl ⟨rfl, ?_⟩
          simp [Call.move, hp, hheld]
      | nested => exact .inr (.inl rfl)
      | done => exact absurd hp hdone
      | waiting _ | granted _ | body _ | unlocked _ | sweeping =>
          rw [hp] at hnot
          exact nomatch hnot
  · intro k hk
    cases hs : s.table.slots.slot k with
    | none => rfl
    | some cell =>
        obtain ⟨c, hc, hkey, huse⟩ := hi.swept k cell hs
        exact absurd hkey (hk c hc huse)

/-- A call that holds `s`, one nested in its body and one of another task that waits. -/
def twoTasks : List Act :=
  [.call none "s", .move 0 .enter, .move 0 .grant, .move 0 .poll,
    .call (some 0) "s", .call none "s", .move 2 .enter, .move 1 .enter]

theorem turn_locks_twoTasks : ∃ s, Reach (step true) Any .start s ∧
    (∃ c cell, s.calls[0]? = some c ∧ c.phase = .body cell) ∧
    (∃ c, s.calls[1]? = some c ∧ c.phase = .nested) ∧
    (∃ c cell, s.calls[2]? = some c ∧ c.phase = .waiting cell) ∧
    s.table.slots.slot "t" = none := by
  obtain ⟨s, hs, h0, h1, h2, ht⟩ : ∃ s, play (step true) Any .start twoTasks = some s ∧
      (∃ c cell, s.calls[0]? = some c ∧ c.phase = .body cell) ∧
      (∃ c, s.calls[1]? = some c ∧ c.phase = .nested) ∧
      (∃ c cell, s.calls[2]? = some c ∧ c.phase = .waiting cell) ∧
      s.calls.all (fun c => c.key = "s") = true :=
    ⟨_, rfl, ⟨_, _, rfl, rfl⟩, ⟨_, rfl, rfl⟩, ⟨_, _, rfl, rfl⟩, by decide⟩
  have hreach : Reach (step true) Any .start s := Reach.start.of_play hs
  refine ⟨s, hreach, h0, h1, h2, (turn_locks true s hreach).2.2 "t" ?_⟩
  intro c hc _ hkey
  have hall := of_decide_eq_true (List.all_eq_true.mp ht c hc)
  rw [hall] at hkey
  exact absurd hkey (by decide)

end Greentic.TurnLocks
