import Mathlib

/-! # The step path of a turn

    The observer appends the id of every node that starts.  A walk that is retried must not leave
    the steps of its failed attempts behind, and the list is bounded: it keeps the FIRST steps and
    remembers whether there were more.

    * `Shows` — the path shows a list of steps, collapsed and cut;
    * `step_path_kept` — after any walks it shows the steps that are kept. -/

namespace Greentic.RunOutcome

/-- `MAX_PATH_STEPS`. -/
def MAX_PATH_STEPS : Nat := 32

/-- `PathMark`. -/
structure PathMark where
  len : Nat
  truncated : Bool

/-- `StepPath`; the innermost walk is the first of `walks`. -/
structure StepPath where
  steps : List String
  truncated : Bool
  walks : List PathMark

namespace StepPath

/-- `StepPath::default`. -/
def default : StepPath := ⟨[], false, []⟩

/-- `StepPath::attempt`. -/
def attempt (p : StepPath) (attempt : Nat) : StepPath :=
  if attempt ≤ 1 then { p with walks := ⟨p.steps.length, p.truncated⟩ :: p.walks }
  else
    let mark := p.walks.head?.getD ⟨0, false⟩
    { p with steps := p.steps.take mark.len, truncated := mark.truncated }

/-- `StepPath::exit`. -/
def exit (p : StepPath) : StepPath := { p with walks := p.walks.tail }

/-- `StepPath::push`. -/
def push (p : StepPath) (nodeId : String) : StepPath :=
  if p.steps.getLast? = some nodeId then p
  else if p.steps.length ≥ MAX_PATH_STEPS then { p with truncated := true }
  else { p with steps := p.steps ++ [nodeId] }

end StepPath

/-! ## The walks of a turn -/

/-- What the observer is told. -/
inductive PathEvent where
  | attempt (attempt : Nat)
  | push (nodeId : String)
  | exit

/-- One event. -/
def StepPath.apply (p : StepPath) : PathEvent → StepPath
  | .attempt n => p.attempt n
  | .push nodeId => p.push nodeId
  | .exit => p.exit

/-- A list of events. -/
def StepPath.run (p : StepPath) (events : List PathEvent) : StepPath := events.foldl StepPath.apply p

mutual

/-- A step of a walk: a node that starts, or a walk that it calls. -/
inductive Item where
  | node (nodeId : String)
  | call (walk : Walk)

/-- A walk by its attempts, the first one innermost. -/
inductive Walk where
  | first (steps : Items)
  | retry (earlier : Walk) (steps : Items)

/-- The steps of one attempt. -/
inductive Items where
  | nil
  | cons (item : Item) (rest : Items)

end

/-- The number of a walk's last attempt. -/
def Walk.attempts : Walk → Nat
  | .first _ => 1
  | .retry earlier _ => earlier.attempts + 1

mutual

/-- The events of one step. -/
def Item.events : Item → List PathEvent
  | .node nodeId => [.push nodeId]
  | .call walk => walk.events ++ [.exit]

/-- The events of a walk until it returns. -/
def Walk.events : Walk → List PathEvent
  | .first steps => .attempt 1 :: steps.events
  | .retry earlier steps => earlier.events ++ .attempt (earlier.attempts + 1) :: steps.events

/-- The events of an attempt. -/
def Items.events : Items → List PathEvent
  | .nil => []
  | .cons item rest => item.events ++ rest.events

end

mutual

/-- The nodes of one step, in the attempts that decided. -/
def Item.kept : Item → List String
  | .node nodeId => [nodeId]
  | .call walk => walk.kept

/-- The nodes of a walk: those of its last attempt. -/
def Walk.kept : Walk → List String
  | .first steps => steps.kept
  | .retry _ steps => steps.kept

/-- The nodes of an attempt. -/
def Items.kept : Items → List String
  | .nil => []
  | .cons item rest => item.kept ++ rest.kept

end

/-! ## What a path shows -/

/-- A list without consecutive repetitions. -/
def collapse (ids : List String) : List String :=
  ids.foldl (fun out id => if out.getLast? = some id then out else out ++ [id]) []

theorem collapse_append (ids rest : List String) :
    collapse (ids ++ rest) = rest.foldl
      (fun out id => if out.getLast? = some id then out else out ++ [id]) (collapse ids) :=
  List.foldl_append

theorem collapse_snoc (ids : List String) (id : String) :
    collapse (ids ++ [id]) =
      if (collapse ids).getLast? = some id then collapse ids else collapse ids ++ [id] :=
  collapse_append ids [id]

/-- What was collapsed stays at the front. -/
theorem collapse_append_isPrefix (ids rest : List String) : collapse ids <+: collapse (ids ++ rest) := by
  induction rest using List.reverseRecOn with
  | nil => simp
  | append_singleton rest id ih =>
      rw [← List.append_assoc, collapse_snoc]
      split
      · exact ih
      · exact ih.trans (List.prefix_append _ _)

/-- The path shows a list of steps: collapsed, and cut behind the first ones. -/
structure Shows (ids : List String) (p : StepPath) : Prop where
  steps : p.steps = (collapse ids).take MAX_PATH_STEPS
  truncated : p.truncated = decide (MAX_PATH_STEPS < (collapse ids).length)

section Events

variable {ids : List String} {p : StepPath} (h : Shows ids p)

include h

/-- **A STEP**: the node is shown behind the others, where it is new and there is room. -/
theorem Shows.push (id : String) : Shows (ids ++ [id]) (p.push id) ∧ (p.push id).walks = p.walks := by
  obtain ⟨hsteps, htrunc⟩ := h
  by_cases hlong : MAX_PATH_STEPS < (collapse ids).length
  · -- the cut is behind the steps already there
    have hlen : p.steps.length = MAX_PATH_STEPS := by
      rw [hsteps, List.length_take]
      omega
    have hmore : MAX_PATH_STEPS < (collapse (ids ++ [id])).length :=
      Nat.lt_of_lt_of_le hlong (collapse_append_isPrefix ids [id]).length_le
    have htake : (collapse (ids ++ [id])).take MAX_PATH_STEPS = p.steps := by
      obtain ⟨rest, hrest⟩ := collapse_append_isPrefix ids [id]
      rw [← hrest, List.take_append_of_le_length (Nat.le_of_lt hlong), hsteps]
    have htrue : p.truncated = true := by rw [htrunc, decide_eq_true hlong]
    rw [StepPath.push]
    split
    · exact ⟨⟨htake.symm, by rw [htrue, decide_eq_true hmore]⟩, rfl⟩
    · rw [if_pos (Nat.le_of_eq hlen.symm)]
      exact ⟨⟨htake.symm, by rw [decide_eq_true hmore]⟩, rfl⟩
  · have hall : p.steps = collapse ids := by
      rw [hsteps, List.take_of_length_le (by omega)]
    have hfalse : p.truncated = false := by rw [htrunc, decide_eq_false hlong]
    rw [StepPath.push, hall]
    split
    · rename_i hlast
      have hsame : collapse (ids ++ [id]) = collapse ids := by rw [collapse_snoc, if_pos hlast]
      exact ⟨⟨by rw [hsame, hsteps], by rw [hsame, htrunc]⟩, rfl⟩
    · rename_i hlast
      have hnew : collapse (ids ++ [id]) = collapse ids ++ [id] := by
        rw [collapse_snoc, if_neg hlast]
      split
      · rename_i hfull
        refine ⟨⟨?_, ?_⟩, rfl⟩
        · show collapse ids = _
          rw [hnew, List.take_append_of_le_length hfull, ← hsteps, hall]
        · show true = _
          rw [hnew, List.length_append, List.length_singleton, decide_eq_true (by omega)]
      · rename_i hroom
        refine ⟨⟨?_, ?_⟩, rfl⟩
        · show collapse ids ++ [id] = _
          rw [hnew, List.take_of_length_le]
          rw [List.length_append, List.length_singleton]
          omega
        · show p.truncated = _
          rw [hnew, List.length_append, List.length_singleton, hfalse, decide_eq_false (by omega)]

/-- The mark of a walk that starts here. -/
theorem Shows.first (n : Nat) (hn : n ≤ 1) :
    Shows ids (p.attempt n) ∧ (p.attempt n).walks = ⟨p.steps.length, p.truncated⟩ :: p.walks := by
  rw [StepPath.attempt, if_pos hn]
  exact ⟨⟨h.steps, h.truncated⟩, rfl⟩

/-- **A RETRY** rewinds to the mark: the path shows what it showed before the walk. -/
theorem Shows.retry {rest : List String} {q : StepPath} {walks : List PathMark}
    (hq : Shows (ids ++ rest) q) (hwalks : q.walks = ⟨p.steps.length, p.truncated⟩ :: walks)
    {n : Nat} (hn : 1 < n) : Shows ids (q.attempt n) ∧ (q.attempt n).walks = q.walks := by
  rw [StepPath.attempt, if_neg (Nat.not_le.mpr hn), hwalks]
  refine ⟨⟨?_, h.truncated⟩, rfl⟩
  show q.steps.take p.steps.length = _
  obtain ⟨more, hmore⟩ := collapse_append_isPrefix ids rest
  rw [hq.steps, ← hmore, List.take_take, h.steps, List.length_take]
  by_cases hle : (collapse ids).length ≤ MAX_PATH_STEPS
  · rw [Nat.min_eq_right hle, Nat.min_eq_left hle, List.take_of_length_le hle, List.take_left]
  · have hlt : MAX_PATH_STEPS ≤ (collapse ids).length := by omega
    rw [Nat.min_eq_left hlt, Nat.min_self, List.take_append_of_le_length hlt]

end Events

theorem StepPath.run_append (p : StepPath) (es fs : List PathEvent) :
    p.run (es ++ fs) = (p.run es).run fs := List.foldl_append

theorem Walk.attempts_pos : ∀ w : Walk, 0 < w.attempts
  | .first _ => Nat.zero_lt_one
  | .retry _ _ => Nat.succ_pos _

mutual

/-- A step of a walk shows its nodes. -/
theorem Item.shows : ∀ (i : Item) {ids : List String} {p : StepPath}, Shows ids p →
    Shows (ids ++ i.kept) (p.run i.events) ∧ (p.run i.events).walks = p.walks
  | .node nodeId, _, _, h => h.push nodeId
  | .call walk, ids, p, h => by
      obtain ⟨hshows, hwalks⟩ := walk.shows h
      rw [Item.events, StepPath.run_append]
      refine ⟨⟨hshows.steps, hshows.truncated⟩, ?_⟩
      show (p.run walk.events).walks.tail = _
      rw [hwalks]
      rfl

/-- A walk shows the nodes of its last attempt, and keeps the mark of its start. -/
theorem Walk.shows : ∀ (w : Walk) {ids : List String} {p : StepPath}, Shows ids p →
    Shows (ids ++ w.kept) (p.run w.events) ∧
      (p.run w.events).walks = ⟨p.steps.length, p.truncated⟩ :: p.walks
  | .first steps, ids, p, h => by
      obtain ⟨hfirst, hmark⟩ := h.first 1 (Nat.le_refl 1)
      obtain ⟨hshows, hwalks⟩ := steps.shows hfirst
      exact ⟨hshows, hwalks.trans hmark⟩
  | .retry earlier steps, ids, p, h => by
      obtain ⟨hearlier, hmark⟩ := earlier.shows h
      rw [Walk.events, StepPath.run_append]
      have hn : 1 < earlier.attempts + 1 := Nat.succ_lt_succ earlier.attempts_pos
      obtain ⟨hretry, hwalks⟩ := h.retry hearlier hmark hn
      obtain ⟨hshows, hwalks'⟩ := steps.shows hretry
      exact ⟨hshows, (hwalks'.trans hwalks).trans hmark⟩

/-- An attempt shows the nodes of its steps. -/
theorem Items.shows : ∀ (is : Items) {ids : List String} {p : StepPath}, Shows ids p →
    Shows (ids ++ is.kept) (p.run is.events) ∧ (p.run is.events).walks = p.walks
  | .nil, ids, p, h => by
      rw [Items.kept, List.append_nil]
      exact ⟨h, rfl⟩
  | .cons item rest, ids, p, h => by
      obtain ⟨hitem, hwalks⟩ := item.shows h
      obtain ⟨hrest, hwalks'⟩ := rest.shows hitem
      rw [Items.events, StepPath.run_append, Items.kept, ← List.append_assoc]
      exact ⟨hrest, hwalks'.trans hwalks⟩

end

/-- **THE PATH OF THE DECIDING ATTEMPTS**: after any walks with any retries the path is the first
    steps of the attempts that were kept, collapsed, and says whether there are more. -/
theorem step_path_kept (turn : Items) :
    (StepPath.default.run turn.events).steps = (collapse turn.kept).take MAX_PATH_STEPS ∧
      (StepPath.default.run turn.events).truncated =
        decide (MAX_PATH_STEPS < (collapse turn.kept).length) := by
  have hstart : Shows [] StepPath.default := ⟨rfl, rfl⟩
  obtain ⟨hshows, -⟩ := turn.shows hstart
  rw [List.nil_append] at hshows
  exact ⟨hshows.steps, hshows.truncated⟩

/-- A callee's retry rewinds the callee alone. -/
example : (StepPath.default.run (Items.events (.cons (.call (.first
    (.cons (.node "call") (.cons (.call (.retry (.first (.cons (.node "hello") .nil))
      (.cons (.node "hello") (.cons (.node "flaky") .nil)))) (.cons (.node "ask") .nil))))) .nil))).steps
    = ["call", "hello", "flaky", "ask"] := by decide +kernel

end Greentic.RunOutcome
