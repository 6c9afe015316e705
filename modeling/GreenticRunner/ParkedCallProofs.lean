import GreenticRunner.AgentModel
import GreenticRunner.ConversationProofs
import GreenticRunner.Transition

/-! # Parked calls

    A flow tool that parks on the user keeps its call open: the user may answer, the flow may ask
    again, and typed messages may be answered in between.

    * `Park`, `parkStep` — a parked call, parked again and answered around;
    * `park_lifetime`, `agedPark_shortened` — how long it stays. -/

namespace Greentic.Aw

open Transition Resumption

/-! ## How long a call stays parked -/

/-- A flow that asks again, in `resume_pending`. -/
def PendingToolCall.reparked (pending : PendingToolCall) (now : Int) (snapshot presentation : Json) :
    PendingToolCall :=
  { pending with
    flowSnapshot := snapshot
    expiresAt := PendingToolCall.expiryFrom now
    presentation := some presentation
    sideTurns := 0 }

/-- A parked call, when it last parked, and the time. -/
structure Park where
  pending : PendingToolCall
  lastPark : Int
  clock : Int

/-- What happens to a parked call. -/
inductive ParkOp where
  | repark (takenAt now : Int) (snapshot presentation : Json)
  | sideTurn (now : Int)

/-- One operation, no earlier than the one before: an answer that was taken in time and parks again,
    or a side turn that is allowed. -/
def parkStep (s : Park) : ParkOp → Option Park
  | .repark takenAt now snapshot presentation =>
      if s.clock ≤ takenAt ∧ takenAt ≤ now ∧ s.pending.isExpired takenAt = false then
        some ⟨s.pending.reparked now snapshot presentation, now, now⟩
      else none
  | .sideTurn now =>
      if s.clock ≤ now ∧ sideTurnAllowed s.pending now = true then
        some ⟨beginSideTurn s.pending now, s.lastPark, now⟩
      else none

/-- The call as the loop parks it, with its two readings of the clock. -/
structure Park.Parked (s : Park) (expiryAt parkedAt : Int) : Prop where
  expires : s.pending.expiresAt = PendingToolCall.expiryFrom expiryAt
  parked : s.pending.parkedAt = some parkedAt
  sideTurns : s.pending.sideTurns = 0
  order : expiryAt ≤ parkedAt
  lastPark : s.lastPark = parkedAt
  clock : s.clock = parkedAt

/-- What holds while the call is parked. -/
structure ParkInv (parkedAt : Int) (s : Park) : Prop where
  parked : s.pending.parkedAt = some parkedAt
  sideTurns : s.pending.sideTurns ≤ maxSideTurns
  expires : s.pending.expiresAt ≤ max (parkedAt + pendingToolMaxAge) (s.lastPark + pendingToolIdleTtl)
  idle : s.pending.expiresAt ≤ s.clock + pendingToolIdleTtl

section Park

variable {s s' : Park} {expiryAt parkedAt now : Int}

theorem ParkInv.parks (h : s.Parked expiryAt parkedAt) : ParkInv parkedAt s := by
  have hexp : s.pending.expiresAt = expiryAt + pendingToolIdleTtl := h.expires
  refine ⟨h.parked, ?_, ?_, ?_⟩
  · rw [h.sideTurns]
    exact Nat.zero_le _
  · refine le_max_of_le_right ?_
    rw [hexp, h.lastPark]
    exact Int.add_le_add_right h.order _
  · rw [hexp, h.clock]
    exact Int.add_le_add_right h.order _

/-- A side turn takes the smaller of the idle expiry and the age cap. -/
theorem sideTurn_step (h : ParkInv parkedAt s) (hs : parkStep s (.sideTurn now) = some s') :
    s.clock ≤ now ∧ s.pending.sideTurns < maxSideTurns ∧
      s' = ⟨beginSideTurn s.pending now, s.lastPark, now⟩ ∧
      s'.pending.expiresAt = min (now + pendingToolIdleTtl) (parkedAt + pendingToolMaxAge) := by
  dsimp only [parkStep] at hs
  split at hs
  · rename_i hguard
    cases hs
    have hallowed := hguard.2
    unfold sideTurnAllowed at hallowed
    simp only [Bool.and_eq_true, decide_eq_true_eq] at hallowed
    refine ⟨hguard.1, hallowed.1.2, rfl, ?_⟩
    unfold beginSideTurn
    dsimp only
    rw [h.parked]
    rfl
  · exact nomatch hs

theorem ParkInv.step (h : ParkInv parkedAt s) {op : ParkOp} (hs : parkStep s op = some s') :
    ParkInv parkedAt s' := by
  cases op with
  | repark takenAt now snapshot presentation =>
      dsimp only [parkStep] at hs
      split at hs
      · cases hs
        exact ⟨h.parked, Nat.zero_le _, le_max_right _ _, le_refl _⟩
      · exact nomatch hs
  | sideTurn now =>
      obtain ⟨-, hturns, rfl, hexp⟩ := sideTurn_step h hs
      refine ⟨h.parked, hturns, ?_, ?_⟩
      · rw [hexp]
        exact (min_le_right _ _).trans (le_max_left _ _)
      · rw [hexp]
        exact min_le_left _ _

/-- **PARK LIFETIME**: along every sequence of re-parks and side turns of a parked call at nondecreasing
    times, the side turns stay within their limit and the expiry within the age cap or the idle time
    after the last park.  A side turn takes the smaller of the idle expiry and the age cap: it makes an
    expiry within the cap no earlier than it was, and brings a later one back to exactly the cap. -/
theorem park_lifetime {s₀ : Park} (hp : s₀.Parked expiryAt parkedAt)
    (h : Reach parkStep Any s₀ s) :
    s.pending.sideTurns ≤ maxSideTurns ∧
    s.pending.expiresAt ≤ max (parkedAt + pendingToolMaxAge) (s.lastPark + pendingToolIdleTtl) ∧
    ∀ now s', parkStep s (.sideTurn now) = some s' →
      s'.pending.expiresAt = min (now + pendingToolIdleTtl) (parkedAt + pendingToolMaxAge) ∧
      (s.pending.expiresAt ≤ parkedAt + pendingToolMaxAge →
        s.pending.expiresAt ≤ s'.pending.expiresAt) ∧
      (parkedAt + pendingToolMaxAge < s.pending.expiresAt →
        s'.pending.expiresAt = parkedAt + pendingToolMaxAge) := by
  have hinv : ParkInv parkedAt s :=
    h.inv (ParkInv.parks hp) fun _ _ _ hi _ hs => hi.step hs
  refine ⟨hinv.sideTurns, hinv.expires, ?_⟩
  intro now s' hs
  obtain ⟨hclock, -, -, hexp⟩ := sideTurn_step hinv hs
  have hidle : s.pending.expiresAt ≤ now + pendingToolIdleTtl :=
    hinv.idle.trans (Int.add_le_add_right hclock _)
  refine ⟨hexp, ?_, ?_⟩
  · intro hcap
    rw [hexp]
    exact le_min hidle hcap
  · intro hbeyond
    rw [hexp]
    exact min_eq_right (hbeyond.le.trans hidle)

end Park

/-- A call parked at the time 0. -/
def parkedNow : Park where
  pending := ⟨"c", "book", "flow:book", .null, "book", .null, 1, PendingToolCall.expiryFrom 0,
    some .null, some 0, 0, 0⟩
  lastPark := 0
  clock := 0

/-- The minute `n`, in nanoseconds. -/
def minute (n : Int) : Int := n * (60 * 10 ^ 9)

/-- The flow asks again every fifty minutes, for more than 23 hours. -/
def reparks : List ParkOp :=
  (List.range 28).map fun k => .repark (minute (50 * (k + 1))) (minute (50 * (k + 1))) .null .null

theorem parkedNow_parked : parkedNow.Parked 0 0 := ⟨rfl, rfl, rfl, le_refl _, rfl, rfl⟩

/-- A side turn after 25 minutes, and a flow that asks again every fifty minutes: the call then
    expires at 24 hours and 20 minutes, and the next side turn brings that back to 24 hours. -/
theorem park_lifetime_reparked : ∃ s s', Reach parkStep Any parkedNow s ∧
    s.pending.expiresAt = minute 1460 ∧ s.pending.sideTurns ≤ maxSideTurns ∧
    parkStep s (.sideTurn (minute 1410)) = some s' ∧ s'.pending.expiresAt = minute 1440 := by
  have hrun : ∃ s, Reach parkStep Any parkedNow s ∧
      (decide (s.pending.expiresAt = minute 1460) &&
        (parkStep s (.sideTurn (minute 1410))).isSome) = true :=
    Reach.of_test (.sideTurn (minute 25) :: reparks) (by decide +kernel)
  obtain ⟨s, hs, ht⟩ := hrun
  obtain ⟨hexp, hsome⟩ := Bool.and_eq_true_iff.mp ht
  obtain ⟨s', hs'⟩ := Option.isSome_iff_exists.mp hsome
  obtain ⟨hturns, -, hside⟩ := park_lifetime parkedNow_parked hs
  have hbeyond : (0 : Int) + pendingToolMaxAge < s.pending.expiresAt := by
    rw [of_decide_eq_true hexp]
    decide
  refine ⟨s, s', hs, of_decide_eq_true hexp, hturns, hs', ?_⟩
  rw [(hside _ s' hs').2.2 hbeyond]
  decide

/-- Asked again after 23 hours and 20 minutes the call expires at 24 hours and 20 minutes; a side turn
    ten minutes later brings that back to 24 hours. -/
theorem agedPark_shortened : ∃ s s', Reach parkStep Any parkedNow s ∧
    parkStep s (.sideTurn (minute 1410)) = some s' ∧
    s'.pending.expiresAt < s.pending.expiresAt := by
  have hrun : ∃ s, Reach parkStep Any parkedNow s ∧
      ((parkStep s (.sideTurn (minute 1410))).any fun s' =>
        decide (s'.pending.expiresAt < s.pending.expiresAt)) = true :=
    Reach.of_test reparks (by decide +kernel)
  obtain ⟨s, hs, ht⟩ := hrun
  obtain ⟨s', hs', hlt⟩ := (Option.any_eq_true _ _).mp ht
  exact ⟨s, s', hs, hs', of_decide_eq_true hlt⟩

end Greentic.Aw
