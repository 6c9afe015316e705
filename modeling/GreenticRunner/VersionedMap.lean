import GreenticRunner.Resumption

/-! # Versioned maps

    The writes of a map in the order they took place, and the map they make.  A SWAP is
    conditional on the version of the value it replaces; a TOUCH keeps the version; a MOVE
    changes where a value is kept and not the value.

    * `Write.Fits`, `History` — every swap and every touch found what it replaced;
    * `History.put_between` — of two swaps of one version of one key, a put of the key lies
      between them. -/

namespace VersionedMap

open Resumption

variable {κ ν : Type} [DecidableEq κ]

/-- A write, with the number of the call it belongs to. -/
inductive Write (κ ν : Type) where
  | put (call : Nat) (k : κ) (v : ν)
  | swap (call : Nat) (k : κ) (expected : Nat) (v : ν)
  | touch (call : Nat) (k : κ) (v : ν)
  | delete (call : Nat) (k : κ)
  | move (call : Nat) (k : κ)

/-- The key that is written. -/
def Write.key : Write κ ν → κ
  | .put _ k _ => k
  | .swap _ k _ _ => k
  | .touch _ k _ => k
  | .delete _ k => k
  | .move _ k => k

def Write.apply (m : κ → Option ν) : Write κ ν → κ → Option ν
  | .put _ k v => Function.update m k (some v)
  | .swap _ k _ v => Function.update m k (some v)
  | .touch _ k v => Function.update m k (some v)
  | .delete _ k => Function.update m k none
  | .move _ _ => m

/-- The map after a row of writes. -/
def replay (init : κ → Option ν) (log : List (Write κ ν)) : κ → Option ν :=
  log.foldl Write.apply init

variable {init : κ → Option ν} {log : List (Write κ ν)} {k : κ} {e : Write κ ν}

@[simp] theorem replay_nil : replay init [] = init := rfl

@[simp] theorem replay_snoc : replay init (log ++ [e]) = e.apply (replay init log) :=
  List.foldl_append

theorem Write.apply_of_ne {m : κ → Option ν} (h : k ≠ e.key) : e.apply m k = m k := by
  cases e with
  | put i k' v => exact Function.update_of_ne h _ _
  | swap i k' r v => exact Function.update_of_ne h _ _
  | touch i k' v => exact Function.update_of_ne h _ _
  | delete i k' => exact Function.update_of_ne h _ _
  | move i k' => rfl

/-! ## Values a key had -/

/-- The key had the value at a moment between two numbers of writes. -/
def Seen (init : κ → Option ν) (log : List (Write κ ν)) (since ended : Nat) (k : κ)
    (x : Option ν) : Prop :=
  ∃ m, since ≤ m ∧ m ≤ ended ∧ replay init (log.take m) k = x

theorem Seen.now {since : Nat} (h : since ≤ log.length) :
    Seen init log since log.length k (replay init log k) :=
  ⟨log.length, h, Nat.le_refl _, by rw [List.take_length]⟩

/-- Later writes change nothing about the past. -/
theorem Seen.later {since ended ended' : Nat} {x : Option ν} {more : List (Write κ ν)}
    (h : Seen init log since ended k x) (hle : ended ≤ log.length) (hle' : ended ≤ ended') :
    Seen init (log ++ more) since ended' k x := by
  obtain ⟨m, h1, h2, hx⟩ := h
  refine ⟨m, h1, Nat.le_trans h2 hle', ?_⟩
  rw [List.take_append_of_le_length (Nat.le_trans h2 hle)]
  exact hx

/-! ## Histories -/

section Versions

variable {rev : ν → Nat} {next : Nat → Nat}

/-- The write meets a map it can be made on. -/
def Write.Fits (rev : ν → Nat) (next : Nat → Nat) (m : κ → Option ν) : Write κ ν → Prop
  | .swap _ k expected v => (∃ x, m k = some x ∧ rev x = expected) ∧ rev v = next expected
  | .touch _ k v => ∃ x, m k = some x ∧ rev v = rev x
  | _ => True

/-- Every write of the row meets a map it can be made on. -/
inductive History (rev : ν → Nat) (next : Nat → Nat) (init : κ → Option ν) :
    List (Write κ ν) → Prop where
  | nil : History rev next init []
  | snoc {log : List (Write κ ν)} {e : Write κ ν} (h : History rev next init log)
      (he : e.Fits rev next (replay init log)) : History rev next init (log ++ [e])

/-- Behind a swap every value of the key has a higher version, until a put. -/
theorem History.version_lt {top : Nat} (hnext : ∀ r r', r < top → r ≤ r' → r < next r')
    (h : History rev next init log) : ∀ {pre post : List (Write κ ν)} {i r : Nat} {v x : ν},
      log = pre ++ .swap i k r v :: post → (∀ j w, .put j k w ∉ post) → r < top →
      replay init log k = some x → r < rev x := by
  induction h with
  | nil =>
      intro pre post i r v x hlog
      simp at hlog
  | @snoc log e _ he ih =>
      intro pre post i r v x hlog hput hr hx
      rw [replay_snoc] at hx
      rcases concat_split hlog with ⟨-, rfl, -⟩ | ⟨mid, rfl, hpre⟩
      · -- the swap is the last write
        have hv : v = x := by simpa [Write.apply] using hx
        rw [← hv, he.2]
        exact hnext r r hr (Nat.le_refl _)
      · have hput' : ∀ j w, .put j k w ∉ mid := fun j w hmem =>
          hput j w (List.mem_append_left _ hmem)
        by_cases hk : k = e.key
        · cases e with
          | put j k' w =>
              subst hk
              exact absurd (by simp) (hput j w)
          | swap j k' r' w =>
              subst hk
              obtain ⟨⟨y, hy, hrev⟩, hw⟩ := he
              have hlt : r < rev y := ih hpre hput' hr hy
              have hx' : w = x := by simpa [Write.apply, Write.key] using hx
              rw [← hx', hw]
              exact hnext r r' hr (by omega)
          | touch j k' w =>
              subst hk
              obtain ⟨y, hy, hrev⟩ := he
              have hlt : r < rev y := ih hpre hput' hr hy
              have hx' : w = x := by simpa [Write.apply, Write.key] using hx
              rw [← hx', hrev]
              exact hlt
          | delete j k' =>
              subst hk
              simp [Write.apply] at hx
          | move j k' => exact ih hpre hput' hr hx
        · rw [Write.apply_of_ne hk] at hx
          exact ih hpre hput' hr hx

/-- What stands at a place of a history met the map before it. -/
theorem History.fits (h : History rev next init log) {pre post : List (Write κ ν)}
    (hlog : log = pre ++ e :: post) :
    History rev next init pre ∧ e.Fits rev next (replay init pre) := by
  induction h generalizing post with
  | nil => simp at hlog
  | @snoc log e' h he ih =>
      rcases concat_split hlog with ⟨rfl, rfl, -⟩ | ⟨mid, -, hpre⟩
      · exact ⟨h, he⟩
      · exact ih hpre

/-- **A VERSION IS SWAPPED ONCE**, unless the key is put in between. -/
theorem History.put_between {top : Nat} (hnext : ∀ r r', r < top → r ≤ r' → r < next r')
    (h : History rev next init log) {pre mid post : List (Write κ ν)} {i j r : Nat} {v w : ν}
    (hlog : log = pre ++ .swap i k r v :: (mid ++ .swap j k r w :: post)) (hr : r < top) :
    ∃ n u, .put n k u ∈ mid := by
  by_contra hnone
  push Not at hnone
  rw [← List.cons_append, ← List.append_assoc] at hlog
  obtain ⟨hmid, ⟨x, hx, hrev⟩, -⟩ := h.fits hlog
  have hlt : r < rev x := hmid.version_lt hnext rfl hnone hr hx
  omega

end Versions

end VersionedMap
