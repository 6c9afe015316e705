import Mathlib

/-! # Maps whose entries lapse

    A lease is a value with the moment it ends at; at that moment and later it counts as
    absent.  A store of leases may keep a lapsed one for as long as it likes, or drop it at
    any time: nobody who asks at nondecreasing times can tell.

    * `Backend.results_eq` — a store that serves every call in agreement with the map
      returns what the map answers;
    * `answers_map` — what a run answers depends on the ORDER of its moments only. -/

namespace TtlMaps

variable {κ β τ : Type} [LinearOrder τ]

/-- A value until a moment. -/
structure Lease (β τ : Type) where
  value : β
  expires : τ
  deriving DecidableEq, Repr

/-- The lease a key holds: a lapsed one is none. -/
def held (now : τ) (m : κ → Option (Lease β τ)) (k : κ) : Option (Lease β τ) :=
  (m k).filter fun e => decide (now < e.expires)

/-- The value a key holds. -/
def live (now : τ) (m : κ → Option (Lease β τ)) (k : κ) : Option β :=
  (held now m k).map Lease.value

/-- What a write does to its key. -/
inductive Change (β τ : Type) where
  | keep
  | remove
  | put (value : β) (expires : τ)
  deriving DecidableEq, Repr

def Change.apply [DecidableEq κ] (m : κ → Option (Lease β τ)) (k : κ) :
    Change β τ → κ → Option (Lease β τ)
  | .keep => m
  | .remove => Function.update m k none
  | .put value expires => Function.update m k (some ⟨value, expires⟩)

/-- The maps hold the same leases at the moment. -/
def Agree (now : τ) (m r : κ → Option (Lease β τ)) : Prop :=
  ∀ k, held now m k = held now r k

variable {now now' : τ} {m m' r : κ → Option (Lease β τ)} {k : κ}

theorem Agree.live_eq (h : Agree now m r) (k : κ) : live now m k = live now r k := by
  rw [live, live, h k]

/-- What is held later is what is held now and has not lapsed by then. -/
theorem held_later (hle : now ≤ now') (m : κ → Option (Lease β τ)) (k : κ) :
    held now' m k = (held now m k).filter fun e => decide (now' < e.expires) := by
  unfold held
  cases m k with
  | none => rfl
  | some e =>
    by_cases hlate : now' < e.expires
    · have hnow : now < e.expires := lt_of_le_of_lt hle hlate
      simp only [Option.filter_some, hnow, hlate, decide_true, if_true]
    · by_cases hnow : now < e.expires
      · simp only [Option.filter_some, hnow, hlate, decide_true, if_true]
      · simp [Option.filter_some, hnow, hlate]

/-- **LAPSED STAYS LAPSED**: agreement is kept as time passes. -/
theorem Agree.later (h : Agree now m r) (hle : now ≤ now') : Agree now' m r := by
  intro k
  rw [held_later hle, held_later hle, h k]

theorem Agree.trans {o : κ → Option (Lease β τ)} (h1 : Agree now m r) (h2 : Agree now r o) :
    Agree now m o :=
  fun k => (h1 k).trans (h2 k)

theorem held_update [DecidableEq κ] (now : τ) (m : κ → Option (Lease β τ)) (k k' : κ)
    (x : Option (Lease β τ)) :
    held now (Function.update m k x) k'
      = if k' = k then x.filter fun e => decide (now < e.expires) else held now m k' := by
  unfold held
  by_cases hk : k' = k
  · subst hk
    simp
  · simp [hk]

/-- The same change on both sides. -/
theorem Agree.change [DecidableEq κ] (h : Agree now m r) (k : κ) (c : Change β τ) :
    Agree now (c.apply m k) (c.apply r k) := by
  intro k'
  cases c with
  | keep => exact h k'
  | remove =>
    show held now (Function.update m k none) k' = held now (Function.update r k none) k'
    rw [held_update, held_update, h k']
  | put value expires =>
    show held now (Function.update m k _) k' = held now (Function.update r k _) k'
    rw [held_update, held_update, h k']

/-- A key that holds nothing may lose its entry. -/
theorem Agree.drop [DecidableEq κ] (hk : held now m k = none) :
    Agree now (Function.update m k none) m := by
  intro k'
  rw [held_update]
  split
  · next heq => rw [heq, hk]; rfl
  · rfl

/-- **SWEEPS ARE UNOBSERVABLE**: what is kept is every lease that has not lapsed. -/
theorem Agree.sweep (m : κ → Option (Lease β τ)) :
    Agree now (fun k => (m k).filter fun e => decide (now < e.expires)) m := by
  intro k
  show ((m k).filter _).filter _ = (m k).filter _
  rw [Option.filter_filter]
  simp only [Bool.and_self]

/-! ## Runs of requests -/

/-- A request about one key: what it answers and changes, given the value it finds. -/
structure Request (κ β τ ρ : Type) where
  key : κ
  now : τ
  answer : Option β → ρ
  change : Option β → Change β τ

section Runs

variable [DecidableEq κ] {ρ : Type}

/-- The map after a request. -/
def serve (m : κ → Option (Lease β τ)) (q : Request κ β τ ρ) : κ → Option (Lease β τ) :=
  (q.change (live q.now m q.key)).apply m q.key

/-- What a row of requests is answered. -/
def answers : (κ → Option (Lease β τ)) → List (Request κ β τ ρ) → List ρ
  | _, [] => []
  | m, q :: rest => q.answer (live q.now m q.key) :: answers (serve m q) rest

theorem Agree.serve {q : Request κ β τ ρ} (h : Agree q.now m r) :
    Agree q.now (serve m q) (serve r q) := by
  unfold TtlMaps.serve
  rw [h.live_eq q.key]
  exact h.change q.key _

/-- A store of leases of its own making: how it serves a call, and the request the call
    stands for. -/
structure Backend (σ ι κ β τ ρ : Type) where
  view : σ → κ → Option (Lease β τ)
  request : ι → Request κ β τ ρ
  step : σ → ι → ρ × σ

/-- What a row of calls returns. -/
def Backend.results {σ ι : Type} (b : Backend σ ι κ β τ ρ) : σ → List ι → List ρ
  | _, [] => []
  | s, c :: rest => (b.step s c).1 :: b.results (b.step s c).2 rest

/-- A call is served as its request is, and the store still holds what the map holds. -/
structure Backend.Serves {σ ι : Type} (b : Backend σ ι κ β τ ρ) (Good : σ → Prop) (s : σ)
    (c : ι) : Prop where
  answer : (b.step s c).1
    = (b.request c).answer (live (b.request c).now (b.view s) (b.request c).key)
  agree : Agree (b.request c).now (b.view (b.step s c).2) (serve (b.view s) (b.request c))
  good : Good (b.step s c).2

/-- **REFINEMENT OF THE REFERENCE**: a store that serves every call returns over a row of
    calls at nondecreasing times what the map answers. -/
theorem Backend.results_eq {σ ι : Type} (b : Backend σ ι κ β τ ρ) (Good : σ → Prop)
    (calls : List ι) (hserves : ∀ s, Good s → ∀ c ∈ calls, b.Serves Good s c)
    (htimes : calls.Pairwise fun c d => (b.request c).now ≤ (b.request d).now) {s : σ}
    (hgood : Good s) {r : κ → Option (Lease β τ)}
    (h : ∀ c ∈ calls, Agree (b.request c).now (b.view s) r) :
    b.results s calls = answers r (calls.map b.request) := by
  induction calls generalizing s r with
  | nil => rfl
  | cons c rest ih =>
    have hc : c ∈ c :: rest := List.mem_cons_self
    have hrest : ∀ d ∈ rest, d ∈ c :: rest := fun d hd => List.mem_cons_of_mem c hd
    obtain ⟨hfirst, hlater⟩ := List.pairwise_cons.mp htimes
    obtain ⟨hanswer, hagree, hgood'⟩ := hserves s hgood c hc
    show (b.step s c).1 :: _ = (b.request c).answer _ :: _
    rw [hanswer, (h c hc).live_eq]
    congr 1
    refine ih (fun s hs d hd => hserves s hs d (hrest d hd)) hlater hgood' ?_
    intro d hd
    exact (hagree.trans (h c hc).serve).later (hfirst d hd)

end Runs

/-! ## Only the order of the moments counts -/

section Order

variable {ρ υ : Type} [LinearOrder υ] {f : τ → υ}

def Lease.map (f : τ → υ) (e : Lease β τ) : Lease β υ := ⟨e.value, f e.expires⟩

def Change.map (f : τ → υ) : Change β τ → Change β υ
  | .keep => .keep
  | .remove => .remove
  | .put value expires => .put value (f expires)

/-- The request at another clock. -/
def Request.map (f : τ → υ) (q : Request κ β τ ρ) : Request κ β υ ρ where
  key := q.key
  now := f q.now
  answer := q.answer
  change := fun x => (q.change x).map f

/-- The map at another clock. -/
def mapped (f : τ → υ) (m : κ → Option (Lease β τ)) : κ → Option (Lease β υ) :=
  fun k => (m k).map (Lease.map f)

theorem live_mapped (hf : StrictMono f) (m : κ → Option (Lease β τ)) (k : κ) :
    live (f now) (mapped f m) k = live now m k := by
  unfold live held mapped
  cases m k with
  | none => rfl
  | some e =>
    have hiff : f now < f e.expires ↔ now < e.expires := hf.lt_iff_lt
    by_cases hnow : now < e.expires
    · simp [Option.filter_some, Lease.map, hiff, hnow]
    · simp [Option.filter_some, Lease.map, hiff, hnow]

omit [LinearOrder τ] [LinearOrder υ] in
theorem apply_mapped [DecidableEq κ] (m : κ → Option (Lease β τ)) (k : κ) (c : Change β τ) :
    (c.map f).apply (mapped f m) k = mapped f (c.apply m k) := by
  cases c with
  | keep => rfl
  | remove =>
    funext k'
    by_cases hk : k' = k
    · simp [Change.map, Change.apply, mapped, hk]
    · simp [Change.map, Change.apply, mapped, hk]
  | put value expires =>
    funext k'
    by_cases hk : k' = k
    · simp [Change.map, Change.apply, mapped, Lease.map, hk]
    · simp [Change.map, Change.apply, mapped, hk]

/-- **ONLY THE ORDER COUNTS**: at a clock that orders the moments alike, a row of requests
    is answered alike. -/
theorem answers_map [DecidableEq κ] (hf : StrictMono f) (qs : List (Request κ β τ ρ))
    (m : κ → Option (Lease β τ)) :
    answers (mapped f m) (qs.map (Request.map f)) = answers m qs := by
  induction qs generalizing m with
  | nil => rfl
  | cons q rest ih =>
    have hlive : live (f q.now) (mapped f m) q.key = live q.now m q.key :=
      live_mapped hf m q.key
    have hserve : serve (mapped f m) (q.map f) = mapped f (serve m q) := by
      show ((q.change (live (f q.now) (mapped f m) q.key)).map f).apply (mapped f m) q.key = _
      rw [hlive, apply_mapped]
      rfl
    show q.answer (live (f q.now) (mapped f m) q.key) :: _ = q.answer _ :: _
    rw [hlive, hserve, ih]

end Order

end TtlMaps
