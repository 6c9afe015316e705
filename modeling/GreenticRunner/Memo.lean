import Mathlib

/-! # Memoised calls

    A memo answers a call from a store if something is kept under its key; else the call runs, and
    what it gives may be kept.  A `Policy` says under which KEY a call is looked up, if at all, and
    what is KEPT of it once it ran.

    * `store_eq` — the store after a list of calls;
    * `served_eq_iff` — when a coarse and careless policy serves like a finer and more careful one. -/

namespace Memo

variable {γ κ ρ : Type} [DecidableEq κ]

structure Policy (γ κ ρ : Type) where
  key : γ → Option κ
  keeps : γ → Option ρ

/-- One call: what it is served with, if anything, and the store after it. -/
def serve (p : Policy γ κ ρ) (m : κ → Option ρ) (c : γ) : Option ρ × (κ → Option ρ) :=
  match p.key c with
  | none => (none, m)
  | some k =>
      match m k with
      | some r => (some r, m)
      | none =>
          (none, match p.keeps c with
            | some r => Function.update m k (some r)
            | none => m)

/-- What the calls of a list are served with, one after the other. -/
def served (p : Policy γ κ ρ) (m : κ → Option ρ) : List γ → List (Option ρ)
  | [] => []
  | c :: rest => (serve p m c).1 :: served p (serve p m c).2 rest

/-- The store after a list of calls, from an empty one. -/
def store (p : Policy γ κ ρ) (calls : List γ) : κ → Option ρ :=
  calls.foldl (fun m c => (serve p m c).2) fun _ => none

/-- Whether a call is kept under a key, once it ran. -/
def keptUnder (p : Policy γ κ ρ) (k : κ) (c : γ) : Bool :=
  decide (p.key c = some k) && (p.keeps c).isSome

/-- The first call of a list that is kept under a key. -/
def keeper (p : Policy γ κ ρ) (calls : List γ) (k : κ) : Option γ := calls.find? (keptUnder p k)

variable {p q : Policy γ κ ρ} {calls : List γ} {k : κ} {c d : γ}

theorem keeper_spec (h : keeper p calls k = some d) :
    d ∈ calls ∧ p.key d = some k ∧ (p.keeps d).isSome := by
  have hkept := List.find?_some h
  rw [keptUnder, Bool.and_eq_true, decide_eq_true_eq] at hkept
  exact ⟨List.mem_of_find?_eq_some h, hkept⟩

theorem keeper_snoc (calls : List γ) (c : γ) (k : κ) :
    keeper p (calls ++ [c]) k = (keeper p calls k).or (if keptUnder p k c then some c else none) := by
  rw [keeper, List.find?_append, List.find?_singleton]
  rfl

/-- **THE STORE** gives for a key what its keeper gave. -/
theorem store_eq (p : Policy γ κ ρ) (calls : List γ) (k : κ) :
    store p calls k = (keeper p calls k).bind p.keeps := by
  induction calls using List.reverseRecOn generalizing k with
  | nil => rfl
  | append_singleton calls c ih =>
      have hstep : store p (calls ++ [c]) = (serve p (store p calls) c).2 := by
        rw [store, List.foldl_append]
        rfl
      rw [hstep, keeper_snoc]
      cases hkey : p.key c with
      | none =>
          have hnot : keptUnder p k c = false := by rw [keptUnder, hkey]; rfl
          rw [serve, hkey, hnot]
          simpa using ih k
      | some j =>
          rw [serve, hkey]
          dsimp only
          cases hj : store p calls j with
          | some r =>
              -- The key is taken, so that the call did not run.
              dsimp only
              rw [ih k]
              cases hk : keeper p calls k with
              | some d => rfl
              | none =>
                  have hne : ¬ p.key c = some k := by
                    intro hsame
                    have hjk : j = k := Option.some.inj (hkey.symm.trans hsame)
                    rw [hjk, ih k, hk] at hj
                    exact nomatch hj
                  simp [keptUnder, hne]
          | none =>
              dsimp only
              cases hkeeps : p.keeps c with
              | none =>
                  have hnot : keptUnder p k c = false := by simp [keptUnder, hkeeps]
                  rw [hnot]
                  simpa using ih k
              | some r =>
                  dsimp only
                  by_cases hjk : k = j
                  · subst hjk
                    have hnone : keeper p calls k = none := by
                      cases hd : keeper p calls k with
                      | none => rfl
                      | some d =>
                          obtain ⟨-, -, hsome⟩ := keeper_spec hd
                          rw [ih k, hd] at hj
                          rw [Option.bind_some] at hj
                          rw [hj] at hsome
                          exact nomatch hsome
                    rw [Function.update_self, hnone]
                    simp [keptUnder, hkey, hkeeps]
                  · have hnot : keptUnder p k c = false := by
                      simp [keptUnder, hkey, Ne.symm hjk]
                    rw [Function.update_of_ne hjk, hnot]
                    simpa using ih k

/-- A call is served with what its key gives. -/
theorem serve_fst (m : κ → Option ρ) : (serve p m c).1 = (p.key c).bind m := by
  rw [serve]
  cases p.key c with
  | none => rfl
  | some k => cases hm : m k <;> simp [hm]

/-- Two policies serve alike exactly if before every call its two keys give the same. -/
theorem served_eq_iff_store :
    served p (fun _ => none) calls = served q (fun _ => none) calls ↔
      ∀ pre c post, calls = pre ++ c :: post →
        (p.key c).bind (store p pre) = (q.key c).bind (store q pre) := by
  suffices h : ∀ rest done : List γ,
      served p (store p done) rest = served q (store q done) rest ↔
        ∀ pre c post, rest = pre ++ c :: post →
          (p.key c).bind (store p (done ++ pre)) = (q.key c).bind (store q (done ++ pre)) from
    h calls []
  intro rest
  induction rest with
  | nil =>
      intro done
      exact ⟨fun _ pre c post h => absurd h (by simp), fun _ => rfl⟩
  | cons c rest ih =>
      intro done
      have hp : (serve p (store p done) c).2 = store p (done ++ [c]) := by
        rw [store, store, List.foldl_append]
        rfl
      have hq : (serve q (store q done) c).2 = store q (done ++ [c]) := by
        rw [store, store, List.foldl_append]
        rfl
      rw [served, served, List.cons.injEq, hp, hq, ih, serve_fst, serve_fst]
      constructor
      · rintro ⟨hhead, htail⟩ pre d post hsplit
        cases pre with
        | nil =>
            cases hsplit
            simpa using hhead
        | cons e pre =>
            cases hsplit
            simpa using htail pre d post rfl
      · intro h
        refine ⟨by simpa using h [] c rest rfl, fun pre d post hsplit => ?_⟩
        simpa using h (c :: pre) d post (by rw [hsplit]; rfl)

/-- A policy `q` that tells more calls apart than `p`, and keeps fewer of them. -/
structure Finer (q p : Policy γ κ ρ) (calls : List γ) : Prop where
  asks : ∀ c ∈ calls, p.key c = none ↔ q.key c = none
  key : ∀ c ∈ calls, ∀ d ∈ calls, q.key c = q.key d → p.key c = p.key d
  keeps : ∀ c ∈ calls, ∀ r, q.keeps c = some r → p.keeps c = some r

/-- What the finer policy keeps under the key of a call, the other one keeps under it, too. -/
theorem Finer.keptUnder {j : κ} (h : Finer q p calls) (hc : c ∈ calls) (hd : d ∈ calls)
    (hp : p.key c = some k) (hq : q.key c = some j) (hkept : keptUnder q j d = true) :
    Memo.keptUnder p k d = true := by
  rw [Memo.keptUnder, Bool.and_eq_true, decide_eq_true_eq] at hkept ⊢
  obtain ⟨hkey, hsome⟩ := hkept
  obtain ⟨r, hr⟩ := Option.isSome_iff_exists.mp hsome
  refine ⟨?_, ?_⟩
  · rw [h.key d hd c hc (hkey.trans hq.symm), hp]
  · rw [h.keeps d hd r hr]
    rfl

/-- **THE COARSER POLICY SERVES ALIKE** exactly if every call is served with the result of a call that
    the finer one takes for the same, and keeps. -/
theorem served_eq_iff (h : Finer q p calls) :
    served p (fun _ => none) calls = served q (fun _ => none) calls ↔
      ∀ pre c post, calls = pre ++ c :: post → ∀ k d, p.key c = some k →
        keeper p pre k = some d → q.key d = q.key c ∧ (q.keeps d).isSome := by
  rw [served_eq_iff_store]
  constructor
  · intro hstore pre c post hsplit k d hp hd
    have hc : c ∈ calls := by simp [hsplit]
    have hpre : ∀ e ∈ pre, e ∈ calls := fun e he => by simp [hsplit, he]
    obtain ⟨j, hq⟩ : ∃ j, q.key c = some j :=
      Option.ne_none_iff_exists'.mp fun hnone => by
        rw [(h.asks c hc).mpr hnone] at hp
        exact nomatch hp
    obtain ⟨-, -, hsome⟩ := keeper_spec hd
    obtain ⟨v, hv⟩ := Option.isSome_iff_exists.mp hsome
    -- The finer policy serves the same value, from a call `m` with the key of `c`.
    have hserved := hstore pre c post hsplit
    rw [hp, hq, Option.bind_some, Option.bind_some, store_eq, store_eq, hd, Option.bind_some, hv]
      at hserved
    obtain ⟨m, hm, hkeeps⟩ := Option.bind_eq_some_iff.mp hserved.symm
    obtain ⟨hmem, hkey, hmsome⟩ := keeper_spec hm
    obtain ⟨hkept, as, bs, rfl, has⟩ := List.find?_eq_some_iff_append.mp hm
    have hmp := h.keptUnder hc (hpre m hmem) hp hq hkept
    cases hfirst : keeper p as k with
    | none =>
        have hsame : keeper p (as ++ m :: bs) k = some m := by
          rw [keeper, List.find?_append, show as.find? (keptUnder p k) = none from hfirst,
            Option.none_or, List.find?_cons_of_pos hmp]
        rw [hsame] at hd
        cases hd
        exact ⟨hkey.trans hq.symm, hmsome⟩
    | some e =>
        -- Otherwise `m` itself would have been served with another call's result.
        exfalso
        obtain ⟨-, -, hesome⟩ := keeper_spec hfirst
        have hmkey : p.key m = some k := by
          rw [keptUnder, Bool.and_eq_true, decide_eq_true_eq] at hmp
          exact hmp.1
        have hnone : keeper q as j = none := List.find?_eq_none.mpr fun a ha => by
          simpa using has a ha
        have hagree := hstore as m (bs ++ c :: post) (by rw [hsplit]; simp)
        rw [hmkey, hkey, Option.bind_some, Option.bind_some, store_eq, store_eq, hfirst, hnone] at hagree
        rw [show p.keeps e = none from hagree] at hesome
        exact nomatch hesome
  · intro hall pre c post hsplit
    have hc : c ∈ calls := by simp [hsplit]
    have hpre : ∀ e ∈ pre, e ∈ calls := fun e he => by simp [hsplit, he]
    cases hp : p.key c with
    | none => rw [(h.asks c hc).mp hp]; rfl
    | some k =>
        obtain ⟨j, hq⟩ : ∃ j, q.key c = some j :=
          Option.ne_none_iff_exists'.mp fun hnone => by
            rw [(h.asks c hc).mpr hnone] at hp
            exact nomatch hp
        rw [hq, Option.bind_some, Option.bind_some, store_eq, store_eq]
        cases hd : keeper p pre k with
        | none =>
            have hnone : keeper q pre j = none := List.find?_eq_none.mpr fun a ha hkept =>
              List.find?_eq_none.mp hd a ha (h.keptUnder hc (hpre a ha) hp hq hkept)
            rw [hnone]
            rfl
        | some d =>
            obtain ⟨hkey, hsome⟩ := hall pre c post hsplit k d hp hd
            obtain ⟨r, hr⟩ := Option.isSome_iff_exists.mp hsome
            obtain ⟨-, as, bs, rfl, has⟩ := List.find?_eq_some_iff_append.mp hd
            have hsame : keeper q (as ++ d :: bs) j = some d := by
              refine List.find?_eq_some_iff_append.mpr ⟨?_, as, bs, rfl, fun a ha => ?_⟩
              · rw [keptUnder, hkey, hq, hr]
                simp
              · cases hkept : keptUnder q j a with
                | false => rfl
                | true =>
                    have := h.keptUnder hc (hpre a (List.mem_append_left _ ha)) hp hq hkept
                    have hnot := has a ha
                    rw [this] at hnot
                    exact nomatch hnot
            rw [hsame, Option.bind_some, Option.bind_some, hr]
            exact h.keeps d (hpre d (by simp)) r hr

end Memo
