import GreenticRunner.Resumption

/-! # A rely-guarantee logic for resumption programs

    `Sat` says of a thread that every operation it performs is allowed (`ok`)
    and that its result satisfies `Q`, whatever the other threads do in between
    (`rely`).  It is defined by recursion on the program tree, so a proof of it
    follows the program.

    The workers of a `fork` share the state.  Their proof rests on a common
    invariant `J` over the state and one GHOST per worker: a worker step may
    change its own ghost only, and must keep `J`.

    * `Pool.Reach.sat`, `Pool.Reach.preserves` — the same for any number of
      threads over one store, spawned and killed at any moment;
    * `Main.May`, `Pool.Reach.may` — where a thread may come to;
    * `Main.SettlesAfter` — programs that stop at a marked event. -/

namespace Resumption

variable {ι : Type} {ρ : ι → Type} {ε α β γ σ π τ μ : Type}

/-- How a thread knows the state between two of its operations: at `x` it may
    meet the states `sees x`, and a step of its own from `s` to `s'` takes it to
    some `x'` with `moves x s s' x'`. -/
structure Anchor (σ π : Type) where
  sees : π → σ → Prop
  moves : π → σ → σ → π → Prop

/-- A thread that knows its last state, up to what the others may change. -/
def threadAnchor (rely : σ → σ → Prop) : Anchor σ σ where
  sees := rely
  moves := fun _ _ s' x' => x' = s'

/-- A worker that knows its own ghost; `J` ties all ghosts to the state. -/
def workerAnchor (J : σ → (Nat → γ) → Prop) (j : Nat) : Anchor σ γ where
  sees := fun g s => ∃ G, J s G ∧ G j = g
  moves := fun g s s' g' => ∀ G, J s G → G j = g → J s' (Function.update G j g')

/-- Every operation of the thread is allowed and its result satisfies `Q`. -/
def Prog.Sat (A : Anchor σ π) (exec : (i : ι) → σ → ρ i → σ → Prop)
    (ok : σ → Event ι ρ → σ → Prop) (Q : π → Except ε α → Prop) :
    Prog ι ρ ε α → π → Prop
  | .ret a, x => Q x (.ok a)
  | .fail e, x => Q x (.error e)
  | .call i k, x => ∀ s, A.sees x s → ∀ r s', exec i s r s' →
      ok s ⟨i, r⟩ s' ∧ ∃ x', A.moves x s s' x' ∧ (k r).Sat A exec ok Q x'

/-- The same for a forking thread last seen in state `s`; the results of its
    workers satisfy `W`. -/
def Main.Sat (rely : σ → σ → Prop) (exec : (i : ι) → σ → ρ i → σ → Prop)
    (ok : σ → Event ι ρ → σ → Prop) (W : σ → Except ε β → Prop)
    (Q : σ → Except ε α → Prop) : Main ι ρ ε β α → σ → Prop
  | .ret a, s => ∀ s', rely s s' → Q s' (.ok a)
  | .fail e, s => ∀ s', rely s s' → Q s' (.error e)
  | .call i k, s => ∀ s₁, rely s s₁ → ∀ r s₂, exec i s₁ r s₂ →
      ok s₁ ⟨i, r⟩ s₂ ∧ (k r).Sat rely exec ok W Q s₂
  | .fork ws k, s => ∃ (γ : Type) (J : σ → (Nat → γ) → Prop) (G : Nat → γ) (idx : Nat → Nat)
      (Qw : Nat → γ → Except ε β → Prop),
      (∀ s s' G, J s G → rely s s' → J s' G) ∧ J s G ∧
      (∀ i j, i < ws.length → j < ws.length → idx i = idx j → i = j) ∧
      (∀ (i : Nat) (w : Prog ι ρ ε β), ws[i]? = some w →
        Prog.Sat (workerAnchor J (idx i)) exec ok (Qw i) w (G (idx i))) ∧
      (∀ s' G' i r, J s' G' → i < ws.length → Qw i (G' (idx i)) r → W s' r) ∧
      (∀ s' G' (rs : List (Except ε β)), J s' G' → rs.length = ws.length →
        (∀ i r, rs[i]? = some r → Qw i (G' (idx i)) r) → (k rs).Sat rely exec ok W Q s')

section Rules

variable {rely : σ → σ → Prop} {exec : (i : ι) → σ → ρ i → σ → Prop}
  {ok : σ → Event ι ρ → σ → Prop} {W : σ → Except ε β → Prop} {A : Anchor σ π}

theorem Prog.Sat.mono {Q Q' : π → Except ε α → Prop} (hQ : ∀ x r, Q x r → Q' x r) :
    ∀ {p : Prog ι ρ ε α} {x : π}, p.Sat A exec ok Q x → p.Sat A exec ok Q' x := by
  intro p
  induction p with
  | ret a => intro x h; exact hQ x _ h
  | fail e => intro x h; exact hQ x _ h
  | call i k ih =>
      intro x h s hs r s' he
      obtain ⟨h1, x', h2, h3⟩ := h s hs r s' he
      exact ⟨h1, x', h2, ih r h3⟩

theorem Prog.Sat.bind {Q : π → Except ε α → Prop} {Q' : π → Except ε γ → Prop}
    {f : α → Prog ι ρ ε γ} (hok : ∀ x a, Q x (.ok a) → (f a).Sat A exec ok Q' x)
    (herr : ∀ x e, Q x (.error e) → Q' x (.error e)) :
    ∀ {p : Prog ι ρ ε α} {x : π}, p.Sat A exec ok Q x → (p >>= f).Sat A exec ok Q' x := by
  intro p
  induction p with
  | ret a => intro x h; exact hok x a h
  | fail e => intro x h; exact herr x e h
  | call i k ih =>
      intro x h s hs r s' he
      obtain ⟨h1, x', h2, h3⟩ := h s hs r s' he
      exact ⟨h1, x', h2, ih r h3⟩

theorem Prog.Sat.mapError {ε' : Type} {f : ε → ε'} {Q : π → Except ε α → Prop}
    {Q' : π → Except ε' α → Prop} (hok : ∀ x a, Q x (.ok a) → Q' x (.ok a))
    (herr : ∀ x e, Q x (.error e) → Q' x (.error (f e))) :
    ∀ {p : Prog ι ρ ε α} {x : π}, p.Sat A exec ok Q x → (p.mapError f).Sat A exec ok Q' x := by
  intro p
  induction p with
  | ret a => intro x h; exact hok x a h
  | fail e => intro x h; exact herr x e h
  | call i k ih =>
      intro x h s hs r s' he
      obtain ⟨h1, x', h2, h3⟩ := h s hs r s' he
      exact ⟨h1, x', h2, ih r h3⟩

theorem Main.Sat.mono {Q Q' : σ → Except ε α → Prop} (hQ : ∀ s r, Q s r → Q' s r) :
    ∀ {p : Main ι ρ ε β α} {s : σ}, p.Sat rely exec ok W Q s → p.Sat rely exec ok W Q' s := by
  intro p
  induction p with
  | ret a => intro s h s' hs; exact hQ _ _ (h s' hs)
  | fail e => intro s h s' hs; exact hQ _ _ (h s' hs)
  | call i k ih =>
      intro s h s₁ hs r s₂ he
      exact ⟨(h s₁ hs r s₂ he).1, ih r (h s₁ hs r s₂ he).2⟩
  | fork ws k ih =>
      intro s h
      obtain ⟨γ, J, G, idx, Qw, h1, h2, h3, h4, hW, h5⟩ := h
      exact ⟨γ, J, G, idx, Qw, h1, h2, h3, h4, hW,
        fun s' G' rs hJ hl hr => ih rs (h5 s' G' rs hJ hl hr)⟩

theorem Main.Sat.bind (hrefl : ∀ s, rely s s) {Q : σ → Except ε α → Prop}
    {Q' : σ → Except ε γ → Prop} {f : α → Main ι ρ ε β γ}
    (hok : ∀ s a, Q s (.ok a) → (f a).Sat rely exec ok W Q' s)
    (herr : ∀ s e, Q s (.error e) → Q' s (.error e)) :
    ∀ {p : Main ι ρ ε β α} {s : σ}, p.Sat rely exec ok W Q s →
      (p >>= f).Sat rely exec ok W Q' s := by
  intro p
  induction p with
  | ret a => intro s h; exact hok s a (h s (hrefl s))
  | fail e => intro s h s' hs; exact herr s' e (h s' hs)
  | call i k ih =>
      intro s h s₁ hs r s₂ he
      exact ⟨(h s₁ hs r s₂ he).1, ih r (h s₁ hs r s₂ he).2⟩
  | fork ws k ih =>
      intro s h
      obtain ⟨γ, J, G, idx, Qw, h1, h2, h3, h4, hW, h5⟩ := h
      exact ⟨γ, J, G, idx, Qw, h1, h2, h3, h4, hW,
        fun s' G' rs hJ hl hr => ih rs (h5 s' G' rs hJ hl hr)⟩

/-- A sequential thread inside a forking one. -/
theorem Main.Sat.lift {Q : σ → Except ε α → Prop} (hst : ∀ s s' r, Q s r → rely s s' → Q s' r) :
    ∀ {p : Prog ι ρ ε α} {s : σ}, p.Sat (threadAnchor rely) exec ok Q s →
      (Main.lift p : Main ι ρ ε β α).Sat rely exec ok W Q s := by
  intro p
  induction p with
  | ret a => intro s h s' hs; exact hst s s' _ h hs
  | fail e => intro s h s' hs; exact hst s s' _ h hs
  | call i k ih =>
      intro s h s₁ hs r s₂ he
      obtain ⟨h1, x', h2, h3⟩ := h s₁ hs r s₂ he
      have hx : x' = s₂ := h2
      subst hx
      exact ⟨h1, ih r h3⟩

/-- What the others do does not disturb a thread. -/
theorem Main.Sat.stable (htrans : ∀ s t u, rely s t → rely t u → rely s u)
    {Q : σ → Except ε α → Prop} {p : Main ι ρ ε β α} {s s' : σ}
    (h : p.Sat rely exec ok W Q s) (hs : rely s s') : p.Sat rely exec ok W Q s' := by
  cases p with
  | ret a => intro s'' h'; exact h s'' (htrans _ _ _ hs h')
  | fail e => intro s'' h'; exact h s'' (htrans _ _ _ hs h')
  | call i k => intro s₁ h' r s₂ he; exact h s₁ (htrans _ _ _ hs h') r s₂ he
  | fork ws k =>
      obtain ⟨γ, J, G, idx, Qw, h1, h2, h3, h4, hW, h5⟩ := h
      exact ⟨γ, J, G, idx, Qw, h1, h1 s s' G h2 hs, h3, h4, hW, h5⟩

/-- **ONE STEP** of a thread is allowed and keeps its guarantee. -/
theorem Main.Sat.step (hrefl : ∀ s, rely s s) {Q : σ → Except ε α → Prop}
    {p p' : Main ι ρ ε β α} {s s' : σ} {e : Option (Event ι ρ)}
    (h : p.Sat rely exec ok W Q s) (hs : Main.Step exec p s e p' s') :
    (∀ ev, e = some ev → ok s ev s') ∧ p'.Sat rely exec ok W Q s' := by
  cases hs with
  | @call i k r _ _ he =>
      obtain ⟨h1, h2⟩ := h s (hrefl s) r s' he
      refine ⟨?_, h2⟩
      intro ev hev
      cases hev
      exact h1
  | @work ws k j i w r _ _ hj he =>
      obtain ⟨γ, J, G, idx, Qw, h1, h2, h3, h4, hW, h5⟩ := h
      obtain ⟨hok, g', hmv, hk⟩ := h4 j _ hj s ⟨G, h2, rfl⟩ r s' he
      refine ⟨?_, γ, J, Function.update G (idx j) g', idx, Qw, h1, hmv G h2 rfl, ?_, ?_, ?_, ?_⟩
      · intro ev hev
        cases hev
        exact hok
      · intro a b ha hb
        rw [List.length_set] at ha hb
        exact h3 a b ha hb
      · have hjlt : j < ws.length := (List.getElem?_eq_some_iff.mp hj).1
        intro a v ha
        by_cases haj : a = j
        · subst haj
          rw [List.getElem?_set_self hjlt] at ha
          cases ha
          rw [Function.update_self]
          exact hk
        · rw [List.getElem?_set_ne (Ne.symm haj)] at ha
          have halt : a < ws.length := (List.getElem?_eq_some_iff.mp ha).1
          rw [Function.update_of_ne (fun hc => haj (h3 a j halt hjlt hc))]
          exact h4 a v ha
      · intro s'' G' i r hJ hi hr
        rw [List.length_set] at hi
        exact hW s'' G' i r hJ hi hr
      · intro s'' G' rs hJ hl hr
        rw [List.length_set] at hl
        exact h5 s'' G' rs hJ hl hr
  | @join ws k rs _ hset =>
      obtain ⟨γ, J, G, idx, Qw, h1, h2, h3, h4, hW, h5⟩ := h
      refine ⟨?_, h5 s G rs h2 ?_ ?_⟩
      · intro ev hev
        exact nomatch hev
      · have hl := congrArg List.length hset
        rw [List.length_map, List.length_map] at hl
        exact hl.symm
      · intro i r hi
        have hw : (ws.map Prog.outcome?)[i]? = some (some r) := by
          rw [hset, List.getElem?_map, hi]
          rfl
        rw [List.getElem?_map] at hw
        obtain ⟨w, hw1, hw2⟩ := Option.map_eq_some_iff.mp hw
        have hsat := h4 i w hw1
        cases w with
        | ret b => cases hw2; exact hsat
        | fail e => cases hw2; exact hsat
        | call _ _ => exact nomatch hw2

/-- A whole run of one thread: all its events are allowed, and the guarantee
    holds where the run stands. -/
theorem Run.sat (hrefl : ∀ s, rely s s) {Q : σ → Except ε α → Prop}
    {p p' : Main ι ρ ε β α} {s s' : σ} {es : List (Event ι ρ)}
    (hr : Run exec p s es p' s') (h : p.Sat rely exec ok W Q s) :
    p'.Sat rely exec ok W Q s' := by
  induction hr with
  | refl => exact h
  | tail _ hs ih => exact (ih.step hrefl hs).2

/-- What every allowed operation preserves, a run preserves. -/
theorem Run.preserves (hrefl : ∀ s, rely s s) {Q : σ → Except ε α → Prop}
    {I : σ → Prop} (hI : ∀ s ev s', I s → exec ev.1 s ev.2 s' → ok s ev s' → I s')
    {p p' : Main ι ρ ε β α} {s s' : σ} {es : List (Event ι ρ)} (hr : Run exec p s es p' s')
    (h : p.Sat rely exec ok W Q s) (hs : I s) : I s' := by
  induction hr with
  | refl => exact hs
  | tail hrun hstep ih =>
      have hok := ((Run.sat hrefl hrun h).step hrefl hstep).1
      cases hstep with
      | call he => exact hI _ ⟨_, _⟩ _ ih he (hok _ rfl)
      | work hj he => exact hI _ ⟨_, _⟩ _ ih he (hok _ rfl)
      | join hset => exact ih

/-- The result of a settled thread satisfies the postcondition. -/
theorem Main.Sat.result (hrefl : ∀ s, rely s s) {Q : σ → Except ε α → Prop}
    {p : Main ι ρ ε β α} {s : σ} {r : Except ε α} (h : p.Sat rely exec ok W Q s)
    (hr : p.outcome? = some r) : Q s r := by
  cases p with
  | ret a => cases hr; exact h s (hrefl s)
  | fail e => cases hr; exact h s (hrefl s)
  | call _ _ => exact nomatch hr
  | fork _ _ => exact nomatch hr

/-- The result of a settled worker satisfies the worker condition. -/
theorem Main.Sat.worker {Q : σ → Except ε α → Prop} {ws : List (Prog ι ρ ε β)}
    {k : List (Except ε β) → Main ι ρ ε β α} {s : σ} {i : Nat} {w : Prog ι ρ ε β}
    {r : Except ε β} (h : (Main.fork ws k).Sat rely exec ok W Q s) (hi : ws[i]? = some w)
    (hr : w.outcome? = some r) : W s r := by
  obtain ⟨γ, J, G, idx, Qw, -, h2, -, h4, hW, -⟩ := h
  refine hW s G i r h2 (List.getElem?_eq_some_iff.mp hi).1 ?_
  have hsat := h4 i w hi
  cases w with
  | ret b => cases hr; exact hsat
  | fail e => cases hr; exact hsat
  | call _ _ => exact nomatch hr

end Rules

/-! ## What a thread may come to -/

section May

variable {exec : (i : ι) → σ → ρ i → σ → Prop} {p q : Main ι ρ ε β α} {s t : σ}
  {Q : Main ι ρ ε β α → σ → Prop}

/-- Some run of the thread, with nobody else on the state, comes to a place in `Q`. -/
def Main.May (exec : (i : ι) → σ → ρ i → σ → Prop) (p : Main ι ρ ε β α) (s : σ)
    (Q : Main ι ρ ε β α → σ → Prop) : Prop :=
  ∃ es q t, Run exec p s es q t ∧ Q q t

theorem Main.May.done (h : Q p s) : Main.May exec p s Q := ⟨[], p, s, .refl, h⟩

/-- A run, and on from its end. -/
theorem Main.May.run {es : List (Event ι ρ)} (hr : Run exec p s es q t) (h : Main.May exec q t Q) :
    Main.May exec p s Q := by
  obtain ⟨es', q', t', hr', hq⟩ := h
  exact ⟨_, q', t', hr.trans hr', hq⟩

/-- One operation, with an answer it may get. -/
theorem Main.May.call {i : ι} {k : ρ i → Main ι ρ ε β α} {r : ρ i} {s' : σ} (he : exec i s r s')
    (h : Main.May exec (k r) s' Q) : Main.May exec (.call i k) s Q :=
  .run (Run.refl.tail (.call he)) h

end May

/-! ## Any number of threads over one store -/

/-- The shared store and the threads, each with its private memory; `none` is a
    thread that was killed. -/
structure Pool (τ μ : Type) (ι : Type) (ρ : ι → Type) (ε β α : Type) where
  store : τ
  threads : List (Option (μ × Main ι ρ ε β α))

/-- What a pool step did. -/
inductive Label (ι : Type) (ρ : ι → Type) where
  | spawn
  | run (j : Nat) (e : Option (Event ι ρ))
  | crash (j : Nat)

/-- A pool step: a new thread arrives, one thread moves, one thread dies. -/
inductive Pool.Step (exec : (i : ι) → τ × μ → ρ i → τ × μ → Prop)
    (new : μ × Main ι ρ ε β α → Prop) :
    Pool τ μ ι ρ ε β α → Label ι ρ → Pool τ μ ι ρ ε β α → Prop where
  | spawn {st : τ} {ts : List (Option (μ × Main ι ρ ε β α))} {t : μ × Main ι ρ ε β α}
      (h : new t) : Step exec new ⟨st, ts⟩ .spawn ⟨st, ts ++ [some t]⟩
  | run {st st' : τ} {ts : List (Option (μ × Main ι ρ ε β α))} {j : Nat} {m m' : μ}
      {p p' : Main ι ρ ε β α} {e : Option (Event ι ρ)} (hj : ts[j]? = some (some (m, p)))
      (hs : Main.Step exec p (st, m) e p' (st', m')) :
      Step exec new ⟨st, ts⟩ (.run j e) ⟨st', ts.set j (some (m', p'))⟩
  | crash {st : τ} {ts : List (Option (μ × Main ι ρ ε β α))} (j : Nat) :
      Step exec new ⟨st, ts⟩ (.crash j) ⟨st, ts.set j none⟩

/-- The pools reachable from `c`. -/
inductive Pool.Reach (exec : (i : ι) → τ × μ → ρ i → τ × μ → Prop)
    (new : μ × Main ι ρ ε β α → Prop) (c : Pool τ μ ι ρ ε β α) :
    Pool τ μ ι ρ ε β α → Prop where
  | refl : Reach exec new c c
  | tail {d e : Pool τ μ ι ρ ε β α} {l : Label ι ρ} (h : Reach exec new c d)
      (hs : Pool.Step exec new d l e) : Reach exec new c e

/-- The pools reachable from `c` by operations that meet `C`, which sees the pool, the
    thread that moves and its operation. -/
inductive Pool.ReachIf (exec : (i : ι) → τ × μ → ρ i → τ × μ → Prop)
    (new : μ × Main ι ρ ε β α → Prop) (C : Pool τ μ ι ρ ε β α → Nat → Event ι ρ → Prop)
    (c : Pool τ μ ι ρ ε β α) : Pool τ μ ι ρ ε β α → Prop where
  | refl : ReachIf exec new C c c
  | tail {d e : Pool τ μ ι ρ ε β α} {l : Label ι ρ} (h : ReachIf exec new C c d)
      (hs : Pool.Step exec new d l e)
      (hc : ∀ j ev, l = .run j (some ev) → C d j ev) : ReachIf exec new C c e

section Reaching

variable {exec : (i : ι) → τ × μ → ρ i → τ × μ → Prop} {new : μ × Main ι ρ ε β α → Prop}
  {C : Pool τ μ ι ρ ε β α → Nat → Event ι ρ → Prop} {b c d : Pool τ μ ι ρ ε β α}

theorem Pool.Reach.trans (h1 : Pool.Reach exec new b c) (h2 : Pool.Reach exec new c d) :
    Pool.Reach exec new b d := by
  induction h2 with
  | refl => exact h1
  | tail _ hs ih => exact ih.tail hs

theorem Pool.ReachIf.reach (h : Pool.ReachIf exec new C c d) : Pool.Reach exec new c d := by
  induction h with
  | refl => exact .refl
  | tail _ hs _ ih => exact ih.tail hs

theorem Pool.Reach.reachIf (h : Pool.Reach exec new c d) :
    Pool.ReachIf exec new (fun _ _ _ => True) c d := by
  induction h with
  | refl => exact .refl
  | tail _ hs ih => exact ih.tail hs fun _ _ _ => trivial

/-- A run of one thread while the others wait, where the condition holds whatever that
    thread does. -/
theorem Pool.ReachIf.run {st : τ} {ts : List (Option (μ × Main ι ρ ε β α))}
    (h : Pool.ReachIf exec new C c ⟨st, ts⟩) {j : Nat} {m : μ} {p p' : Main ι ρ ε β α}
    (hj : ts[j]? = some (some (m, p))) (hC : ∀ st t ev, C ⟨st, ts.set j (some t)⟩ j ev)
    {s' : τ × μ} {es : List (Event ι ρ)} (hr : Run exec p (st, m) es p' s') :
    Pool.ReachIf exec new C c ⟨s'.1, ts.set j (some (s'.2, p'))⟩ := by
  have hlt : j < ts.length := (List.getElem?_eq_some_iff.mp hj).1
  induction hr with
  | refl =>
      have hsame : ts.set j (some (m, p)) = ts := by
        rw [← (List.getElem?_eq_some_iff.mp hj).2]
        exact List.set_getElem_self hlt
      rw [hsame]
      exact h
  | tail _ hs ih =>
      have hnext := ih.tail (.run (List.getElem?_set_self hlt) hs) (by
        rintro j' ev heq
        cases heq
        exact hC _ _ _)
      rw [List.set_set] at hnext
      exact hnext

/-- A thread moves on by `n` operations, all answered by one handler. -/
def plays (h : Handler ι ρ σ) (n : Nat) (c : Main ι ρ ε β α × σ) : Main ι ρ ε β α × σ :=
  Resumption.play (List.replicate n (0, h)) c

/-- A sequential thread moves on by `n` operations, answered by one handler, while the
    others wait; the condition is asked of these operations only. -/
theorem Pool.ReachIf.plays {h : Handler ι ρ (τ × μ)} (hh : ∀ i s, exec i s (h i s).1 (h i s).2)
    (j n : Nat) : ∀ {st : τ} {ts : List (Option (μ × Main ι ρ ε β α))} {m : μ}
      {p : Main ι ρ ε β α}, Pool.ReachIf exec new C c ⟨st, ts⟩ → ts[j]? = some (some (m, p)) →
      (∃ q, p = Main.lift q) →
      PlayMeets (fun i s => ∀ p, C ⟨s.1, ts.set j (some (s.2, p))⟩ j ⟨i, (h i s).1⟩)
        (List.replicate n (0, h)) (p, (st, m)) →
      Pool.ReachIf exec new C c ⟨(Resumption.plays h n (p, (st, m))).2.1, ts.set j (some
        ((Resumption.plays h n (p, (st, m))).2.2, (Resumption.plays h n (p, (st, m))).1))⟩ := by
  have hset : ∀ {ts : List (Option (μ × Main ι ρ ε β α))} {x : μ × Main ι ρ ε β α},
      ts[j]? = some (some x) → ts.set j (some x) = ts := by
    intro ts x hj
    obtain ⟨hlt, hx⟩ := List.getElem?_eq_some_iff.mp hj
    rw [← hx]
    exact List.set_getElem_self hlt
  induction n with
  | zero =>
      intro st ts m p hreach hj _ _
      show Pool.ReachIf exec new C c ⟨st, ts.set j (some (m, p))⟩
      rw [hset hj]
      exact hreach
  | succ n ih =>
      rintro st ts m p hreach hj ⟨q, rfl⟩ ⟨hnow, hlater⟩
      cases q with
      | ret a => exact ih hreach hj ⟨_, rfl⟩ hlater
      | fail e => exact ih hreach hj ⟨_, rfl⟩ hlater
      | call i k =>
          have hlt := (List.getElem?_eq_some_iff.mp hj).1
          have hC : C ⟨st, ts⟩ j ⟨i, (h i (st, m)).1⟩ := by
            have hgiven := hnow (Main.lift (.call i k))
            rwa [hset hj] at hgiven
          have hnext := hreach.tail (.run hj (.call (hh i (st, m)))) (by
            rintro j' ev heq
            cases heq
            exact hC)
          have hrest := ih hnext (List.getElem?_set_self hlt) ⟨_, rfl⟩ (by
            simp only [List.set_set]
            exact hlater)
          rw [List.set_set] at hrest
          exact hrest

/-- A run of one thread while the others wait. -/
theorem Pool.Reach.run {st : τ} {ts : List (Option (μ × Main ι ρ ε β α))}
    (h : Pool.Reach exec new c ⟨st, ts⟩) {j : Nat} {m : μ} {p p' : Main ι ρ ε β α}
    (hj : ts[j]? = some (some (m, p))) {s' : τ × μ} {es : List (Event ι ρ)}
    (hr : Run exec p (st, m) es p' s') :
    Pool.Reach exec new c ⟨s'.1, ts.set j (some (s'.2, p'))⟩ :=
  (h.reachIf.run hj (fun _ _ _ => trivial) hr).reach

end Reaching

/-- A played schedule of one thread while the others wait. -/
theorem Pool.Reach.play {exec : (i : ι) → τ × μ → ρ i → τ × μ → Prop}
    {new : μ × Main ι ρ ε β α → Prop} {c : Pool τ μ ι ρ ε β α} {st : τ}
    {ts : List (Option (μ × Main ι ρ ε β α))} (h : Pool.Reach exec new c ⟨st, ts⟩) {j : Nat}
    {m : μ} {p : Main ι ρ ε β α} (hj : ts[j]? = some (some (m, p)))
    {sched : List (Nat × Handler ι ρ (τ × μ))}
    (hs : ∀ x ∈ sched, ∀ i s, exec i s (x.2 i s).1 (x.2 i s).2) :
    Pool.Reach exec new c ⟨(Resumption.play sched (p, (st, m))).2.1,
      ts.set j (some ((Resumption.play sched (p, (st, m))).2.2,
        (Resumption.play sched (p, (st, m))).1))⟩ := by
  obtain ⟨es, hr⟩ := play_sound sched hs p (st, m)
  exact h.run hj hr

/-- A new thread. -/
theorem Pool.Reach.spawned {exec : (i : ι) → τ × μ → ρ i → τ × μ → Prop}
    {new : μ × Main ι ρ ε β α → Prop} {c : Pool τ μ ι ρ ε β α} {st : τ}
    {ts : List (Option (μ × Main ι ρ ε β α))} (h : Pool.Reach exec new c ⟨st, ts⟩)
    {t : μ × Main ι ρ ε β α} (ht : new t) : Pool.Reach exec new c ⟨st, ts ++ [some t]⟩ :=
  h.tail (.spawn ht)

/-- A new thread may come to its place while the others wait. -/
theorem Pool.Reach.may {exec : (i : ι) → τ × μ → ρ i → τ × μ → Prop}
    {new : μ × Main ι ρ ε β α → Prop} {b c : Pool τ μ ι ρ ε β α} (h : Pool.Reach exec new b c) {m : μ}
    {p : Main ι ρ ε β α} (hnew : new (m, p)) {Q : Main ι ρ ε β α → τ × μ → Prop}
    (hp : Main.May exec p (c.store, m) Q) :
    ∃ d q m', Pool.Reach exec new b d ∧ Q q (d.store, m') := by
  obtain ⟨st, ts⟩ := c
  obtain ⟨es, q, t, hr, hq⟩ := hp
  have hspawn := h.spawned hnew
  exact ⟨_, q, t.2, hspawn.run List.getElem?_concat_length hr, hq⟩

/-- A played schedule of the first thread. -/
theorem Pool.Reach.first {exec : (i : ι) → τ × μ → ρ i → τ × μ → Prop}
    {new : μ × Main ι ρ ε β α → Prop} (st : τ) {m : μ} {p : Main ι ρ ε β α} (hn : new (m, p))
    {sched : List (Nat × Handler ι ρ (τ × μ))}
    (hs : ∀ x ∈ sched, ∀ i s, exec i s (x.2 i s).1 (x.2 i s).2) :
    Pool.Reach exec new ⟨st, []⟩ ⟨(Resumption.play sched (p, (st, m))).2.1,
      [some ((Resumption.play sched (p, (st, m))).2.2,
        (Resumption.play sched (p, (st, m))).1)]⟩ := by
  have hspawn : Pool.Reach exec new ⟨st, []⟩ ⟨st, [some (m, p)]⟩ := Pool.Reach.refl.spawned hn
  exact hspawn.play (j := 0) rfl hs

/-- The store holds `Inv` and every live thread keeps its guarantee. -/
def Pool.Sat (Inv : τ → Prop) (rely : τ → τ → Prop)
    (exec : (i : ι) → τ × μ → ρ i → τ × μ → Prop)
    (ok : τ × μ → Event ι ρ → τ × μ → Prop) (W : τ × μ → Except ε β → Prop)
    (Q : τ × μ → Except ε α → Prop) (c : Pool τ μ ι ρ ε β α) : Prop :=
  Inv c.store ∧ ∀ (j : Nat) (m : μ) (p : Main ι ρ ε β α),
    c.threads[j]? = some (some (m, p)) →
      p.Sat (fun s s' => rely s.1 s'.1 ∧ s'.2 = s.2) exec ok W Q (c.store, m)

section Pools

variable {Inv : τ → Prop} {rely : τ → τ → Prop}
  {exec : (i : ι) → τ × μ → ρ i → τ × μ → Prop}
  {ok : τ × μ → Event ι ρ → τ × μ → Prop} {W : τ × μ → Except ε β → Prop}
  {Q : τ × μ → Except ε α → Prop} {new : μ × Main ι ρ ε β α → Prop}

/-- **ONE POOL STEP** keeps every thread's guarantee: what a thread is allowed
    to do is what the others rely on. -/
theorem Pool.Sat.step (hrefl : ∀ a, rely a a)
    (htrans : ∀ a b c, rely a b → rely b c → rely a c)
    (hok : ∀ s ev s', Inv s.1 → ok s ev s' → Inv s'.1 ∧ rely s.1 s'.1)
    (hnew : ∀ (st : τ) (m : μ) (p : Main ι ρ ε β α), Inv st → new (m, p) →
      p.Sat (fun s s' => rely s.1 s'.1 ∧ s'.2 = s.2) exec ok W Q (st, m))
    {c d : Pool τ μ ι ρ ε β α} {l : Label ι ρ} (h : Pool.Sat Inv rely exec ok W Q c)
    (hs : Pool.Step exec new c l d) :
    Pool.Sat Inv rely exec ok W Q d ∧ rely c.store d.store := by
  obtain ⟨hI, hT⟩ := h
  have hr : ∀ s : τ × μ, rely s.1 s.1 ∧ s.2 = s.2 := fun s => ⟨hrefl s.1, rfl⟩
  cases hs with
  | @spawn st ts t hn =>
      refine ⟨⟨hI, ?_⟩, hrefl _⟩
      intro j m p hj
      rcases Nat.lt_or_ge j ts.length with hlt | hge
      · rw [List.getElem?_append_left hlt] at hj
        exact hT j m p hj
      · rw [List.getElem?_append_right hge] at hj
        rcases hd : j - ts.length with _ | n
        · rw [hd] at hj
          have ht : t = (m, p) := Option.some.inj (Option.some.inj hj)
          subst ht
          exact hnew st m p hI hn
        · rw [hd] at hj
          exact nomatch hj
  | @run st st' ts j m m' p p' e hj hs =>
      have hstep := (hT j m p hj).step hr hs
      have hIr : Inv st' ∧ rely st st' := by
        cases e with
        | none => cases hs; exact ⟨hI, hrefl _⟩
        | some ev => exact hok _ ev _ hI (hstep.1 ev rfl)
      refine ⟨⟨hIr.1, ?_⟩, hIr.2⟩
      intro i n q hi
      by_cases hij : i = j
      · subst hij
        rw [List.getElem?_set_self (List.getElem?_eq_some_iff.mp hj).1] at hi
        cases hi
        exact hstep.2
      · rw [List.getElem?_set_ne (Ne.symm hij)] at hi
        refine (hT i n q hi).stable ?_ ⟨hIr.2, rfl⟩
        intro s t u h1 h2
        exact ⟨htrans _ _ _ h1.1 h2.1, h2.2.trans h1.2⟩
  | @crash st ts j =>
      refine ⟨⟨hI, ?_⟩, hrefl _⟩
      intro i n q hi
      by_cases hij : i = j
      · subst hij
        have hlen : i < ts.length := by
          have := (List.getElem?_eq_some_iff.mp hi).1
          rwa [List.length_set] at this
        rw [List.getElem?_set_self hlen] at hi
        exact nomatch hi
      · rw [List.getElem?_set_ne (Ne.symm hij)] at hi
        exact hT i n q hi

/-- **EVERY REACHABLE POOL** keeps every thread's guarantee. -/
theorem Pool.Reach.sat (hrefl : ∀ a, rely a a)
    (htrans : ∀ a b c, rely a b → rely b c → rely a c)
    (hok : ∀ s ev s', Inv s.1 → ok s ev s' → Inv s'.1 ∧ rely s.1 s'.1)
    (hnew : ∀ (st : τ) (m : μ) (p : Main ι ρ ε β α), Inv st → new (m, p) →
      p.Sat (fun s s' => rely s.1 s'.1 ∧ s'.2 = s.2) exec ok W Q (st, m))
    {c d : Pool τ μ ι ρ ε β α} (h : Pool.Sat Inv rely exec ok W Q c)
    (hr : Pool.Reach exec new c d) :
    Pool.Sat Inv rely exec ok W Q d ∧ rely c.store d.store := by
  induction hr with
  | refl => exact ⟨h, hrefl _⟩
  | tail _ hs ih =>
      obtain ⟨h1, h2⟩ := ih.1.step hrefl htrans hok hnew hs
      exact ⟨h1, htrans _ _ _ ih.2 h2⟩

/-- What every allowed operation of a thread and everything the others may do
    preserve, holds for every thread of a reachable pool. -/
theorem Pool.Reach.preserves (hrefl : ∀ a, rely a a)
    (htrans : ∀ a b c, rely a b → rely b c → rely a c)
    (hok : ∀ s ev s', Inv s.1 → ok s ev s' → Inv s'.1 ∧ rely s.1 s'.1)
    (hnew : ∀ (st : τ) (m : μ) (p : Main ι ρ ε β α), Inv st → new (m, p) →
      p.Sat (fun s s' => rely s.1 s'.1 ∧ s'.2 = s.2) exec ok W Q (st, m))
    {I : τ × μ → Prop} (hInew : ∀ (st : τ) (m : μ) (p : Main ι ρ ε β α), new (m, p) → I (st, m))
    (hI : ∀ s ev s', I s → exec ev.1 s ev.2 s' → ok s ev s' → I s')
    (hIrely : ∀ (a b : τ) (m : μ), rely a b → I (a, m) → I (b, m))
    {c d : Pool τ μ ι ρ ε β α} (h : Pool.Sat Inv rely exec ok W Q c)
    (hc : ∀ (j : Nat) (m : μ) (p : Main ι ρ ε β α),
      c.threads[j]? = some (some (m, p)) → I (c.store, m))
    (hr : Pool.Reach exec new c d) :
    ∀ (j : Nat) (m : μ) (p : Main ι ρ ε β α),
      d.threads[j]? = some (some (m, p)) → I (d.store, m) := by
  induction hr with
  | refl => exact hc
  | tail hreach hs ih =>
      have hsat := (Pool.Reach.sat hrefl htrans hok hnew h hreach).1
      have hrel := (hsat.step hrefl htrans hok hnew hs).2
      cases hs with
      | @spawn st ts t hn =>
          intro j m p hj
          rcases Nat.lt_or_ge j ts.length with hlt | hge
          · rw [List.getElem?_append_left hlt] at hj
            exact ih j m p hj
          · rw [List.getElem?_append_right hge] at hj
            have hmem := List.mem_of_getElem? hj
            have ht : some t = some (m, p) := (List.mem_singleton.mp hmem).symm
            cases ht
            exact hInew st m p hn
      | @run st st' ts j m m' p p' e hj hs =>
          intro i n q hi
          by_cases hij : i = j
          · subst hij
            rw [List.getElem?_set_self (List.getElem?_eq_some_iff.mp hj).1] at hi
            cases hi
            have hallow := ((hsat.2 i m p hj).step (fun s => ⟨hrefl s.1, rfl⟩) hs).1
            cases hs with
            | call he => exact hI _ ⟨_, _⟩ _ (ih i m _ hj) he (hallow _ rfl)
            | work hw he => exact hI _ ⟨_, _⟩ _ (ih i m _ hj) he (hallow _ rfl)
            | join hset => exact ih i _ _ hj
          · rw [List.getElem?_set_ne (Ne.symm hij)] at hi
            exact hIrely _ _ n hrel (ih i n q hi)
      | @crash st ts j =>
          intro i n q hi
          by_cases hij : i = j
          · subst hij
            have hmem : (ts.set i none)[i]? = some none := by
              have hlen := (List.getElem?_eq_some_iff.mp hi).1
              rw [List.length_set] at hlen
              exact List.getElem?_set_self hlen
            rw [hmem] at hi
            exact nomatch hi
          · rw [List.getElem?_set_ne (Ne.symm hij)] at hi
            exact ih i n q hi

/-- The private memories of the threads. -/
def Pool.memories (c : Pool τ μ ι ρ ε β α) : List (Option μ) :=
  c.threads.map (Option.map Prod.fst)

theorem Pool.memories_get {c : Pool τ μ ι ρ ε β α} {j : Nat} {m : μ} {p : Main ι ρ ε β α}
    (h : c.threads[j]? = some (some (m, p))) : c.memories[j]? = some (some m) := by
  rw [Pool.memories, List.getElem?_map, h]
  rfl

/-- A memory after one thread has moved: its new one, or another thread's. -/
theorem memory_set {ms : List (Option μ)} {i j : Nat} {m n : μ}
    (h : (ms.set j (some m))[i]? = some (some n)) :
    (i = j ∧ n = m) ∨ (i ≠ j ∧ ms[i]? = some (some n)) := by
  by_cases hij : i = j
  · subst hij
    have hlt := (List.getElem?_eq_some_iff.mp h).1
    rw [List.length_set] at hlt
    rw [List.getElem?_set_self hlt] at h
    cases h
    exact .inl ⟨rfl, rfl⟩
  · rw [List.getElem?_set_ne (Ne.symm hij)] at h
    exact .inr ⟨hij, h⟩

/-- A memory after one thread was killed is another thread's. -/
theorem memory_killed {ms : List (Option μ)} {i j : Nat} {n : μ}
    (h : (ms.set j none)[i]? = some (some n)) : ms[i]? = some (some n) := by
  by_cases hij : i = j
  · subst hij
    have hlt := (List.getElem?_eq_some_iff.mp h).1
    rw [List.length_set] at hlt
    rw [List.getElem?_set_self hlt] at h
    exact nomatch h
  · rw [List.getElem?_set_ne (Ne.symm hij)] at h
    exact h

/-- A memory after a thread has arrived. -/
theorem memory_spawned {ms : List (Option μ)} {i : Nat} {m n : μ}
    (h : (ms ++ [some m])[i]? = some (some n)) :
    ms[i]? = some (some n) ∨ (i = ms.length ∧ n = m) := by
  rcases Nat.lt_or_ge i ms.length with hlt | hge
  · rw [List.getElem?_append_left hlt] at h
    exact .inl h
  · rw [List.getElem?_append_right hge] at h
    have hlt := (List.getElem?_eq_some_iff.mp h).1
    rw [List.length_singleton] at hlt
    have hi : i = ms.length := Nat.le_antisymm (Nat.le_of_sub_eq_zero (Nat.lt_one_iff.mp hlt)) hge
    subst hi
    rw [Nat.sub_self] at h
    cases h
    exact .inr ⟨rfl, rfl⟩

/-- The others may change the store; a thread's memory is its own. -/
def ownMemory (s s' : τ × μ) : Prop := s'.2 = s.2

theorem ownMemory_refl (s : τ × μ) : ownMemory s s := rfl

/-- Every thread of a reachable pool keeps its guarantee, whatever the others do to
    the store. -/
theorem Pool.Reach.threads
    (hnew : ∀ (st : τ) (m : μ) (p : Main ι ρ ε β α), new (m, p) →
      p.Sat ownMemory exec ok W Q (st, m)) {st : τ}
    {c : Pool τ μ ι ρ ε β α} (hr : Pool.Reach exec new ⟨st, []⟩ c) :
    ∀ (j : Nat) (m : μ) (p : Main ι ρ ε β α),
      c.threads[j]? = some (some (m, p)) → p.Sat ownMemory exec ok W Q (c.store, m) := by
  have hrely : (fun s s' : τ × μ => True ∧ s'.2 = s.2) = ownMemory := by
    funext s s'
    rw [true_and, ownMemory]
  have hsat : Pool.Sat (fun _ => True) (fun _ _ => True) exec ok W Q c := by
    refine (Pool.Reach.sat (fun _ => trivial) (fun _ _ _ _ _ => trivial)
      (fun _ _ _ _ _ => ⟨trivial, trivial⟩) ?_ ⟨trivial, ?_⟩ hr).1
    · intro st m p _ hn
      rw [hrely]
      exact hnew st m p hn
    · intro j m p hj
      exact nomatch hj
  intro j m p hj
  rw [← hrely]
  exact hsat.2 j m p hj

/-- A pool invariant, where every thread keeps its guarantee and every operation meets
    the condition. -/
theorem Pool.ReachIf.inv {C : Pool τ μ ι ρ ε β α → Nat → Event ι ρ → Prop}
    (hnew : ∀ (st : τ) (m : μ) (p : Main ι ρ ε β α), new (m, p) →
      p.Sat ownMemory exec ok W Q (st, m))
    {P : Pool τ μ ι ρ ε β α → Prop}
    (hspawn : ∀ st ts t, P ⟨st, ts⟩ → new t → P ⟨st, ts ++ [some t]⟩)
    (hstep : ∀ st ts j m p e st' m' p', P ⟨st, ts⟩ → ts[j]? = some (some (m, p)) →
      Main.Step exec p (st, m) e p' (st', m') →
      (∀ ev, e = some ev → C ⟨st, ts⟩ j ev ∧ ok (st, m) ev (st', m')) →
      P ⟨st', ts.set j (some (m', p'))⟩)
    (hcrash : ∀ st ts j, P ⟨st, ts⟩ → P ⟨st, ts.set j none⟩) {st : τ}
    {c d : Pool τ μ ι ρ ε β α} (hc : Pool.Reach exec new ⟨st, []⟩ c) (h0 : P c)
    (hr : Pool.ReachIf exec new C c d) : P d := by
  induction hr with
  | refl => exact h0
  | tail hreach hs hC ih =>
      cases hs with
      | spawn hn => exact hspawn _ _ _ ih hn
      | @run st st' ts j m m' p p' e hj hs =>
          have hthread := (hc.trans hreach.reach).threads hnew j m p hj
          have hallow := (hthread.step ownMemory_refl hs).1
          refine hstep _ _ j m p e _ _ _ ih hj hs ?_
          intro ev hev
          exact ⟨hC j ev (by rw [hev]), hallow ev hev⟩
      | crash j => exact hcrash _ _ j ih

/-- A pool invariant over the store and the memories, where every thread keeps its
    guarantee whatever the others do to the store. -/
theorem Pool.Reach.memories
    (hnew : ∀ (st : τ) (m : μ) (p : Main ι ρ ε β α), new (m, p) →
      p.Sat ownMemory exec ok W Q (st, m))
    {P : τ → List (Option μ) → Prop}
    (hspawn : ∀ st ms m p, P st ms → new (m, p) → P st (ms ++ [some m]))
    (hrun : ∀ st ms j m ev st' m', P st ms → ms[j]? = some (some m) → ok (st, m) ev (st', m') →
      P st' (ms.set j (some m')))
    (hcrash : ∀ st ms j, P st ms → P st (ms.set j none)) {st : τ} (h0 : P st [])
    {c : Pool τ μ ι ρ ε β α} (hr : Pool.Reach exec new ⟨st, []⟩ c) :
    P c.store c.memories ∧ ∀ (j : Nat) (m : μ) (p : Main ι ρ ε β α),
      c.threads[j]? = some (some (m, p)) → p.Sat ownMemory exec ok W Q (c.store, m) := by
  refine ⟨?_, hr.threads hnew⟩
  refine Pool.ReachIf.inv (P := fun c => P c.store c.memories) hnew ?_ ?_ ?_ .refl h0 hr.reachIf
  · intro st ts t hP hn
    rw [Pool.memories, List.map_append]
    exact hspawn st _ t.1 t.2 hP hn
  · intro st ts j m p e st' m' p' hP hj hs hallow
    have hm : Pool.memories ⟨st, ts⟩ = ts.map (Option.map Prod.fst) := rfl
    have hmj := Pool.memories_get (c := ⟨st, ts⟩) hj
    have hset : Pool.memories ⟨st', ts.set j (some (m', p'))⟩ =
        (Pool.memories ⟨st, ts⟩).set j (some m') := by
      rw [Pool.memories, List.map_set, hm]
      rfl
    rw [hset]
    cases hs with
    | call he => exact hrun _ _ j m ⟨_, _⟩ _ _ hP hmj (hallow _ rfl).2
    | work hw he => exact hrun _ _ j m ⟨_, _⟩ _ _ hP hmj (hallow _ rfl).2
    | join hset =>
        obtain ⟨hlt, hget⟩ := List.getElem?_eq_some_iff.mp hmj
        rw [← hget, List.set_getElem_self hlt]
        exact hP
  · intro st ts j hP
    rw [Pool.memories, List.map_set]
    exact hcrash st _ j hP

end Pools

/-! ## Programs that stop at a marked event -/

section Marked

variable (mark : Event ι ρ → Prop)

/-- No event of the thread is marked. -/
def Prog.Unmarked : Prog ι ρ ε α → Prop
  | .ret _ => True
  | .fail _ => True
  | .call i k => ∀ r, ¬ mark ⟨i, r⟩ ∧ (k r).Unmarked

/-- The thread fails after a marked event, and its workers meet none. -/
def Main.FailsAfter : Main ι ρ ε β α → Prop
  | .ret _ => True
  | .fail _ => True
  | .call i k => ∀ r, (mark ⟨i, r⟩ → ∃ e, k r = .fail e) ∧ (k r).FailsAfter
  | .fork ws k => (∀ w ∈ ws, w.Unmarked mark) ∧ ∀ rs, (k rs).FailsAfter

/-- The thread has settled after a marked event, and its workers meet none. -/
def Main.SettlesAfter : Main ι ρ ε β α → Prop
  | .ret _ => True
  | .fail _ => True
  | .call i k => ∀ r, (mark ⟨i, r⟩ → (k r).outcome?.isSome) ∧ (k r).SettlesAfter
  | .fork ws k => (∀ w ∈ ws, w.Unmarked mark) ∧ ∀ rs, (k rs).SettlesAfter

variable {mark}

theorem Prog.Unmarked.bind {f : α → Prog ι ρ ε γ} (hf : ∀ a, (f a).Unmarked mark) :
    ∀ {p : Prog ι ρ ε α}, p.Unmarked mark → (p >>= f).Unmarked mark := by
  intro p
  induction p with
  | ret a => exact fun _ => hf a
  | fail e => exact fun _ => trivial
  | call i k ih =>
      intro h r
      exact ⟨(h r).1, ih r (h r).2⟩

theorem Prog.Unmarked.lift :
    ∀ {p : Prog ι ρ ε α}, p.Unmarked mark → (Main.lift p : Main ι ρ ε β α).FailsAfter mark := by
  intro p
  induction p with
  | ret a => exact fun _ => trivial
  | fail e => exact fun _ => trivial
  | call i k ih =>
      intro h r
      exact ⟨fun hm => absurd hm (h r).1, ih r (h r).2⟩

theorem Main.FailsAfter.bind {f : α → Main ι ρ ε β γ} (hf : ∀ a, (f a).FailsAfter mark) :
    ∀ {p : Main ι ρ ε β α}, p.FailsAfter mark → (p >>= f).FailsAfter mark := by
  intro p
  induction p with
  | ret a => exact fun _ => hf a
  | fail e => exact fun _ => trivial
  | call i k ih =>
      intro h r
      refine ⟨fun hm => ?_, ih r (h r).2⟩
      obtain ⟨e, he⟩ := (h r).1 hm
      refine ⟨e, ?_⟩
      show Main.bind (k r) f = .fail e
      rw [he]
      rfl
  | fork ws k ih =>
      intro h
      exact ⟨h.1, fun rs => ih rs (h.2 rs)⟩

/-- What comes after a part that fails after a marked event is not reached from there. -/
theorem Main.FailsAfter.settles {f : α → Main ι ρ ε β γ} (hf : ∀ a, (f a).SettlesAfter mark) :
    ∀ {p : Main ι ρ ε β α}, p.FailsAfter mark → (p >>= f).SettlesAfter mark := by
  intro p
  induction p with
  | ret a => exact fun _ => hf a
  | fail e => exact fun _ => trivial
  | call i k ih =>
      intro h r
      refine ⟨fun hm => ?_, ih r (h r).2⟩
      obtain ⟨e, he⟩ := (h r).1 hm
      show (Main.bind (k r) f).outcome?.isSome = true
      rw [he]
      rfl
  | fork ws k ih =>
      intro h
      exact ⟨h.1, fun rs => ih rs (h.2 rs)⟩

/-- **ONE STEP**: after a marked event the thread has settled, and until then it stays one that
    will. -/
theorem Main.SettlesAfter.step {exec : (i : ι) → σ → ρ i → σ → Prop} {p p' : Main ι ρ ε β α}
    {s s' : σ} {e : Option (Event ι ρ)} (h : p.SettlesAfter mark) (hs : Main.Step exec p s e p' s') :
    p'.SettlesAfter mark ∧ ∀ ev, e = some ev → mark ev → p'.outcome?.isSome := by
  cases hs with
  | @call i k r _ _ he =>
      refine ⟨(h r).2, ?_⟩
      rintro ev hev hm
      cases hev
      exact (h r).1 hm
  | @work ws k j i w r _ _ hj he =>
      have hw := h.1 _ (List.mem_of_getElem? hj) r
      refine ⟨⟨?_, h.2⟩, ?_⟩
      · intro v hv
        rcases List.mem_or_eq_of_mem_set hv with hv | rfl
        · exact h.1 v hv
        · exact hw.2
      · rintro ev hev hm
        cases hev
        exact absurd hm hw.1
  | join hset => exact ⟨h.2 _, fun ev hev => nomatch hev⟩

end Marked

/-- What a thread's own steps keep, whatever the store is, holds for every thread. -/
theorem Pool.Reach.each {exec : (i : ι) → τ × μ → ρ i → τ × μ → Prop}
    {new : μ × Main ι ρ ε β α → Prop} {T : μ × Main ι ρ ε β α → Prop} (hnew : ∀ t, new t → T t)
    (hstep : ∀ st m p e st' m' p', T (m, p) → Main.Step exec p (st, m) e p' (st', m') → T (m', p'))
    {c d : Pool τ μ ι ρ ε β α}
    (hc : ∀ (j : Nat) (t : μ × Main ι ρ ε β α), c.threads[j]? = some (some t) → T t)
    (hr : Pool.Reach exec new c d) :
    ∀ (j : Nat) (t : μ × Main ι ρ ε β α), d.threads[j]? = some (some t) → T t := by
  induction hr with
  | refl => exact hc
  | tail _ hs ih =>
      intro i t hi
      cases hs with
      | spawn hn =>
          rcases memory_spawned hi with hi | ⟨-, rfl⟩
          · exact ih i t hi
          · exact hnew t hn
      | run hj hs =>
          rcases memory_set hi with ⟨-, rfl⟩ | ⟨-, hi⟩
          · exact hstep _ _ _ _ _ _ _ (ih _ _ hj) hs
          · exact ih i t hi
      | crash j => exact ih i t (memory_killed hi)

/-- A thread that has settled stays as it is, unless it is killed. -/
theorem Pool.Reach.settled {exec : (i : ι) → τ × μ → ρ i → τ × μ → Prop}
    {new : μ × Main ι ρ ε β α → Prop} {c d : Pool τ μ ι ρ ε β α} (hr : Pool.Reach exec new c d)
    {j : Nat} {t : μ × Main ι ρ ε β α} (hj : c.threads[j]? = some (some t))
    (ht : t.2.outcome?.isSome) : d.threads[j]? = some (some t) ∨ d.threads[j]? = some none := by
  induction hr with
  | refl => exact .inl hj
  | tail _ hs ih =>
      cases hs with
      | @spawn st ts u hn =>
          have hlt : j < ts.length := by
            rcases ih with h | h
            · exact (List.getElem?_eq_some_iff.mp h).1
            · exact (List.getElem?_eq_some_iff.mp h).1
          rw [List.getElem?_append_left hlt]
          exact ih
      | @run st st' ts i m m' p p' e hi hs =>
          by_cases hij : i = j
          · subst hij
            rcases ih with h | h
            · -- a settled thread has no step
              rw [h] at hi
              cases hi
              cases hs with
              | call _ => exact nomatch ht
              | work _ _ => exact nomatch ht
              | join _ => exact nomatch ht
            · rw [h] at hi
              exact nomatch hi
          · rw [List.getElem?_set_ne hij]
            exact ih
      | @crash st ts i =>
          by_cases hij : i = j
          · subst hij
            have hlt : i < ts.length := by
              rcases ih with h | h
              · exact (List.getElem?_eq_some_iff.mp h).1
              · exact (List.getElem?_eq_some_iff.mp h).1
            exact .inr (List.getElem?_set_self hlt)
          · rw [List.getElem?_set_ne hij]
            exact ih

end Resumption
