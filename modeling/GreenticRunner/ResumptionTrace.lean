import GreenticRunner.ResumptionLogic

/-! # Traces of resumption programs

    What a sequential thread guarantees about its own trace, whatever it is answered:
    every event is allowed after the events before it, and the result satisfies `Q`
    together with the whole trace.

    * `Prog.Traced.sat` — the same in any system whose states determine the trace;
    * `Prog.Traced.run`, `Pool.Reach.traced`, `Pool.ReachIf.traced` — what it gives for
      one thread on its own and for any number of threads over one store. -/

namespace Resumption

variable {ι : Type} {ρ : ι → Type} {ε α β γ σ τ μ : Type}

/-- Every event of the thread is allowed after its trace, and its result satisfies `Q`. -/
def Prog.Traced (ok : List (Event ι ρ) → Event ι ρ → Prop)
    (Q : List (Event ι ρ) → Except ε α → Prop) : Prog ι ρ ε α → List (Event ι ρ) → Prop
  | .ret a, h => Q h (.ok a)
  | .fail e, h => Q h (.error e)
  | .call i k, h => ∀ r, ok h ⟨i, r⟩ ∧ (k r).Traced ok Q (h ++ [⟨i, r⟩])

section Rules

variable {ok : List (Event ι ρ) → Event ι ρ → Prop}

theorem Prog.Traced.mono {Q Q' : List (Event ι ρ) → Except ε α → Prop}
    (hQ : ∀ h r, Q h r → Q' h r) :
    ∀ {p : Prog ι ρ ε α} {h : List (Event ι ρ)}, p.Traced ok Q h → p.Traced ok Q' h := by
  intro p
  induction p with
  | ret a => intro h hp; exact hQ h _ hp
  | fail e => intro h hp; exact hQ h _ hp
  | call i k ih => intro h hp r; exact ⟨(hp r).1, ih r (hp r).2⟩

theorem Prog.Traced.bind {Q : List (Event ι ρ) → Except ε α → Prop}
    {Q' : List (Event ι ρ) → Except ε γ → Prop} {f : α → Prog ι ρ ε γ}
    (hok : ∀ h a, Q h (.ok a) → (f a).Traced ok Q' h)
    (herr : ∀ h e, Q h (.error e) → Q' h (.error e)) :
    ∀ {p : Prog ι ρ ε α} {h : List (Event ι ρ)}, p.Traced ok Q h → (p >>= f).Traced ok Q' h := by
  intro p
  induction p with
  | ret a => intro h hp; exact hok h a hp
  | fail e => intro h hp; exact herr h e hp
  | call i k ih => intro h hp r; exact ⟨(hp r).1, ih r (hp r).2⟩

theorem Prog.Traced.ensure {i : ι} {Q Q' : List (Event ι ρ) → Except ε α → Prop}
    (hi : ∀ h res r, Q h res → ok h ⟨i, r⟩)
    (hQ : ∀ h res r, Q h res → Q' (h ++ [⟨i, r⟩]) res) :
    ∀ {p : Prog ι ρ ε α} {h : List (Event ι ρ)}, p.Traced ok Q h →
      (p.ensure i).Traced ok Q' h := by
  intro p
  induction p with
  | ret a => intro h hp r; exact ⟨hi h _ r hp, hQ h _ r hp⟩
  | fail e => intro h hp r; exact ⟨hi h _ r hp, hQ h _ r hp⟩
  | call j k ih => intro h hp r; exact ⟨(hp r).1, ih r (hp r).2⟩

theorem Prog.Traced.mapError {ε' : Type} {f : ε → ε'}
    {Q : List (Event ι ρ) → Except ε α → Prop} {Q' : List (Event ι ρ) → Except ε' α → Prop}
    (hret : ∀ h a, Q h (.ok a) → Q' h (.ok a)) (hfail : ∀ h e, Q h (.error e) → Q' h (.error (f e))) :
    ∀ {p : Prog ι ρ ε α} {h : List (Event ι ρ)}, p.Traced ok Q h →
      (p.mapError f).Traced ok Q' h := by
  intro p
  induction p with
  | ret a => intro h hp; exact hret h a hp
  | fail e => intro h hp; exact hfail h e hp
  | call i k ih => intro h hp r; exact ⟨(hp r).1, ih r (hp r).2⟩

theorem Prog.Traced.and {ok' : List (Event ι ρ) → Event ι ρ → Prop}
    {Q Q' : List (Event ι ρ) → Except ε α → Prop} :
    ∀ {p : Prog ι ρ ε α} {h : List (Event ι ρ)}, p.Traced ok Q h → p.Traced ok' Q' h →
      p.Traced (fun h e => ok h e ∧ ok' h e) (fun h r => Q h r ∧ Q' h r) h := by
  intro p
  induction p with
  | ret a => intro h h1 h2; exact ⟨h1, h2⟩
  | fail e => intro h h1 h2; exact ⟨h1, h2⟩
  | call i k ih => intro h h1 h2 r; exact ⟨⟨(h1 r).1, (h2 r).1⟩, ih r (h1 r).2 (h2 r).2⟩

theorem Prog.Traced.weaken {ok' : List (Event ι ρ) → Event ι ρ → Prop}
    (hok : ∀ h e, ok h e → ok' h e) {Q : List (Event ι ρ) → Except ε α → Prop} :
    ∀ {p : Prog ι ρ ε α} {h : List (Event ι ρ)}, p.Traced ok Q h → p.Traced ok' Q h := by
  intro p
  induction p with
  | ret a => intro h hp; exact hp
  | fail e => intro h hp; exact hp
  | call i k ih => intro h hp r; exact ⟨hok h _ (hp r).1, ih r (hp r).2⟩

/-- Nothing is asked of the events. -/
theorem Prog.Traced.any {Q : List (Event ι ρ) → Except ε α → Prop} (hQ : ∀ h r, Q h r) :
    ∀ (p : Prog ι ρ ε α) (h : List (Event ι ρ)), p.Traced (fun _ _ => True) Q h := by
  intro p
  induction p with
  | ret a => intro h; exact hQ h _
  | fail e => intro h; exact hQ h _
  | call i k ih => intro h r; exact ⟨trivial, ih r _⟩

/-- An event of the trace stays in it. -/
theorem Prog.Traced.stays {ev : Event ι ρ} :
    ∀ {p : Prog ι ρ ε α} {h : List (Event ι ρ)}, ev ∈ h →
      p.Traced (fun h' _ => ev ∈ h') (fun h' _ => ev ∈ h') h := by
  intro p
  induction p with
  | ret a => intro h hev; exact hev
  | fail e => intro h hev; exact hev
  | call i k ih => intro h hev r; exact ⟨hev, ih r (List.mem_append_left _ hev)⟩

/-- A program over other operations: `π` reads its own trace off the other one, of which
    `I` is kept. -/
theorem Prog.Traced.mapOps {ι' : Type} {ρ' : ι' → Type} {f : ι → ι'}
    {g : (i : ι) → ρ' (f i) → ρ i} {π : List (Event ι' ρ') → List (Event ι ρ)}
    (hπ : ∀ h i r, π (h ++ [⟨f i, r⟩]) = π h ++ [⟨i, g i r⟩])
    {I : List (Event ι' ρ') → Prop} (hI : ∀ h i r, I h → I (h ++ [⟨f i, r⟩]))
    {ok' : List (Event ι' ρ') → Event ι' ρ' → Prop}
    (hok : ∀ h i r, I h → ok (π h) ⟨i, g i r⟩ → ok' h ⟨f i, r⟩)
    {Q : List (Event ι ρ) → Except ε α → Prop} :
    ∀ {p : Prog ι ρ ε α} {h : List (Event ι' ρ')}, I h → p.Traced ok Q (π h) →
      (p.mapOps f g).Traced ok' (fun h r => I h ∧ Q (π h) r) h := by
  intro p
  induction p with
  | ret a => intro h hi hp; exact ⟨hi, hp⟩
  | fail e => intro h hi hp; exact ⟨hi, hp⟩
  | call i k ih =>
      intro h hi hp r
      refine ⟨hok h i r hi (hp (g i r)).1, ih (g i r) (hI h i r hi) ?_⟩
      rw [hπ]
      exact (hp (g i r)).2

/-- What holds of every trace holds where the thread's trace is part of the state; what
    the thread guarantees may depend on a part `g` of the state that never changes. -/
theorem Prog.Traced.sat_at {κ : Type} {g : σ → κ} {G : κ → List (Event ι ρ) → Event ι ρ → Prop}
    {Q : κ → List (Event ι ρ) → Except ε α → Prop} {rely : σ → σ → Prop}
    {exec : (i : ι) → σ → ρ i → σ → Prop} {f : σ → List (Event ι ρ)}
    (hrely : ∀ s s', rely s s' → f s' = f s ∧ g s' = g s)
    (hexec : ∀ i s r s', exec i s r s' → f s' = f s ++ [⟨i, r⟩] ∧ g s' = g s) :
    ∀ {p : Prog ι ρ ε α} {s : σ}, p.Traced (G (g s)) (Q (g s)) (f s) →
      p.Sat (threadAnchor rely) exec (fun s ev s' => exec ev.1 s ev.2 s' ∧ G (g s) (f s) ev)
        (fun s r => Q (g s) (f s) r) s := by
  intro p
  induction p with
  | ret a => intro s hp; exact hp
  | fail e => intro s hp; exact hp
  | call i k ih =>
      intro s hp t ht r t' he
      obtain ⟨hft, hgt⟩ := hrely s t ht
      obtain ⟨hft', hgt'⟩ := hexec i t r t' he
      refine ⟨⟨he, ?_⟩, t', rfl, ih r ?_⟩
      · show G (g t) (f t) ⟨i, r⟩
        rw [hft, hgt]
        exact (hp r).1
      · rw [hft', hft, hgt', hgt]
        exact (hp r).2

/-- What holds of every trace holds where the thread's trace is part of the state. -/
theorem Prog.Traced.sat {rely : σ → σ → Prop} {exec : (i : ι) → σ → ρ i → σ → Prop}
    {f : σ → List (Event ι ρ)} (hrely : ∀ s s', rely s s' → f s' = f s)
    (hexec : ∀ i s r s', exec i s r s' → f s' = f s ++ [⟨i, r⟩])
    {Q : List (Event ι ρ) → Except ε α → Prop} {p : Prog ι ρ ε α} {s : σ}
    (hp : p.Traced ok Q (f s)) :
    p.Sat (threadAnchor rely) exec (fun s ev s' => exec ev.1 s ev.2 s' ∧ ok (f s) ev)
      (fun s r => Q (f s) r) s :=
  Prog.Traced.sat_at (g := fun _ => ()) (G := fun _ => ok) (Q := fun _ => Q)
    (fun s s' h => ⟨hrely s s' h, rfl⟩) (fun i s r s' h => ⟨hexec i s r s' h, rfl⟩) hp

end Rules

/-- A complete run: its events and its result. -/
inductive Prog.Ran : Prog ι ρ ε α → List (Event ι ρ) → Except ε α → Prop where
  | ret (a : α) : Ran (.ret a) [] (.ok a)
  | fail (e : ε) : Ran (.fail e) [] (.error e)
  | call {i : ι} {k : ρ i → Prog ι ρ ε α} (r : ρ i) {es : List (Event ι ρ)} {res : Except ε α}
      (h : Ran (k r) es res) : Ran (.call i k) (⟨i, r⟩ :: es) res

/-- When a program returns, its events since it began are a complete run of it. -/
theorem Prog.Traced.own (h : List (Event ι ρ)) :
    ∀ (p : Prog ι ρ ε α), p.Traced (fun _ _ => True) (fun h' r => ∃ es, h' = h ++ es ∧ p.Ran es r) h := by
  have hgen : ∀ (q p : Prog ι ρ ε α) (es : List (Event ι ρ)),
      (∀ fs r, q.Ran fs r → p.Ran (es ++ fs) r) →
      q.Traced (fun _ _ => True) (fun h' r => ∃ es, h' = h ++ es ∧ p.Ran es r) (h ++ es) := by
    intro q
    induction q with
    | ret a =>
        intro p es hp
        have hran := hp [] _ (.ret a)
        rw [List.append_nil] at hran
        exact ⟨es, rfl, hran⟩
    | fail e =>
        intro p es hp
        have hran := hp [] _ (.fail e)
        rw [List.append_nil] at hran
        exact ⟨es, rfl, hran⟩
    | call i k ih =>
        intro p es hp r
        refine ⟨trivial, ?_⟩
        rw [List.append_assoc]
        refine ih r p (es ++ [⟨i, r⟩]) ?_
        intro fs res hfs
        have hran := hp (⟨i, r⟩ :: fs) res (.call r hfs)
        rwa [List.append_assoc, List.singleton_append]
  intro p
  have hown := hgen p p [] fun fs r hfs => hfs
  rwa [List.append_nil] at hown

/-- What holds of every trace holds of a complete run. -/
theorem Prog.Traced.ran {ok : List (Event ι ρ) → Event ι ρ → Prop}
    {Q : List (Event ι ρ) → Except ε α → Prop} {p : Prog ι ρ ε α} {es : List (Event ι ρ)}
    {res : Except ε α} (hr : p.Ran es res) :
    ∀ {h : List (Event ι ρ)}, p.Traced ok Q h → Q (h ++ es) res := by
  induction hr with
  | ret a => intro h hp; rw [List.append_nil]; exact hp
  | fail e => intro h hp; rw [List.append_nil]; exact hp
  | call r _ ih =>
      intro h hp
      have hrest := ih (hp r).2
      rwa [List.append_assoc, List.singleton_append] at hrest

/-- The run in which each operation is given a fixed answer. -/
def Prog.answered (answer : (i : ι) → ρ i) : Prog ι ρ ε α → List (Event ι ρ) × Except ε α
  | .ret a => ([], .ok a)
  | .fail e => ([], .error e)
  | .call i k =>
      let rest := (k (answer i)).answered answer
      (⟨i, answer i⟩ :: rest.1, rest.2)

theorem Prog.ran_answered (answer : (i : ι) → ρ i) (p : Prog ι ρ ε α) :
    p.Ran (p.answered answer).1 (p.answered answer).2 := by
  induction p with
  | ret a => exact .ret a
  | fail e => exact .fail e
  | call i k ih => exact .call (answer i) (ih (answer i))

/-- The run in which each operation is answered by the handler. -/
def Prog.served (h : Handler ι ρ σ) : Prog ι ρ ε α → σ → List (Event ι ρ) × Except ε α
  | .ret a, _ => ([], .ok a)
  | .fail e, _ => ([], .error e)
  | .call i k, s =>
      let rest := (k (h i s).1).served h (h i s).2
      (⟨i, (h i s).1⟩ :: rest.1, rest.2)

theorem Prog.ran_served (h : Handler ι ρ σ) (p : Prog ι ρ ε α) (s : σ) :
    p.Ran (p.served h s).1 (p.served h s).2 := by
  induction p generalizing s with
  | ret a => exact .ret a
  | fail e => exact .fail e
  | call i k ih => exact .call (h i s).1 (ih _ _)

/-- A run of a thread with nobody else: what its allowed events preserve is kept, and a
    result satisfies `Q`. -/
theorem Prog.Traced.run {ok : List (Event ι ρ) → Event ι ρ → Prop}
    {exec : (i : ι) → σ → ρ i → σ → Prop} {f : σ → List (Event ι ρ)}
    (hexec : ∀ i s r s', exec i s r s' → f s' = f s ++ [⟨i, r⟩])
    {Q : List (Event ι ρ) → Except ε α → Prop} {I : σ → Prop}
    (hI : ∀ s ev s', I s → exec ev.1 s ev.2 s' → ok (f s) ev → I s')
    {p : Prog ι ρ ε α} {q : Main ι ρ ε β α} {s t : σ} {es : List (Event ι ρ)}
    (hr : Run exec (Main.lift p) s es q t) (hp : p.Traced ok Q (f s)) (hs : I s) :
    I t ∧ ∀ r, q.outcome? = some r → Q (f t) r := by
  have hsat : (Main.lift p : Main ι ρ ε β α).Sat Eq exec
      (fun s ev s' => exec ev.1 s ev.2 s' ∧ ok (f s) ev) (fun _ _ => True)
      (fun s r => Q (f s) r) s := by
    refine Main.Sat.lift ?_ (hp.sat ?_ hexec)
    · intro s s' r hQ h
      rw [← h]
      exact hQ
    · intro s s' h
      rw [h]
  refine ⟨Run.preserves (fun _ => rfl) (fun s ev s' hs he hok => hI s ev s' hs he hok.2) hr hsat hs,
    ?_⟩
  intro r hq
  exact (Run.sat (fun _ => rfl) hr hsat).result (fun _ => rfl) hq

section Pools

variable {κ : Type} {g : μ → κ} {G : κ → List (Event ι ρ) → Event ι ρ → Prop}
  {exec : (i : ι) → τ × μ → ρ i → τ × μ → Prop} {new : μ × Main ι ρ ε β α → Prop}
  {f : μ → List (Event ι ρ)} {R : κ → List (Event ι ρ) → Except ε α → Prop}

/-- A new thread whose memory holds its trace keeps what it guarantees about it. -/
theorem new_thread
    (hexec : ∀ i s r s', exec i s r s' → f s'.2 = f s.2 ++ [⟨i, r⟩] ∧ g s'.2 = g s.2)
    (hnew : ∀ m p, new (m, p) → ∃ q, p = Main.lift q ∧ q.Traced (G (g m)) (R (g m)) (f m))
    (st : τ) (m : μ) (p : Main ι ρ ε β α) (hn : new (m, p)) :
    p.Sat ownMemory exec (fun s ev s' => exec ev.1 s ev.2 s' ∧ G (g s.2) (f s.2) ev)
      (fun _ _ => True) (fun s r => R (g s.2) (f s.2) r) (st, m) := by
  obtain ⟨q, rfl, hq⟩ := hnew m p hn
  have hown : ∀ s s' : τ × μ, ownMemory s s' → f s'.2 = f s.2 ∧ g s'.2 = g s.2 := by
    intro s s' h
    rw [h]
    exact ⟨rfl, rfl⟩
  refine Main.Sat.lift ?_ (Prog.Traced.sat_at (f := fun s : τ × μ => f s.2)
    (g := fun s : τ × μ => g s.2) hown hexec hq)
  intro s s' r hQ h
  rw [(hown s s' h).1, (hown s s' h).2]
  exact hQ

/-- A sequential thread moves by its operations only. -/
theorem step_lift {exec : (i : ι) → σ → ρ i → σ → Prop} {q : Prog ι ρ ε α}
    {p' : Main ι ρ ε β α} {s s' : σ} {e : Option (Event ι ρ)}
    (hs : Main.Step exec (Main.lift q) s e p' s') : ∃ (i : ι) (k : ρ i → Prog ι ρ ε α) (r : ρ i),
      q = .call i k ∧ e = some ⟨i, r⟩ ∧ p' = Main.lift (k r) ∧ exec i s r s' := by
  cases q with
  | ret a => cases hs
  | fail e => cases hs
  | call i k =>
      cases hs with
      | call he => exact ⟨i, k, _, rfl, rfl, rfl, he⟩

/-- Where new threads are sequential, all threads are. -/
theorem Pool.Reach.sequential (hnew : ∀ m p, new (m, p) → ∃ q, p = Main.lift q) {st : τ}
    {c : Pool τ μ ι ρ ε β α} (hr : Pool.Reach exec new ⟨st, []⟩ c) :
    ∀ (j : Nat) (m : μ) (p : Main ι ρ ε β α), c.threads[j]? = some (some (m, p)) →
      ∃ q, p = Main.lift q := by
  induction hr with
  | refl => intro j m p hj; cases hj
  | tail _ hs ih =>
      cases hs with
      | @spawn st ts t hn =>
          intro j m p hj
          rcases Nat.lt_or_ge j ts.length with hlt | hge
          · rw [List.getElem?_append_left hlt] at hj
            exact ih j m p hj
          · rw [List.getElem?_append_right hge] at hj
            have heq : some (m, p) = some t := List.mem_singleton.mp (List.mem_of_getElem? hj)
            cases heq
            exact hnew m p hn
      | @run st st' ts i m m' p p' e hi hs =>
          intro j n q hj
          by_cases hij : i = j
          · subst hij
            rw [List.getElem?_set_self (List.getElem?_eq_some_iff.mp hi).1] at hj
            cases hj
            obtain ⟨q, rfl⟩ := ih i m p hi
            obtain ⟨_, k, r, -, -, rfl, -⟩ := step_lift hs
            exact ⟨k r, rfl⟩
          · rw [List.getElem?_set_ne hij] at hj
            exact ih j n q hj
      | @crash st ts i =>
          intro j n q hj
          have hmem : (Pool.memories ⟨st, ts.set i none⟩)[j]? = some (some n) :=
            Pool.memories_get hj
          by_cases hij : i = j
          · subst hij
            rw [Pool.memories, List.map_set] at hmem
            have hlt := (List.getElem?_eq_some_iff.mp hmem).1
            rw [List.length_set] at hlt
            rw [List.getElem?_set_self hlt] at hmem
            cases hmem
          · rw [List.getElem?_set_ne hij] at hj
            exact ih j n q hj

/-- A pool invariant, where every thread keeps what it guarantees about its own trace
    and every operation meets the condition. -/
theorem Pool.ReachIf.traced {C : Pool τ μ ι ρ ε β α → Nat → Event ι ρ → Prop}
    (hexec : ∀ i s r s', exec i s r s' → f s'.2 = f s.2 ++ [⟨i, r⟩] ∧ g s'.2 = g s.2)
    (hnew : ∀ m p, new (m, p) → ∃ q, p = Main.lift q ∧ q.Traced (G (g m)) (R (g m)) (f m))
    {P : Pool τ μ ι ρ ε β α → Prop}
    (hspawn : ∀ st ts t, P ⟨st, ts⟩ → new t → P ⟨st, ts ++ [some t]⟩)
    (hstep : ∀ st ts j m p i r st' m' p', P ⟨st, ts⟩ → ts[j]? = some (some (m, p)) →
      p.outcome? = none → exec i (st, m) r (st', m') → C ⟨st, ts⟩ j ⟨i, r⟩ →
      G (g m) (f m) ⟨i, r⟩ → P ⟨st', ts.set j (some (m', p'))⟩)
    (hcrash : ∀ st ts j, P ⟨st, ts⟩ → P ⟨st, ts.set j none⟩) {st : τ}
    {c d : Pool τ μ ι ρ ε β α} (hc : Pool.Reach exec new ⟨st, []⟩ c) (h0 : P c)
    (hr : Pool.ReachIf exec new C c d) : P d := by
  induction hr with
  | refl => exact h0
  | tail hreach hs hC ih =>
      have hall := hc.trans hreach.reach
      cases hs with
      | spawn hn => exact hspawn _ _ _ ih hn
      | @run st st' ts j m m' p p' e hj hs =>
          obtain ⟨q, rfl⟩ := hall.sequential (fun m p hn => (hnew m p hn).imp fun _ h => h.1) j m p hj
          have hallow := ((hall.threads (new_thread hexec hnew) j m _ hj).step ownMemory_refl hs).1
          obtain ⟨i, k, r, rfl, rfl, rfl, he⟩ := step_lift hs
          exact hstep _ _ j m _ i r _ _ _ ih hj rfl he (hC j _ rfl) (hallow _ rfl).2
      | crash j => exact hcrash _ _ j ih

/-- An operation of a thread of a reachable pool: what it did, and that it kept what the
    thread guarantees. -/
theorem Pool.Reach.moved
    (hexec : ∀ i s r s', exec i s r s' → f s'.2 = f s.2 ++ [⟨i, r⟩] ∧ g s'.2 = g s.2)
    (hnew : ∀ m p, new (m, p) → ∃ q, p = Main.lift q ∧ q.Traced (G (g m)) (R (g m)) (f m))
    {st : τ} {c c' : Pool τ μ ι ρ ε β α} (hr : Pool.Reach exec new ⟨st, []⟩ c) {j : Nat}
    {ev : Event ι ρ} (hs : Pool.Step exec new c (.run j (some ev)) c') :
    ∃ (m m' : μ) (p p' : Main ι ρ ε β α), c.threads[j]? = some (some (m, p)) ∧
      c'.threads = c.threads.set j (some (m', p')) ∧
      exec ev.1 (c.store, m) ev.2 (c'.store, m') ∧ G (g m) (f m) ev := by
  cases hs with
  | @run st st' ts j m m' p p' e hj hs =>
      obtain ⟨q, rfl⟩ := hr.sequential (fun m p hn => (hnew m p hn).imp fun _ h => h.1) j m p hj
      have hallow := ((hr.threads (new_thread hexec hnew) j m _ hj).step ownMemory_refl hs).1
      obtain ⟨i, k, r, rfl, heq, rfl, he⟩ := step_lift hs
      cases heq
      exact ⟨m, m', _, _, hj, rfl, he, (hallow _ rfl).2⟩

/-- A thread of a reachable pool that has settled returned what it guarantees. -/
theorem Pool.Reach.returned
    (hexec : ∀ i s r s', exec i s r s' → f s'.2 = f s.2 ++ [⟨i, r⟩] ∧ g s'.2 = g s.2)
    (hnew : ∀ m p, new (m, p) → ∃ q, p = Main.lift q ∧ q.Traced (G (g m)) (R (g m)) (f m))
    {st : τ} {c : Pool τ μ ι ρ ε β α} (hr : Pool.Reach exec new ⟨st, []⟩ c) {j : Nat} {m : μ}
    {p : Main ι ρ ε β α} {r : Except ε α} (hj : c.threads[j]? = some (some (m, p)))
    (hp : p.outcome? = some r) : R (g m) (f m) r := by
  have hsat := hr.threads (new_thread hexec hnew) j m p hj
  exact hsat.result ownMemory_refl hp

/-- A pool invariant over the store and the memories, where every thread keeps what it
    guarantees about its own trace. -/
theorem Pool.Reach.traced {ok : List (Event ι ρ) → Event ι ρ → Prop}
    {Q : List (Event ι ρ) → Except ε α → Prop}
    (hexec : ∀ i s r s', exec i s r s' → f s'.2 = f s.2 ++ [⟨i, r⟩])
    (hnew : ∀ m p, new (m, p) → ∃ q, p = Main.lift q ∧ q.Traced ok Q (f m))
    {P : τ → List (Option μ) → Prop}
    (hspawn : ∀ st ms m p, P st ms → new (m, p) → P st (ms ++ [some m]))
    (hrun : ∀ st ms j m ev st' m', P st ms → ms[j]? = some (some m) →
      exec ev.1 (st, m) ev.2 (st', m') → ok (f m) ev → P st' (ms.set j (some m')))
    (hcrash : ∀ st ms j, P st ms → P st (ms.set j none)) {st : τ} (h0 : P st [])
    {c : Pool τ μ ι ρ ε β α} (hr : Pool.Reach exec new ⟨st, []⟩ c) : P c.store c.memories := by
  have hsat := new_thread (g := fun _ : μ => ()) (G := fun _ => ok) (R := fun _ => Q)
    (fun i s r s' h => ⟨hexec i s r s' h, rfl⟩) hnew
  refine (Pool.Reach.memories hsat hspawn ?_ hcrash h0 hr).1
  intro st ms j m ev st' m' hP hj hok
  exact hrun st ms j m ev st' m' hP hj hok.1 hok.2

end Pools

end Resumption
