import Mathlib

/-! # Resumption programs: fork-join threads over shared state

    A program is a finite tree of OPERATIONS: it performs an operation, waits
    for the answer and continues.  Between two operations any other thread may
    run, so one operation is one atomic step and an interleaving is a choice,
    at every step, of the thread to move.

    * `Main.Step`, `Run` — the interleaving semantics of one thread;
    * `Run.of_call`, `Run.of_settled`, `ForksInto` — how a run starts, and where its forks
      lead;
    * `Main.step_wf`, `Run.settles` — every run ends. -/

namespace Resumption

variable {ι : Type} {ρ : ι → Type} {ε α β γ σ : Type}

/-- A sequential thread: operations `i : ι` answered in `ρ i`. -/
inductive Prog (ι : Type) (ρ : ι → Type) (ε α : Type) : Type where
  | ret (a : α) : Prog ι ρ ε α
  | fail (e : ε) : Prog ι ρ ε α
  | call (i : ι) (k : ρ i → Prog ι ρ ε α) : Prog ι ρ ε α

/-- A thread that may fork workers and wait for all of them. -/
inductive Main (ι : Type) (ρ : ι → Type) (ε β α : Type) : Type where
  | ret (a : α) : Main ι ρ ε β α
  | fail (e : ε) : Main ι ρ ε β α
  | call (i : ι) (k : ρ i → Main ι ρ ε β α) : Main ι ρ ε β α
  | fork (ws : List (Prog ι ρ ε β)) (k : List (Except ε β) → Main ι ρ ε β α) :
      Main ι ρ ε β α

/-- An operation with its answer. -/
abbrev Event (ι : Type) (ρ : ι → Type) : Type := (i : ι) × ρ i

namespace Prog

/-- Sequencing; a failure skips the rest. -/
def bind : Prog ι ρ ε α → (α → Prog ι ρ ε γ) → Prog ι ρ ε γ
  | .ret a, f => f a
  | .fail e, _ => .fail e
  | .call i k, f => .call i fun r => (k r).bind f

instance : Monad (Prog ι ρ ε) where
  pure := .ret
  bind := .bind

/-- Perform one operation and return its answer. -/
def perform (i : ι) : Prog ι ρ ε (ρ i) := .call i .ret

/-- A computed result as a program. -/
def ofExcept : Except ε α → Prog ι ρ ε α
  | .ok a => .ret a
  | .error e => .fail e

/-- The same program with its errors reported by `f`. -/
def mapError {ε' : Type} (f : ε → ε') : Prog ι ρ ε α → Prog ι ρ ε' α
  | .ret a => .ret a
  | .fail e => .fail (f e)
  | .call i k => .call i fun r => (k r).mapError f

/-- The same program with a last operation on both ways out. -/
def ensure (i : ι) : Prog ι ρ ε α → Prog ι ρ ε α
  | .ret a => .call i fun _ => .ret a
  | .fail e => .call i fun _ => .fail e
  | .call j k => .call j fun r => (k r).ensure i

/-- The same program over other operations, one for each of its own. -/
def mapOps {ι' : Type} {ρ' : ι' → Type} (f : ι → ι') (g : (i : ι) → ρ' (f i) → ρ i) :
    Prog ι ρ ε α → Prog ι' ρ' ε α
  | .ret a => .ret a
  | .fail e => .fail e
  | .call i k => .call (f i) fun r => (k (g i r)).mapOps f g

@[simp] theorem pure_eq (a : α) : (pure a : Prog ι ρ ε α) = .ret a := rfl
@[simp] theorem ret_bind (a : α) (f : α → Prog ι ρ ε γ) : (.ret a >>= f) = f a := rfl
@[simp] theorem fail_bind (e : ε) (f : α → Prog ι ρ ε γ) :
    ((.fail e : Prog ι ρ ε α) >>= f) = .fail e := rfl
@[simp] theorem call_bind (i : ι) (k : ρ i → Prog ι ρ ε α) (f : α → Prog ι ρ ε γ) :
    (.call i k >>= f) = .call i fun r => k r >>= f := rfl
@[simp] theorem perform_bind (i : ι) (f : ρ i → Prog ι ρ ε γ) :
    (perform i >>= f) = .call i f := rfl

/-- The result of a thread that has settled. -/
def outcome? : Prog ι ρ ε α → Option (Except ε α)
  | .ret a => some (.ok a)
  | .fail e => some (.error e)
  | .call _ _ => none

end Prog

namespace Main

/-- Sequencing; a failure skips the rest. -/
def bind : Main ι ρ ε β α → (α → Main ι ρ ε β γ) → Main ι ρ ε β γ
  | .ret a, f => f a
  | .fail e, _ => .fail e
  | .call i k, f => .call i fun r => (k r).bind f
  | .fork ws k, f => .fork ws fun rs => (k rs).bind f

instance : Monad (Main ι ρ ε β) where
  pure := .ret
  bind := .bind

/-- Perform one operation and return its answer. -/
def perform (i : ι) : Main ι ρ ε β (ρ i) := .call i .ret

/-- A computed result as a program. -/
def ofExcept : Except ε α → Main ι ρ ε β α
  | .ok a => .ret a
  | .error e => .fail e

/-- Run all workers concurrently and return their results in list order. -/
def joinAll (ws : List (Prog ι ρ ε β)) : Main ι ρ ε β (List (Except ε β)) := .fork ws .ret

/-- A sequential thread as a part of a forking one. -/
def lift : Prog ι ρ ε α → Main ι ρ ε β α
  | .ret a => .ret a
  | .fail e => .fail e
  | .call i k => .call i fun r => lift (k r)

@[simp] theorem pure_eq (a : α) : (pure a : Main ι ρ ε β α) = .ret a := rfl
@[simp] theorem ret_bind (a : α) (f : α → Main ι ρ ε β γ) : (.ret a >>= f) = f a := rfl
@[simp] theorem fail_bind (e : ε) (f : α → Main ι ρ ε β γ) :
    ((.fail e : Main ι ρ ε β α) >>= f) = .fail e := rfl
@[simp] theorem call_bind (i : ι) (k : ρ i → Main ι ρ ε β α) (f : α → Main ι ρ ε β γ) :
    (.call i k >>= f) = .call i fun r => k r >>= f := rfl
@[simp] theorem perform_bind (i : ι) (f : ρ i → Main ι ρ ε β γ) :
    (perform i >>= f) = .call i f := rfl
@[simp] theorem joinAll_bind (ws : List (Prog ι ρ ε β))
    (f : List (Except ε β) → Main ι ρ ε β γ) : (joinAll ws >>= f) = .fork ws f := rfl

/-- The result of a thread that has settled. -/
def outcome? : Main ι ρ ε β α → Option (Except ε α)
  | .ret a => some (.ok a)
  | .fail e => some (.error e)
  | .call _ _ => none
  | .fork _ _ => none

end Main

/-- One entry of a log with one entry more: it is the last one, or it was there before. -/
theorem concat_split {log pre post : List α} {x y : α} (h : log ++ [x] = pre ++ y :: post) :
    (log = pre ∧ x = y ∧ post = []) ∨ ∃ mid, post = mid ++ [x] ∧ log = pre ++ y :: mid := by
  rcases List.eq_nil_or_concat post with rfl | ⟨mid, z, rfl⟩
  · obtain ⟨hpre, hlast⟩ := List.append_inj' h rfl
    exact .inl ⟨hpre, List.head_eq_of_cons_eq hlast, rfl⟩
  · rw [List.concat_eq_append, ← List.cons_append, ← List.append_assoc] at h
    obtain ⟨hpre, hlast⟩ := List.append_inj' h rfl
    refine .inr ⟨mid, ?_, hpre⟩
    rw [List.concat_eq_append, hlast]

/-! ## The interleaving semantics of one thread -/

/-- One step: the thread's own operation, one operation of one worker, or the
    join once every worker has settled. -/
inductive Main.Step (exec : (i : ι) → σ → ρ i → σ → Prop) :
    Main ι ρ ε β α → σ → Option (Event ι ρ) → Main ι ρ ε β α → σ → Prop where
  | call {i : ι} {k : ρ i → Main ι ρ ε β α} {r : ρ i} {s s' : σ} (h : exec i s r s') :
      Step exec (.call i k) s (some ⟨i, r⟩) (k r) s'
  | work {ws : List (Prog ι ρ ε β)} {k : List (Except ε β) → Main ι ρ ε β α} {j : Nat}
      {i : ι} {w : ρ i → Prog ι ρ ε β} {r : ρ i} {s s' : σ}
      (hj : ws[j]? = some (.call i w)) (h : exec i s r s') :
      Step exec (.fork ws k) s (some ⟨i, r⟩) (.fork (ws.set j (w r)) k) s'
  | join {ws : List (Prog ι ρ ε β)} {k : List (Except ε β) → Main ι ρ ε β α}
      {rs : List (Except ε β)} {s : σ} (h : ws.map Prog.outcome? = rs.map some) :
      Step exec (.fork ws k) s none (k rs) s

/-- A run of one thread with nobody else on the state, with its events. -/
inductive Run (exec : (i : ι) → σ → ρ i → σ → Prop) (p : Main ι ρ ε β α) (s : σ) :
    List (Event ι ρ) → Main ι ρ ε β α → σ → Prop where
  | refl : Run exec p s [] p s
  | tail {q r : Main ι ρ ε β α} {t u : σ} {es : List (Event ι ρ)}
      {e : Option (Event ι ρ)} (h : Run exec p s es q t) (hs : Main.Step exec q t e r u) :
      Run exec p s (es ++ e.toList) r u

theorem Run.trans {exec : (i : ι) → σ → ρ i → σ → Prop} {p q r : Main ι ρ ε β α}
    {s t u : σ} {es fs : List (Event ι ρ)} (h1 : Run exec p s es q t)
    (h2 : Run exec q t fs r u) : Run exec p s (es ++ fs) r u := by
  induction h2 with
  | refl => rw [List.append_nil]; exact h1
  | tail _ hs ih => rw [← List.append_assoc]; exact ih.tail hs

theorem Run.head {exec : (i : ι) → σ → ρ i → σ → Prop} {p q r : Main ι ρ ε β α}
    {s t u : σ} {e : Option (Event ι ρ)} {es : List (Event ι ρ)}
    (hs : Main.Step exec p s e q t) (h : Run exec q t es r u) :
    Run exec p s (e.toList ++ es) r u := by
  have h1 : Run exec p s ([] ++ e.toList) q t := Run.refl.tail hs
  exact h1.trans h

/-- What follows a program does not change its steps. -/
theorem Main.Step.bind {exec : (i : ι) → σ → ρ i → σ → Prop} {p p' : Main ι ρ ε β α} {s s' : σ}
    {e : Option (Event ι ρ)} (h : Main.Step exec p s e p' s') (f : α → Main ι ρ ε β γ) :
    Main.Step exec (p >>= f) s e (p' >>= f) s' := by
  cases h with
  | call h => exact .call h
  | work hj h => exact .work hj h
  | join h => exact .join h

theorem Run.bind {exec : (i : ι) → σ → ρ i → σ → Prop} {p q : Main ι ρ ε β α} {s t : σ}
    {es : List (Event ι ρ)} (h : Run exec p s es q t) (f : α → Main ι ρ ε β γ) :
    Run exec (p >>= f) s es (q >>= f) t := by
  induction h with
  | refl => exact .refl
  | tail _ hs ih => exact ih.tail (hs.bind f)

/-- A run maps to a run over an abstraction of the state. -/
theorem Run.map {σ' : Type} {exec : (i : ι) → σ → ρ i → σ → Prop}
    {exec' : (i : ι) → σ' → ρ i → σ' → Prop} (f : σ → σ')
    (h : ∀ i s r s', exec i s r s' → exec' i (f s) r (f s')) {p q : Main ι ρ ε β α} {s t : σ}
    {es : List (Event ι ρ)} (hr : Run exec p s es q t) : Run exec' p (f s) es q (f t) := by
  induction hr with
  | refl => exact .refl
  | tail _ hs ih =>
      cases hs with
      | call he => exact ih.tail (.call (h _ _ _ _ he))
      | work hj he => exact ih.tail (.work hj (h _ _ _ _ he))
      | join hset => exact ih.tail (.join hset)

/-! ## How a run starts -/

/-- Every fork of the program continues with `K`. -/
def ForksInto (K : List (Except ε β) → Main ι ρ ε β α) : Main ι ρ ε β α → Prop
  | .ret _ => True
  | .fail _ => True
  | .call _ k => ∀ r, ForksInto K (k r)
  | .fork _ k => k = K ∧ ∀ rs, ForksInto K (k rs)

/-- A run keeps where the forks lead. -/
theorem ForksInto.run {K : List (Except ε β) → Main ι ρ ε β α} {exec : (i : ι) → σ → ρ i → σ → Prop}
    {p q : Main ι ρ ε β α} {s t : σ} {es : List (Event ι ρ)} (h : Run exec p s es q t)
    (hp : ForksInto K p) : ForksInto K q := by
  induction h with
  | refl => exact hp
  | tail _ hs ih =>
      cases hs with
      | call _ => exact ih _
      | work _ _ => exact ih
      | join _ => exact ih.2 _

/-- Workers that have all settled can only be joined. -/
theorem Run.of_settled {exec : (i : ι) → σ → ρ i → σ → Prop} {ws : List (Prog ι ρ ε β)}
    {k : List (Except ε β) → Main ι ρ ε β α} {rs : List (Except ε β)}
    (hset : ws.map Prog.outcome? = rs.map some) {q : Main ι ρ ε β α} {s t : σ}
    {es : List (Event ι ρ)} (h : Run exec (.fork ws k) s es q t) :
    (q = .fork ws k ∧ t = s ∧ es = []) ∨ Run exec (k rs) s es q t := by
  induction h with
  | refl => exact .inl ⟨rfl, rfl, rfl⟩
  | tail _ hs ih =>
      rcases ih with ⟨rfl, rfl, rfl⟩ | ih
      · cases hs with
        | @work _ _ j i w _ _ _ hj _ =>
            -- a worker that has settled performs no operation
            have hnone : (ws.map Prog.outcome?)[j]? = some none := by
              rw [List.getElem?_map, hj]
              rfl
            rw [hset, List.getElem?_map] at hnone
            obtain ⟨r, -, hr⟩ := Option.map_eq_some_iff.mp hnone
            exact nomatch hr
        | join hset' =>
            have hrs := List.map_injective_iff.mpr (fun _ _ h => Option.some.inj h) (hset.symm.trans hset')
            subst hrs
            exact .inr .refl
      · exact .inr (ih.tail hs)

/-- A run from an operation: nothing happened yet, or it starts with the operation. -/
theorem Run.of_call {exec : (i : ι) → σ → ρ i → σ → Prop} {i : ι} {k : ρ i → Main ι ρ ε β α}
    {q : Main ι ρ ε β α} {s t : σ} {es : List (Event ι ρ)} (h : Run exec (.call i k) s es q t) :
    (q = .call i k ∧ t = s ∧ es = []) ∨ ∃ r s' es', exec i s r s' ∧ es = ⟨i, r⟩ :: es' ∧
      Run exec (k r) s' es' q t := by
  induction h with
  | refl => exact .inl ⟨rfl, rfl, rfl⟩
  | tail _ hs ih =>
      rcases ih with ⟨rfl, rfl, rfl⟩ | ⟨r, s', es', he, rfl, hrun⟩
      · cases hs with
        | call he => exact .inr ⟨_, _, [], he, rfl, .refl⟩
      · exact .inr ⟨r, s', _, he, rfl, hrun.tail hs⟩

/-- What every operation preserves, a run preserves. -/
theorem Run.invariant {exec : (i : ι) → σ → ρ i → σ → Prop} {I : σ → Prop}
    (hI : ∀ i s r s', I s → exec i s r s' → I s') {p q : Main ι ρ ε β α} {s t : σ}
    {es : List (Event ι ρ)} (h : Run exec p s es q t) (hs : I s) : I t := by
  induction h with
  | refl => exact hs
  | tail _ hstep ih =>
      cases hstep with
      | call he => exact hI _ _ _ _ ih he
      | work _ he => exact hI _ _ _ _ ih he
      | join _ => exact ih

/-- Nothing happens after a failure. -/
theorem Run.of_fail {exec : (i : ι) → σ → ρ i → σ → Prop} {e : ε} {q : Main ι ρ ε β α} {s t : σ}
    {es : List (Event ι ρ)} (h : Run exec (.fail e) s es q t) : q = .fail e ∧ t = s ∧ es = [] := by
  induction h with
  | refl => exact ⟨rfl, rfl, rfl⟩
  | tail _ hs ih =>
      obtain ⟨rfl, rfl, rfl⟩ := ih
      cases hs

/-! ## Every run ends

    A program is a well-founded tree and every step moves down in it, whatever
    the operations answer, so no run is infinite; and a program that has not
    settled can move. -/

/-- One worker of a list moves. -/
def WorkerMove (ws' ws : List (Prog ι ρ ε β)) : Prop :=
  ∃ (j : Nat) (i : ι) (w : ρ i → Prog ι ρ ε β) (r : ρ i),
    ws[j]? = some (.call i w) ∧ ws' = ws.set j (w r)

/-- A worker more still ends. -/
theorem acc_cons : ∀ (w : Prog ι ρ ε β) {ws : List (Prog ι ρ ε β)}, Acc WorkerMove ws →
    Acc WorkerMove (w :: ws) := by
  intro w
  -- outer induction on the first worker, inner induction on the others
  induction w with
  | ret b =>
      intro ws hws
      induction hws with
      | intro ws _ ih =>
          refine Acc.intro _ ?_
          rintro ws' ⟨j, i, v, r, hj, rfl⟩
          cases j with
          | zero => exact nomatch hj
          | succ j => exact ih _ ⟨j, i, v, r, hj, rfl⟩
  | fail e =>
      intro ws hws
      induction hws with
      | intro ws _ ih =>
          refine Acc.intro _ ?_
          rintro ws' ⟨j, i, v, r, hj, rfl⟩
          cases j with
          | zero => exact nomatch hj
          | succ j => exact ih _ ⟨j, i, v, r, hj, rfl⟩
  | call i k ihk =>
      intro ws hws
      induction hws with
      | intro ws hacc ih =>
          refine Acc.intro _ ?_
          rintro ws' ⟨j, i', v, r, hj, rfl⟩
          cases j with
          | zero => cases hj; exact ihk r (Acc.intro ws hacc)
          | succ j => exact ih _ ⟨j, i', v, r, hj, rfl⟩

/-- Any list of workers does. -/
theorem acc_workers : ∀ ws : List (Prog ι ρ ε β), Acc WorkerMove ws := by
  intro ws
  induction ws with
  | nil =>
      refine Acc.intro _ ?_
      rintro ws' ⟨j, i, v, r, hj, -⟩
      exact nomatch hj
  | cons w ws ih => exact acc_cons w ih

/-- **NO RUN IS INFINITE.** -/
theorem Main.step_wf (exec : (i : ι) → σ → ρ i → σ → Prop) :
    WellFounded fun p' p : Main ι ρ ε β α => ∃ s e s', Main.Step exec p s e p' s' := by
  refine ⟨fun p => ?_⟩
  induction p with
  | ret a =>
      refine Acc.intro _ ?_
      rintro p' ⟨s, e, s', h⟩
      cases h
  | fail e =>
      refine Acc.intro _ ?_
      rintro p' ⟨s, e, s', h⟩
      cases h
  | call i k ih =>
      refine Acc.intro _ ?_
      rintro p' ⟨s, e, s', h⟩
      cases h with
      | call h => exact ih _
  | fork ws k ih =>
      induction acc_workers ws with
      | intro ws _ ihw =>
          refine Acc.intro _ ?_
          rintro p' ⟨s, e, s', h⟩
          cases h with
          | work hj h => exact ihw _ ⟨_, _, _, _, hj, rfl⟩
          | join h => exact ih _

/-- The workers have all settled, or one of them can move. -/
theorem workers_cases : ∀ ws : List (Prog ι ρ ε β),
    (∃ rs : List (Except ε β), ws.map Prog.outcome? = rs.map some) ∨
      ∃ (j : Nat) (i : ι) (w : ρ i → Prog ι ρ ε β), ws[j]? = some (.call i w) := by
  intro ws
  induction ws with
  | nil => exact Or.inl ⟨[], rfl⟩
  | cons w ws ih =>
      rcases ih with ⟨rs, hrs⟩ | ⟨j, i, v, hj⟩
      · cases w with
        | ret b => exact Or.inl ⟨.ok b :: rs, by rw [List.map_cons, List.map_cons, hrs]; rfl⟩
        | fail e => exact Or.inl ⟨.error e :: rs, by rw [List.map_cons, List.map_cons, hrs]; rfl⟩
        | call i k => exact Or.inr ⟨0, i, k, rfl⟩
      · exact Or.inr ⟨j + 1, i, v, hj⟩

/-- **EVERY RUN CAN BE COMPLETED** when every operation has an answer. -/
theorem Run.settles {exec : (i : ι) → σ → ρ i → σ → Prop}
    (htotal : ∀ i s, ∃ r s', exec i s r s') (p : Main ι ρ ε β α) :
    ∀ s, ∃ es p' s' r, Run exec p s es p' s' ∧ p'.outcome? = some r := by
  induction p using (Main.step_wf exec).induction with
  | _ p ih =>
      intro s
      have hstep : ∀ e p' s', Main.Step exec p s e p' s' →
          ∃ es q t r, Run exec p s es q t ∧ q.outcome? = some r := by
        intro e p' s' hs
        obtain ⟨es, q, t, r, hrun, hq⟩ := ih p' ⟨s, e, s', hs⟩ s'
        exact ⟨e.toList ++ es, q, t, r, Run.head hs hrun, hq⟩
      cases p with
      | ret a => exact ⟨[], _, s, .ok a, .refl, rfl⟩
      | fail e => exact ⟨[], _, s, .error e, .refl, rfl⟩
      | call i k =>
          obtain ⟨r, s', h⟩ := htotal i s
          exact hstep _ _ _ (.call h)
      | fork ws k =>
          rcases workers_cases ws with ⟨rs, hrs⟩ | ⟨j, i, w, hj⟩
          · exact hstep _ _ _ (.join hrs)
          · obtain ⟨r, s', h⟩ := htotal i s
            exact hstep _ _ _ (.work hj h)

/-! ## Running a schedule

    A schedule names, step by step, the worker to move and how the operation is
    answered; `playStep` is total, so a finished or a settled worker idles. -/

/-- A way to answer every operation. -/
abbrev Handler (ι : Type) (ρ : ι → Type) (σ : Type) : Type := (i : ι) → σ → ρ i × σ

/-- The results of the workers, once all have settled. -/
def settled : List (Prog ι ρ ε β) → Option (List (Except ε β))
  | [] => some []
  | w :: ws =>
      match w.outcome?, settled ws with
      | some r, some rs => some (r :: rs)
      | _, _ => none

/-- One scheduled step. -/
def playStep (h : Handler ι ρ σ) (j : Nat) :
    Main ι ρ ε β α × σ → Main ι ρ ε β α × σ
  | (.call i k, s) => (k (h i s).1, (h i s).2)
  | (.fork ws k, s) =>
      match settled ws with
      | some rs => (k rs, s)
      | none =>
          match ws[j]? with
          | some (.call i w) => (.fork (ws.set j (w (h i s).1)) k, (h i s).2)
          | _ => (.fork ws k, s)
  | (p, s) => (p, s)

/-- A whole schedule. -/
def play : List (Nat × Handler ι ρ σ) → Main ι ρ ε β α × σ → Main ι ρ ε β α × σ
  | [], c => c
  | (j, h) :: rest, c => play rest (playStep h j c)

/-- The results of workers that have settled. -/
theorem settled_spec : ∀ (ws : List (Prog ι ρ ε β)) (rs : List (Except ε β)),
    settled ws = some rs → ws.map Prog.outcome? = rs.map some
  | [], rs, h => by
      have : rs = [] := (Option.some.inj h).symm
      subst this
      rfl
  | w :: ws, rs, h => by
      rw [settled] at h
      cases hw : w.outcome? with
      | none => rw [hw] at h; exact nomatch h
      | some r =>
          cases hws : settled ws with
          | none => rw [hw, hws] at h; exact nomatch h
          | some rs' =>
              rw [hw, hws] at h
              have hr : r :: rs' = rs := Option.some.inj h
              subst hr
              rw [List.map_cons, List.map_cons, hw, settled_spec ws rs' hws]

/-- The operation a scheduled step performs. -/
def playOp? (j : Nat) : Main ι ρ ε β α → Option ι
  | .call i _ => some i
  | .fork ws _ =>
      match settled ws, ws[j]? with
      | none, some (.call i _) => some i
      | _, _ => none
  | _ => none

/-- Every operation a schedule performs meets `C`. -/
def PlayMeets (C : ι → σ → Prop) : List (Nat × Handler ι ρ σ) → Main ι ρ ε β α × σ → Prop
  | [], _ => True
  | (j, h) :: rest, c =>
      (match playOp? j c.1 with
        | some i => C i c.2
        | none => True) ∧ PlayMeets C rest (playStep h j c)

/-- Every scheduled step is a step that keeps what the handler keeps, or nothing
    moves. -/
theorem playStep_sound {exec : (i : ι) → σ → ρ i → σ → Prop} {I : σ → Prop} {h : Handler ι ρ σ}
    {j : Nat} {p : Main ι ρ ε β α} {s : σ} (hs : I s)
    (hh : ∀ i, playOp? j p = some i → exec i s (h i s).1 (h i s).2 ∧ I (h i s).2) :
    I (playStep h j (p, s)).2 ∧ (playStep h j (p, s) = (p, s) ∨
      ∃ e, Main.Step exec p s e (playStep h j (p, s)).1 (playStep h j (p, s)).2) := by
  cases p with
  | ret a => exact ⟨hs, Or.inl rfl⟩
  | fail e => exact ⟨hs, Or.inl rfl⟩
  | call i k => exact ⟨(hh i rfl).2, Or.inr ⟨_, .call (hh i rfl).1⟩⟩
  | fork ws k =>
      cases hset : settled ws with
      | some rs =>
          simp only [playStep, hset]
          exact ⟨hs, Or.inr ⟨none, .join (settled_spec ws rs hset)⟩⟩
      | none =>
          cases hj : ws[j]? with
          | none => simp only [playStep, hset, hj]; exact ⟨hs, Or.inl trivial⟩
          | some w =>
              cases w with
              | ret b => simp only [playStep, hset, hj]; exact ⟨hs, Or.inl trivial⟩
              | fail e => simp only [playStep, hset, hj]; exact ⟨hs, Or.inl trivial⟩
              | call i w =>
                  have hi := hh i (by simp only [playOp?, hset, hj])
                  simp only [playStep, hset, hj]
                  exact ⟨hi.2, Or.inr ⟨some ⟨i, (h i s).1⟩, .work hj hi.1⟩⟩

/-- A played schedule is a run, when its operations meet `C` and the handlers then
    answer as `exec` does in the states `I` they keep. -/
theorem play_run {exec : (i : ι) → σ → ρ i → σ → Prop} {I : σ → Prop} {C : ι → σ → Prop} :
    ∀ (sched : List (Nat × Handler ι ρ σ)),
      (∀ x ∈ sched, ∀ i s, I s → C i s → exec i s (x.2 i s).1 (x.2 i s).2 ∧ I (x.2 i s).2) →
      ∀ (p : Main ι ρ ε β α) (s : σ), I s → PlayMeets C sched (p, s) →
        ∃ es, Run exec p s es (play sched (p, s)).1 (play sched (p, s)).2 := by
  intro sched
  induction sched with
  | nil => intro _ p s _ _; exact ⟨[], .refl⟩
  | cons x rest ih =>
      intro hall p s hs hC
      obtain ⟨j, h⟩ := x
      obtain ⟨hC1, hC2⟩ := hC
      have hstep : ∀ i, playOp? j p = some i → exec i s (h i s).1 (h i s).2 ∧ I (h i s).2 := by
        intro i hi
        refine hall (j, h) (List.mem_cons_self ..) i s hs ?_
        simp only [hi] at hC1
        exact hC1
      obtain ⟨hI, hmove⟩ := playStep_sound hs hstep
      obtain ⟨es, hrun⟩ := ih (fun y hy => hall y (List.mem_cons_of_mem _ hy))
        (playStep h j (p, s)).1 (playStep h j (p, s)).2 hI hC2
      rcases hmove with hidle | ⟨e, hstep⟩
      · rw [hidle] at hrun
        refine ⟨es, ?_⟩
        show Run exec p s es (play rest (playStep h j (p, s))).1 (play rest (playStep h j (p, s))).2
        rw [hidle]
        exact hrun
      · exact ⟨e.toList ++ es, Run.head hstep hrun⟩

/-- A condition that always holds is met. -/
theorem playMeets_of_forall {C : ι → σ → Prop} (h : ∀ i s, C i s) :
    ∀ (sched : List (Nat × Handler ι ρ σ)) (c : Main ι ρ ε β α × σ), PlayMeets C sched c := by
  intro sched
  induction sched with
  | nil => intro c; exact trivial
  | cons x rest ih =>
      intro c
      refine ⟨?_, ih _⟩
      split
      · exact h _ _
      · exact trivial

/-- The same as a test. -/
def playMeets? (C : ι → σ → Bool) : List (Nat × Handler ι ρ σ) → Main ι ρ ε β α × σ → Bool
  | [], _ => true
  | (j, h) :: rest, c =>
      (match playOp? j c.1 with
        | some i => C i c.2
        | none => true) && playMeets? C rest (playStep h j c)

/-- A test that is sound. -/
theorem playMeets_of_test {C : ι → σ → Bool} {D : ι → σ → Prop} (hC : ∀ i s, C i s = true → D i s) :
    ∀ (sched : List (Nat × Handler ι ρ σ)) (c : Main ι ρ ε β α × σ),
      playMeets? C sched c = true → PlayMeets D sched c := by
  intro sched
  induction sched with
  | nil => intro c _; exact trivial
  | cons x rest ih =>
      intro c hc
      obtain ⟨h1, h2⟩ := Bool.and_eq_true_iff.mp hc
      refine ⟨?_, ih _ h2⟩
      revert h1
      cases playOp? x.1 c.1 with
      | none => exact fun _ => trivial
      | some i => exact fun h1 => hC _ _ h1

/-- Two conditions, one of which always holds. -/
theorem playMeets_and {C D : ι → σ → Prop} (hD : ∀ i s, D i s) :
    ∀ (sched : List (Nat × Handler ι ρ σ)) (c : Main ι ρ ε β α × σ), PlayMeets C sched c →
      PlayMeets (fun i s => D i s ∧ C i s) sched c := by
  intro sched
  induction sched with
  | nil => intro c _; exact trivial
  | cons x rest ih =>
      intro c hc
      obtain ⟨h1, h2⟩ := hc
      refine ⟨?_, ih _ h2⟩
      revert h1
      cases playOp? x.1 c.1 with
      | none => exact fun _ => trivial
      | some i => exact fun h1 => ⟨hD _ _, h1⟩

theorem play_sound {exec : (i : ι) → σ → ρ i → σ → Prop} (sched : List (Nat × Handler ι ρ σ))
    (h : ∀ x ∈ sched, ∀ i s, exec i s (x.2 i s).1 (x.2 i s).2) (p : Main ι ρ ε β α) (s : σ) :
    ∃ es, Run exec p s es (play sched (p, s)).1 (play sched (p, s)).2 :=
  play_run (I := fun _ => True) (C := fun _ _ => True) sched
    (fun x hx i s _ _ => ⟨h x hx i s, trivial⟩) p s trivial
    (playMeets_of_forall (fun _ _ => trivial) sched _)

end Resumption
