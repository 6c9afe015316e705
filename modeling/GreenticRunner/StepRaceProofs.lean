import GreenticRunner.StepOutboxProofs

/-! # Concurrent steps of one session

    Any number of steps of one session, interleaved at their operations over the
    in-memory hosts and killed at any moment.

    * `steps_chain` — commits chain whenever every operation is `OnTop`;
    * `twoFirsts_lose_one` — two steps that both find no session. -/

namespace Greentic.Engine

open FinMaps Resumption

/-- The steps of the session `key`. -/
inductive Stepping (sm : StateMachine) (key : SessionKey) :
    StepMemory × StepThread → Prop where
  | intro (q : Request) (h : q.key = key) : Stepping sm key (.fresh, Main.lift (q.step sm))

/-- The hosts and any number of steps. -/
abbrev StepSystem : Type :=
  Pool Hosts StepMemory Op Op.Res RunnerError Unit (Json × NodeOutputs)

/-- The snapshot committed last. -/
def lastCommit (cs : List Commit) : Option SessionSnapshot := cs.getLast?.map (·.snapshot)

/-- Every commit was computed from the commit before it, the first from no
    session. -/
def NoLostStep (cs : List Commit) : Prop :=
  ∀ pre c post, cs = pre ++ c :: post → c.base = lastCommit pre

/-- The commit of a step: what it loaded, the state it wrote and the responses it
    received. -/
def CommittedBy (sm : StateMachine) (m : StepMemory) (c : Commit) : Prop :=
  m.loaded = some c.base ∧ m.stateSet = some c.snapshot.state ∧
    ∀ r ∈ m.called, Recorded sm c.snapshot.outbox r

/-- A step commits on top of what it loaded: nothing has expired at a load, a `put`
    finds the session as its step loaded it, and a revision can be raised. -/
def OnTop (t : Nat) (s : World) (i : Op) : Prop :=
  Kept t s i ∧ match i with
    | .put session =>
        (s.1.sessions session.key).map SessionEntry.loaded = s.2.loaded.getD none
    | .updateCas _ expected => expected < 2 ^ 64 - 1
    | _ => True

/-! ## Commits -/

theorem lastCommit_concat (cs : List Commit) (c : Commit) :
    lastCommit (cs ++ [c]) = some c.snapshot := by
  rw [lastCommit, List.getLast?_concat]
  rfl

theorem NoLostStep.concat {cs : List Commit} {c : Commit} (h : NoLostStep cs)
    (hc : c.base = lastCommit cs) : NoLostStep (cs ++ [c]) := by
  intro pre d post heq
  rcases concat_split heq with ⟨rfl, rfl, -⟩ | ⟨mid, -, hcs⟩
  · exact hc
  · exact h pre d mid hcs

/-! ## The invariant -/

/-- What is known of one step: the key it stores under, that a session which is not
    new is no newer than the stored one, and its commit. -/
structure RaceThread (sm : StateMachine) (key : SessionKey) (h : Hosts) (m : StepMemory) : Prop where
  under : ∀ b, m.loaded = some b → baseKey key b = key
  behind : ∀ b, m.loaded = some (some b) → b.isNew = false → ∃ e, h.sessions key = some e ∧
    e.loaded.isNew = false ∧ (e.loaded = b ∨ b.revision < e.cas)
  commit : m.committed = true → ∃ c ∈ h.commits, CommittedBy sm m c

/-- The session host holds the last commit, commits chain, and every step is in
    order. -/
structure RaceInv (sm : StateMachine) (key : SessionKey) (h : Hosts)
    (ms : List (Option StepMemory)) : Prop where
  keyed : ∀ e, h.sessions key = some e → e.snapshot.key = key
  last : (h.sessions key).map SessionEntry.loaded = lastCommit h.commits
  chain : NoLostStep h.commits
  threads : ∀ (j : Nat) (m : StepMemory), ms[j]? = some (some m) → RaceThread sm key h m

section Race

variable {sm : StateMachine} {key : SessionKey} {h h' : Hosts} {ms : List (Option StepMemory)}
  {j : Nat} {m m' : StepMemory}

/-- A thread after the hosts moved on. -/
theorem RaceThread.next (ht : RaceThread sm key h m) (hc : ∀ c ∈ h.commits, c ∈ h'.commits)
    (hb : ∀ e, h.sessions key = some e → e.loaded.isNew = false → ∃ e', h'.sessions key = some e' ∧
      e'.loaded.isNew = false ∧ (e'.loaded = e.loaded ∨ e.cas < e'.cas)) :
    RaceThread sm key h' m := by
  refine ⟨ht.under, ?_, ?_⟩
  · intro b hl hnew
    obtain ⟨e, he, hen, hrel⟩ := ht.behind b hl hnew
    obtain ⟨e', he', hen', hrel'⟩ := hb e he hen
    refine ⟨e', he', hen', ?_⟩
    rcases hrel with heq | hlt
    · rcases hrel' with heq' | hlt'
      · exact Or.inl (heq'.trans heq)
      · refine Or.inr ?_
        rw [← heq]
        exact hlt'
    · rcases hrel' with heq' | hlt'
      · refine Or.inr ?_
        have hcas : e'.cas = e.cas := congrArg SessionSnapshot.revision heq'
        rw [hcas]
        exact hlt
      · exact Or.inr (hlt.trans hlt')
  · intro hcom
    obtain ⟨c, hmem, hby⟩ := ht.commit hcom
    exact ⟨c, hc c hmem, hby⟩

/-- The threads after one of them moved. -/
theorem threads_set (hold : ∀ (i : Nat) (n : StepMemory), ms[i]? = some (some n) →
      RaceThread sm key h' n) (hnew : RaceThread sm key h' m') :
    ∀ (i : Nat) (n : StepMemory), (ms.set j (some m'))[i]? = some (some n) →
      RaceThread sm key h' n := by
  intro i n hi
  rcases List.mem_or_eq_of_mem_set (List.mem_of_getElem? hi) with hmem | heq
  · obtain ⟨k, hk⟩ := List.getElem?_of_mem hmem
    exact hold k n hk
  · cases heq
    exact hnew

/-- An operation that does not write the session host. -/
theorem RaceInv.frame (hi : RaceInv sm key h ms) (hj : ms[j]? = some (some m))
    (h1 : h'.sessions = h.sessions) (h2 : h'.commits = h.commits) (h3 : m'.loaded = m.loaded)
    (h4 : m'.committed = m.committed) (h5 : m.committed = false) :
    RaceInv sm key h' (ms.set j (some m')) := by
  have hnext : ∀ {n : StepMemory}, RaceThread sm key h n → RaceThread sm key h' n := by
    intro n hn
    refine hn.next (by rw [h2]; exact fun _ hc => hc) ?_
    intro e he hen
    exact ⟨e, by rw [h1]; exact he, hen, Or.inl rfl⟩
  refine ⟨by rw [h1]; exact hi.keyed, by rw [h1, h2]; exact hi.last, by rw [h2]; exact hi.chain,
    threads_set (fun i n hn => hnext (hi.threads i n hn)) ?_⟩
  have hm := hnext (hi.threads j m hj)
  refine ⟨by rw [h3]; exact hm.under, by rw [h3]; exact hm.behind, ?_⟩
  intro hc
  rw [h4, h5] at hc
  exact nomatch hc

/-- A commit on top of the last one. -/
theorem RaceInv.commit (hi : RaceInv sm key h ms) (hj : ms[j]? = some (some m))
    {base : Option SessionSnapshot} {session : SessionSnapshot}
    (hw : Working sm key base m session) (hset : m.stateSet = some session.state)
    (hbase : base = (h.sessions key).map SessionEntry.loaded) {e : SessionEntry}
    (hrev : e.snapshot.revision = e.cas) (hkey : e.snapshot.key = session.key)
    (hstate : e.snapshot.state = session.state) (hout : e.snapshot.outbox = session.outbox)
    (hup : ∀ e₀, h.sessions key = some e₀ → e₀.loaded.isNew = false →
      e.loaded.isNew = false ∧ e₀.cas < e.cas)
    (h1 : h'.sessions = (h.store base e).sessions) (h2 : h'.commits = (h.store base e).commits)
    (h3 : m'.loaded = m.loaded) (h4 : m'.called = m.called) (h5 : m'.stateSet = m.stateSet) :
    RaceInv sm key h' (ms.set j (some m')) := by
  have hek : e.snapshot.key = key := by
    rw [hkey, hw.key]
    exact (hi.threads j m hj).under base hw.loaded
  have hsess : h'.sessions key = some e := by
    rw [h1]
    show Function.update h.sessions e.snapshot.key (some e) key = some e
    rw [hek, Function.update_self]
  have hcs : h'.commits = h.commits ++ [⟨base, e.snapshot⟩] := h2
  have hloaded : e.loaded = e.snapshot := by
    show { e.snapshot with revision := e.cas } = e.snapshot
    rw [← hrev]
  have hnext : ∀ {n : StepMemory}, RaceThread sm key h n → RaceThread sm key h' n := by
    intro n hn
    refine hn.next (by rw [hcs]; exact fun _ hc => List.mem_append_left _ hc) ?_
    intro e₀ he₀ hen
    exact ⟨e, hsess, (hup e₀ he₀ hen).1, Or.inr (hup e₀ he₀ hen).2⟩
  refine ⟨?_, ?_, ?_, threads_set (fun i n hn => hnext (hi.threads i n hn)) ?_⟩
  · intro e' he'
    rw [hsess] at he'
    cases he'
    exact hek
  · rw [hsess, hcs, lastCommit_concat]
    exact congrArg some hloaded
  · rw [hcs]
    exact hi.chain.concat (hbase.trans hi.last)
  · have hm := hnext (hi.threads j m hj)
    refine ⟨by rw [h3]; exact hm.under, by rw [h3]; exact hm.behind, fun _ => ?_⟩
    refine ⟨⟨base, e.snapshot⟩, by rw [hcs]; exact List.mem_append_right _ (List.mem_singleton.mpr rfl), ?_, ?_, ?_⟩
    · rw [h3]
      exact hw.loaded
    · rw [h5, hset, hstate]
    · rw [h4, hout]
      exact hw.called

/-- **ONE OPERATION** of one step. -/
theorem RaceInv.step (hi : RaceInv sm key h ms) (hj : ms[j]? = some (some m))
    {ev : Event Op Op.Res} (hf : Fact sm key m ev.1)
    (he : execAt OnTop ev.1 (h, m) ev.2 (h', m')) : RaceInv sm key h' (ms.set j (some m')) := by
  obtain ⟨i, r⟩ := ev
  obtain ⟨t, -, ⟨hkept, htop⟩, ha, heq⟩ := he
  have hh : h' = { effect t (h, m) i with clock := t } := congrArg Prod.fst heq
  have hm : m' = m.remember i r := congrArg Prod.snd heq
  subst hh hm
  cases i with
  | get k =>
      obtain ⟨hk, hfresh⟩ : k = key ∧ m = .fresh := hf
      subst hk
      have hlive : h.live t k = h.sessions k := hkept k rfl
      have hsame : Function.update h.sessions k (h.live t k) = h.sessions := by
        rw [hlive, Function.update_eq_self]
      cases ha
      have hnext : ∀ {n : StepMemory}, RaceThread sm k h n →
          RaceThread sm k { effect t (h, m) (.get k) with clock := t } n := by
        intro n hn
        refine hn.next (fun _ hc => hc) ?_
        intro e he hen
        exact ⟨e, (congrFun hsame k).trans he, hen, Or.inl rfl⟩
      refine ⟨?_, ?_, hi.chain, threads_set (fun i n hn => hnext (hi.threads i n hn)) ?_⟩
      · intro e he
        exact hi.keyed e ((congrFun hsame k).symm.trans he)
      · exact (congrArg (Option.map SessionEntry.loaded) (congrFun hsame k)).trans hi.last
      · -- what it loaded is what is stored
        have hb : ∀ b, (m.remember (.get k)
            (.ok ((h.live t k).map SessionEntry.loaded))).loaded = some b →
            b = (h.sessions k).map SessionEntry.loaded := by
          intro b hb
          rw [← hlive]
          exact (Option.some.inj hb).symm
        refine ⟨?_, ?_, ?_⟩
        · intro b hl
          rw [hb b hl]
          cases hs : h.sessions k with
          | none => rfl
          | some e => exact hi.keyed e hs
        · intro b hl hnew
          obtain ⟨e, he, hload⟩ := Option.map_eq_some_iff.mp (hb _ hl).symm
          exact ⟨e, (congrFun hsame k).trans he, by rw [hload]; exact hnew, Or.inl hload⟩
        · intro hc
          rw [hfresh] at hc
          cases hc
  | put session =>
      obtain ⟨hset, base, hw, hnew⟩ := hf
      cases ha
      have hsk : session.key = key := hw.key.trans ((hi.threads j m hj).under base hw.loaded)
      have hbase : base = (h.sessions key).map SessionEntry.loaded := by
        have htop' : (h.sessions session.key).map SessionEntry.loaded = m.loaded.getD none := htop
        rw [hw.loaded, hsk] at htop'
        exact htop'.symm
      refine hi.commit hj hw hset hbase (e := putEntry t session) rfl rfl rfl rfl ?_ ?_ ?_ rfl rfl rfl
      · -- a stored session that is not new was not loaded as new
        intro e₀ he₀ hen
        rw [hbase, he₀] at hnew
        have hnew' : e₀.loaded.isNew = true := hnew
        rw [hen] at hnew'
        cases hnew'
      · rfl
      · show h.commits ++ [⟨m.loaded.getD none, _⟩] = _
        rw [hw.loaded]
        rfl
  | updateCas session expected =>
      obtain ⟨hset, base, hw, hnew, hexp⟩ := hf
      cases ha
      cases hcas : h.casOk session expected with
      | false =>
          refine hi.frame hj ?_ ?_ ?_ ?_ hw.uncommitted
          · simp [effect, hcas]
          · simp [effect, hcas]
          · simp
          · simp
      | true =>
          have hsk : session.key = key := hw.key.trans ((hi.threads j m hj).under base hw.loaded)
          -- a base that is not new is a loaded session
          cases base with
          | none => cases hnew
          | some b =>
          obtain ⟨e, he, hen, hrel⟩ := (hi.threads j m hj).behind b hw.loaded hnew
          have hrev : e.cas = b.revision := by
            have hfound := hcas
            rw [Hosts.casOk, hsk, he] at hfound
            exact (of_decide_eq_true hfound).trans hexp
          have hb : e.loaded = b := by
            rcases hrel with heq | hlt
            · exact heq
            · rw [hrev] at hlt
              exact absurd hlt (Nat.lt_irrefl _)
          have hsucc : saturatingSucc expected = expected + 1 := by
            have hlt : expected < 2 ^ 64 - 1 := htop
            unfold saturatingSucc
            omega
          refine hi.commit hj hw hset (by rw [he, ← hb]; rfl)
            (e := casEntry t session expected) rfl rfl rfl rfl ?_ ?_ ?_ ?_ ?_ ?_
          · intro e₀ he₀ _
            rw [he] at he₀
            cases he₀
            refine ⟨?_, ?_⟩
            · show ((saturatingSucc expected == 0) && _) = false
              rw [hsucc]
              rfl
            · show e.cas < saturatingSucc expected
              rw [hsucc, hrev, hexp]
              exact Nat.lt_succ_self _
          · simp [effect, hcas, hw.loaded]
          · simp [effect, hcas, hw.loaded]
          · simp
          · simp
          · simp
  | setJson k v =>
      obtain ⟨-, base, session, hw, -, -⟩ := hf
      cases ha
      exact hi.frame hj rfl rfl rfl rfl hw.uncommitted
  | emit span fields =>
      obtain ⟨-, hu, -⟩ := hf
      exact hi.frame hj rfl rfl rfl rfl hu
  | generateSessionId =>
      obtain ⟨-, hu, -⟩ := hf
      exact hi.frame hj rfl rfl rfl rfl hu
  | callAdapter seq call =>
      obtain ⟨-, hu, -⟩ := hf
      cases r with
      | ok v => exact hi.frame hj rfl rfl rfl rfl hu
      | error e => exact hi.frame hj rfl rfl rfl rfl hu

end Race

/-! ## All interleavings -/

/-- What `step_sat` says of a thread of the system. -/
theorem Stepping.sat {C : Nat → World → Op → Prop} {sm : StateMachine} {key : SessionKey}
    (st : Hosts) (m : StepMemory) (p : StepThread)
    (h : Stepping sm key (m, p)) :
    p.Sat ownMemory (execAt C) (factOk (execAt C) sm key) (fun _ _ => True)
      (fun s r => Ended s.2 r) (st, m) := by
  cases h with
  | intro q hq =>
      rw [← hq]
      exact q.step_sat st

/-- **NO STEP IS LOST** in any interleaving whose operations are all on top: every
    step that returned has its commit, and commits chain. -/
theorem steps_chain {sm : StateMachine} {key : SessionKey} {c : StepSystem}
    (hr : Pool.Reach (execAt OnTop) (Stepping sm key) ⟨.empty, []⟩ c) :
    NoLostStep c.store.commits ∧ ∀ (j : Nat) (m : StepMemory)
      (p : StepThread) (v : Json × NodeOutputs),
      c.threads[j]? = some (some (m, p)) → p.outcome? = some (.ok v) →
        ∃ d ∈ c.store.commits, CommittedBy sm m d := by
  obtain ⟨hinv, hthreads⟩ := hr.memories (P := RaceInv sm key) Stepping.sat
    (by
      intro st ms m p hi hn
      refine ⟨hi.keyed, hi.last, hi.chain, ?_⟩
      intro i n hin
      rcases List.mem_append.mp (List.mem_of_getElem? hin) with hold | hnew
      · obtain ⟨k, hk⟩ := List.getElem?_of_mem hold
        exact hi.threads k n hk
      · cases List.mem_singleton.mp hnew
        cases hn with
        | intro q hq =>
            refine ⟨?_, ?_, ?_⟩
            · intro b hb
              exact nomatch hb
            · intro b hb
              exact nomatch hb
            · intro hb
              exact nomatch hb)
    (fun st ms j m ev st' m' hi hj hok => hi.step hj hok.1 hok.2)
    (by
      intro st ms j hi
      refine ⟨hi.keyed, hi.last, hi.chain, ?_⟩
      intro i n hin
      rcases List.mem_or_eq_of_mem_set (List.mem_of_getElem? hin) with hold | hnew
      · obtain ⟨k, hk⟩ := List.getElem?_of_mem hold
        exact hi.threads k n hk
      · exact nomatch hnew)
    (by
      refine ⟨?_, rfl, ?_, ?_⟩
      · intro e he
        exact nomatch he
      · intro pre d post heq
        exact absurd heq.symm (List.append_ne_nil_of_right_ne_nil _ (List.cons_ne_nil _ _))
      · intro i n hin
        exact nomatch hin)
  refine ⟨hinv.chain, ?_⟩
  intro j m p v hj hv
  have hended : Ended m (.ok v) := (hthreads j m p hj).result ownMemory_refl hv
  exact (hinv.threads j m (Pool.memories_get hj)).commit hended

/-! ## Two first messages -/

/-- A thread of a reachable system moves on, at time 0, while the others wait. -/
theorem reach_stepping {C : Nat → World → Op → Prop} {sm : StateMachine} {key : SessionKey}
    {st : Hosts} {ts : List (Option (StepMemory × StepThread))}
    (h : Pool.Reach (execAt C) (Stepping sm key) ⟨.empty, []⟩ ⟨st, ts⟩) (j : Nat) {m : StepMemory}
    {p : StepThread}
    (hj : ts[j]? = some (some (m, p))) (hs : st.clock = 0)
    (adapter : AdapterCall → Except RunnerError (Json × NodeOutputs)) (n : Nat)
    (hC : PlayMeets (fun i s => C 0 s i) (stepping adapter n) (p, (st, m))) :
    Pool.Reach (execAt C) (Stepping sm key) ⟨.empty, []⟩
      ⟨(play (stepping adapter n) (p, (st, m))).2.1,
        ts.set j (some ((play (stepping adapter n) (p, (st, m))).2.2,
          (play (stepping adapter n) (p, (st, m))).1))⟩ := by
  obtain ⟨es, hrun⟩ := stepping_run adapter n p (st, m) hs hC
  exact h.run hj hrun

/-- The step of the ticket request. -/
def ticketStep : StepThread :=
  Main.lift (ticketRequest.step twoCalls)

/-- The system before any step. -/
theorem ticket_reach (C : Nat → World → Op → Prop) :
    Pool.Reach (execAt C) (Stepping twoCalls ticketRequest.key) ⟨.empty, []⟩ ⟨.empty, []⟩ := .refl

theorem ticket_stepping : Stepping twoCalls ticketRequest.key (.fresh, ticketStep) :=
  .intro ticketRequest rfl

/-- **THE SECOND `put` OVERWRITES THE FIRST**: one step loads, another one runs to its
    end, the first one goes on; both return, and both were computed from no session. -/
theorem twoFirsts_lose_one :
    ∃ c : StepSystem, Pool.Reach (execAt Kept) (Stepping twoCalls ticketRequest.key) ⟨.empty, []⟩ c ∧
      (∀ t ∈ c.threads, ∃ m p v, t = some (m, p) ∧ p.outcome? = some (.ok v)) ∧
      ¬ NoLostStep c.store.commits := by
  have hkept : ∀ (n : Nat) (x : StepThread × World),
      PlayMeets (fun i s => Kept 0 s i) (stepping (crmAndMail true) n) x :=
    fun n x => playMeets_of_forall (fun i s => kept_zero s i) _ _
  have h0 := (ticket_reach Kept).spawned ticket_stepping
  have h1 := reach_stepping h0 0 rfl rfl (crmAndMail true) 1 (hkept _ _)
  have h2 := reach_stepping (h1.spawned ticket_stepping) 1 rfl rfl (crmAndMail true) 9 (hkept _ _)
  have h3 := reach_stepping h2 0 rfl rfl (crmAndMail true) 8 (hkept _ _)
  refine ⟨_, h3, ?_, ?_⟩
  · intro t ht
    rcases List.mem_cons.mp ht with rfl | ht
    · exact ⟨_, _, _, rfl, rfl⟩
    · rw [List.mem_singleton.mp ht]
      exact ⟨_, _, _, rfl, rfl⟩
  · intro hchain
    have hbase := hchain [_] _ [] rfl
    exact nomatch hbase

/-- One step after another: the second commits on top of the first. -/
theorem twoSteps_chain :
    ∃ c : StepSystem, Pool.Reach (execAt OnTop) (Stepping twoCalls ticketRequest.key) ⟨.empty, []⟩ c ∧
      c.store.commits.length = 2 ∧ NoLostStep c.store.commits := by
  have h0 := (ticket_reach OnTop).spawned ticket_stepping
  have h1 := reach_stepping h0 0 rfl rfl (crmAndMail true) 9
    (playMeets_and (fun i s => kept_zero s i) _ _
      ⟨trivial, trivial, trivial, trivial, trivial, trivial, trivial, trivial, rfl, trivial⟩)
  have h2 := reach_stepping (h1.spawned ticket_stepping) 1 rfl rfl (crmAndMail true) 3
    (playMeets_and (fun i s => kept_zero s i) _ _
      ⟨trivial, trivial, (by decide : (0 : Nat) < 2 ^ 64 - 1), trivial⟩)
  exact ⟨_, h2, rfl, (steps_chain h2).1⟩

end Greentic.Engine
