import GreenticRunner.StepRaceProofs

/-! # The state host beside the session host

    A step writes the state host first and the session host second, and the second
    write may be refused.

    * `failed_step_changes_nothing` — what holds whenever every operation is `Alone`;
    * `twoReplies_disagree` — two steps that loaded the same revision. -/

namespace Greentic.Engine

open FinMaps Resumption

/-- A step between its state write and its commit. -/
def Between (m : StepMemory) : Prop := m.stateSet.isSome ∧ m.committed = false

/-- The revision a compare-and-swap will expect is the stored one. -/
def RevisionStored (key : SessionKey) (h : Hosts) (m : StepMemory) : Prop :=
  ∀ b, m.loaded = some (some b) → b.isNew = false → ∃ e, h.sessions key = some e ∧
    e.cas = b.revision

/-- No step writes its state while another one is between its writes (one that was
    killed there stays there), nor when its compare-and-swap is going to fail. -/
def Alone (t : Nat) (s : World) (i : Op) : Prop :=
  Kept t s i ∧ match i with
    | .setJson key _ => s.1.writing = 0 ∧ RevisionStored key s.1 s.2
    | _ => True

/-! ## The invariant -/

/-- What is known of one step. -/
structure StateThread (key : SessionKey) (h : Hosts) (m : StepMemory) : Prop where
  under : ∀ b, m.loaded = some b → baseKey key b = key
  unrefused : ∀ ev ∈ m.history, ¬ Refused ev
  between : Between m → h.writing = 1 ∧ h.states key.keyOf = m.stateSet ∧ RevisionStored key h m

/-- At most one step is between its writes; when none is, the hosts agree. -/
structure StateInv (key : SessionKey) (h : Hosts) (ms : List (Option StepMemory)) : Prop where
  keyed : ∀ e, h.sessions key = some e → e.snapshot.key = key
  agree : h.writing = 0 → h.states key.keyOf = (lastCommit h.commits).map (·.state)
  owner : ∃ o : Option Nat, ∀ (i : Nat) (m : StepMemory), ms[i]? = some (some m) → Between m →
    o = some i
  threads : ∀ (i : Nat) (m : StepMemory), ms[i]? = some (some m) → StateThread key h m

section State

variable {sm : StateMachine} {key : SessionKey} {h h' : Hosts} {ms : List (Option StepMemory)}
  {j : Nat} {m m' : StepMemory}

/-- A memory of the list after one of them changed. -/
theorem set_cases {i : Nat} {n : StepMemory} (hi : (ms.set j (some m'))[i]? = some (some n)) :
    i = j ∧ n = m' ∨ i ≠ j ∧ ms[i]? = some (some n) := by
  by_cases hij : i = j
  · subst hij
    have hlen := (List.getElem?_eq_some_iff.mp hi).1
    rw [List.length_set] at hlen
    rw [List.getElem?_set_self hlen] at hi
    exact Or.inl ⟨rfl, (Option.some.inj (Option.some.inj hi)).symm⟩
  · rw [List.getElem?_set_ne (Ne.symm hij)] at hi
    exact Or.inr ⟨hij, hi⟩

/-- An operation of a step that has written nothing yet. -/
theorem StateInv.frame (hi : StateInv key h ms) (hj : ms[j]? = some (some m))
    (h1 : h'.sessions = h.sessions) (h2 : h'.states = h.states) (h3 : h'.commits = h.commits)
    (h4 : h'.writing = h.writing) (h5 : m'.stateSet = none) {ev : Event Op Op.Res}
    (h6 : m'.history = m.history ++ [ev]) (hev : ¬ Refused ev)
    (h7 : ∀ b, m'.loaded = some b → baseKey key b = key) : StateInv key h' (ms.set j (some m')) := by
  have hnot : ¬ Between m' := by
    intro hb
    rw [Between, h5] at hb
    exact nomatch hb.1
  refine ⟨by rw [h1]; exact hi.keyed, by rw [h2, h3, h4]; exact hi.agree, ?_, ?_⟩
  · obtain ⟨o, ho⟩ := hi.owner
    refine ⟨o, fun i n hin hb => ?_⟩
    rcases set_cases hin with ⟨-, rfl⟩ | ⟨-, hold⟩
    · exact absurd hb hnot
    · exact ho i n hold hb
  · intro i n hin
    rcases set_cases hin with ⟨-, rfl⟩ | ⟨-, hold⟩
    · refine ⟨h7, ?_, fun hb => absurd hb hnot⟩
      intro e he
      rw [h6] at he
      rcases List.mem_append.mp he with hold | hnew
      · exact (hi.threads j m hj).unrefused e hold
      · rw [List.mem_singleton.mp hnew]
        exact hev
    · have ht := hi.threads i n hold
      refine ⟨ht.under, ht.unrefused, fun hb => ?_⟩
      obtain ⟨hw, hs, hrev⟩ := ht.between hb
      refine ⟨h4.trans hw, by rw [h2]; exact hs, ?_⟩
      intro b hl hnew
      rw [h1]
      exact hrev b hl hnew

/-- A step writes its state while no other one is between its writes. -/
theorem StateInv.write (hi : StateInv key h ms) (hj : ms[j]? = some (some m))
    (hidle : h.writing = 0) (hrev : RevisionStored key h m) {v : Json}
    (h1 : h'.sessions = h.sessions) (h2 : h'.states key.keyOf = some v)
    (h4 : h'.writing = h.writing + 1) (h5 : m'.stateSet = some v) (h6 : m'.loaded = m.loaded)
    {ev : Event Op Op.Res} (h7 : m'.history = m.history ++ [ev]) (hev : ¬ Refused ev) :
    StateInv key h' (ms.set j (some m')) := by
  have hnot : ∀ (i : Nat) (n : StepMemory), ms[i]? = some (some n) → ¬ Between n := by
    intro i n hin hb
    have hw := ((hi.threads i n hin).between hb).1
    rw [hidle] at hw
    exact nomatch hw
  refine ⟨by rw [h1]; exact hi.keyed, ?_, ⟨some j, ?_⟩, ?_⟩
  · intro hw
    rw [h4] at hw
    exact nomatch hw
  · intro i n hin hb
    rcases set_cases hin with ⟨rfl, -⟩ | ⟨-, hold⟩
    · rfl
    · exact absurd hb (hnot i n hold)
  · intro i n hin
    rcases set_cases hin with ⟨-, rfl⟩ | ⟨-, hold⟩
    · have ht := hi.threads j m hj
      refine ⟨by rw [h6]; exact ht.under, ?_, fun _ => ⟨by rw [h4, hidle], by rw [h2, h5], ?_⟩⟩
      · intro e he
        rw [h7] at he
        rcases List.mem_append.mp he with hold | hnew
        · exact ht.unrefused e hold
        · rw [List.mem_singleton.mp hnew]
          exact hev
      · intro b hl hnew
        rw [h6] at hl
        rw [h1]
        exact hrev b hl hnew
    · have ht := hi.threads i n hold
      exact ⟨ht.under, ht.unrefused, fun hb => absurd hb (hnot i n hold)⟩

/-- The commit of the one step that is between its writes. -/
theorem StateInv.commit (hi : StateInv key h ms) (hj : ms[j]? = some (some m)) (hb : Between m)
    {session : SessionSnapshot} (hset : m.stateSet = some session.state)
    (hsk : session.key = key) {b : Option SessionSnapshot} {e : SessionEntry}
    (hkey : e.snapshot.key = session.key) (hstate : e.snapshot.state = session.state)
    (h1 : h'.sessions = (h.store b e).sessions) (h2 : h'.states = h.states)
    (h3 : h'.commits = (h.store b e).commits)
    (h4 : m'.committed = true) (h5 : m'.loaded = m.loaded) {a : Event Op Op.Res}
    (h6 : m'.history = m.history ++ [a]) (hev : ¬ Refused a) :
    StateInv key h' (ms.set j (some m')) := by
  have ht := hi.threads j m hj
  obtain ⟨hw, hs, -⟩ := ht.between hb
  have hnot' : ¬ Between m' := by
    intro hb'
    rw [Between, h4] at hb'
    exact nomatch hb'.2
  -- nobody else is between its writes
  have hnot : ∀ (i : Nat) (n : StepMemory), i ≠ j → ms[i]? = some (some n) → ¬ Between n := by
    intro i n hij hin hbn
    obtain ⟨o, ho⟩ := hi.owner
    have h₁ := ho i n hin hbn
    have h₂ := ho j m hj hb
    rw [h₁] at h₂
    exact hij (Option.some.inj h₂)
  have hcs : h'.commits = h.commits ++ [⟨b, e.snapshot⟩] := h3
  refine ⟨?_, ?_, ⟨none, ?_⟩, ?_⟩
  · intro e' he'
    have hsess : h'.sessions key = some e := by
      rw [h1]
      show Function.update h.sessions e.snapshot.key (some e) key = some e
      rw [hkey, hsk, Function.update_self]
    rw [hsess] at he'
    cases he'
    exact hkey.trans hsk
  · intro _
    rw [h2, hs, hset, hcs, lastCommit_concat, ← hstate]
    rfl
  · intro i n hin hbn
    rcases set_cases hin with ⟨-, rfl⟩ | ⟨hij, hold⟩
    · exact absurd hbn hnot'
    · exact absurd hbn (hnot i n hij hold)
  · intro i n hin
    rcases set_cases hin with ⟨-, rfl⟩ | ⟨hij, hold⟩
    · refine ⟨by rw [h5]; exact ht.under, ?_, fun hbn => absurd hbn hnot'⟩
      intro e he
      rw [h6] at he
      rcases List.mem_append.mp he with hold | hnew
      · exact ht.unrefused e hold
      · rw [List.mem_singleton.mp hnew]
        exact hev
    · have hn := hi.threads i n hold
      exact ⟨hn.under, hn.unrefused, fun hbn => absurd hbn (hnot i n hij hold)⟩

/-- **ONE OPERATION** of one step. -/
theorem StateInv.step (hi : StateInv key h ms) (hj : ms[j]? = some (some m))
    {ev : Event Op Op.Res} (hf : Fact sm key m ev.1)
    (he : execAt Alone ev.1 (h, m) ev.2 (h', m')) : StateInv key h' (ms.set j (some m')) := by
  have ht := hi.threads j m hj
  obtain ⟨i, r⟩ := ev
  obtain ⟨t, -, ⟨hkept, halone⟩, ha, heq⟩ := he
  have hh : h' = { effect t (h, m) i with clock := t } := congrArg Prod.fst heq
  have hm : m' = m.remember i r := congrArg Prod.snd heq
  subst hh hm
  cases i with
  | get k =>
      obtain ⟨hk, hfresh⟩ : k = key ∧ m = .fresh := hf
      subst hk
      have hlive : h.live t k = h.sessions k := hkept k rfl
      cases ha
      refine hi.frame hj ?_ rfl rfl rfl (by rw [hfresh]; rfl) rfl (fun hr => hr) ?_
      · show Function.update h.sessions k (h.live t k) = h.sessions
        rw [hlive, Function.update_eq_self]
      · intro b hb
        have hb' : b = (h.sessions k).map SessionEntry.loaded := by
          rw [← hlive]
          exact (Option.some.inj hb).symm
        rw [hb']
        cases hs : h.sessions k with
        | none => rfl
        | some e => exact hi.keyed e hs
  | put session =>
      obtain ⟨hset, base, hw, -⟩ := hf
      cases ha
      exact hi.commit hj ⟨by rw [hset]; rfl, hw.uncommitted⟩ hset
        (hw.key.trans (ht.under base hw.loaded)) (e := putEntry t session) rfl rfl rfl rfl rfl
        rfl rfl rfl (fun hr => hr)
  | updateCas session expected =>
      obtain ⟨hset, base, hw, hnew, hexp⟩ := hf
      cases ha
      have hsk : session.key = key := hw.key.trans (ht.under base hw.loaded)
      have hb : Between m := ⟨by rw [hset]; rfl, hw.uncommitted⟩
      -- the stored revision is the expected one, so the swap succeeds
      have hcas : h.casOk session expected = true := by
        cases base with
        | none => exact nomatch hnew
        | some b =>
            obtain ⟨e, he, hrev⟩ := (ht.between hb).2.2 b hw.loaded hnew
            rw [Hosts.casOk, hsk, he]
            exact decide_eq_true (hrev.trans hexp.symm)
      refine hi.commit hj hb hset hsk (e := casEntry t session expected) rfl rfl
        (b := m.loaded.getD none) ?_ ?_ ?_ ?_ ?_ ?_
        (a := ⟨.updateCas session expected, .ok true⟩) (fun hr => hr)
      · simp [effect, hcas]
      · simp [effect, hcas, Hosts.store]
      · simp [effect, hcas]
      · simp [hcas]
      · simp
      · simp [hcas]
  | setJson k v =>
      obtain ⟨hset, base, session, hw, hk, -⟩ := hf
      cases ha
      have hsk : k = key := hk.trans (hw.key.trans (ht.under base hw.loaded))
      subst hsk
      obtain ⟨hidle, hrev⟩ := halone
      refine hi.write hj hidle hrev rfl ?_ rfl rfl rfl rfl (fun hr => hr)
      show Function.update h.states k.keyOf (some v) k.keyOf = some v
      rw [Function.update_self]
  | emit span fields =>
      exact hi.frame hj rfl rfl rfl rfl hf.1 rfl (fun hr => hr) ht.under
  | generateSessionId =>
      exact hi.frame hj rfl rfl rfl rfl hf.1 rfl (fun hr => hr) ht.under
  | callAdapter seq call =>
      cases r with
      | ok v => exact hi.frame hj rfl rfl rfl rfl hf.1 rfl (fun hr => hr) ht.under
      | error e => exact hi.frame hj rfl rfl rfl rfl hf.1 rfl (fun hr => hr) ht.under

end State

/-! ## All interleavings -/

/-- **A FAILED STEP CHANGES NOTHING** in any interleaving whose operations are all
    `Alone`: it has written neither host; and whenever no step is between its writes
    the state host holds the state of the last commit. -/
theorem failed_step_changes_nothing {sm : StateMachine} {key : SessionKey} {c : StepSystem}
    (hr : Pool.Reach (execAt Alone) (Stepping sm key) ⟨.empty, []⟩ c) :
    (∀ (j : Nat) (m : StepMemory) (p : StepThread)
      (e : RunnerError), c.threads[j]? = some (some (m, p)) → p.outcome? = some (.error e) →
        m.stateSet = none ∧ m.committed = false) ∧
      (c.store.writing = 0 →
        c.store.states key.keyOf = (lastCommit c.store.commits).map (·.state)) := by
  obtain ⟨hinv, hthreads⟩ := hr.memories (P := StateInv key) Stepping.sat
    (by
      intro st ms m p hi hn
      have hcases : ∀ {i : Nat} {n : StepMemory}, (ms ++ [some m])[i]? = some (some n) →
          ms[i]? = some (some n) ∨ n = .fresh := by
        intro i n hin
        rcases Nat.lt_or_ge i ms.length with hlt | hge
        · rw [List.getElem?_append_left hlt] at hin
          exact Or.inl hin
        · rw [List.getElem?_append_right hge] at hin
          cases List.mem_singleton.mp (List.mem_of_getElem? hin)
          cases hn with
          | intro q hq => exact Or.inr rfl
      obtain ⟨o, ho⟩ := hi.owner
      refine ⟨hi.keyed, hi.agree, ⟨o, ?_⟩, ?_⟩
      · intro i n hin hb
        rcases hcases hin with hold | rfl
        · exact ho i n hold hb
        · exact nomatch hb.1
      · intro i n hin
        rcases hcases hin with hold | rfl
        · exact hi.threads i n hold
        · refine ⟨?_, ?_, ?_⟩
          · intro b hb
            exact nomatch hb
          · intro ev hev
            exact nomatch hev
          · intro hb
            exact nomatch hb.1)
    (fun st ms j m ev st' m' hi hj hok => hi.step hj hok.1 hok.2)
    (by
      intro st ms j hi
      have hcases : ∀ {i : Nat} {n : StepMemory}, (ms.set j none)[i]? = some (some n) →
          ms[i]? = some (some n) := by
        intro i n hin
        by_cases hij : i = j
        · subst hij
          have hlen := (List.getElem?_eq_some_iff.mp hin).1
          rw [List.length_set] at hlen
          rw [List.getElem?_set_self hlen] at hin
          exact nomatch hin
        · rw [List.getElem?_set_ne (Ne.symm hij)] at hin
          exact hin
      obtain ⟨o, ho⟩ := hi.owner
      exact ⟨hi.keyed, hi.agree, ⟨o, fun i n hin hb => ho i n (hcases hin) hb⟩,
        fun i n hin => hi.threads i n (hcases hin)⟩)
    (by
      refine ⟨?_, fun _ => rfl, ⟨none, ?_⟩, ?_⟩
      · intro e he
        exact nomatch he
      · intro i n hin
        exact nomatch hin
      · intro i n hin
        exact nomatch hin)
  refine ⟨?_, hinv.agree⟩
  intro j m p e hj he
  have hended : Ended m (.error e) := (hthreads j m p hj).result ownMemory_refl he
  obtain ⟨hu, hnone | ⟨ev, hlast, href⟩⟩ := hended
  · exact ⟨hnone, hu⟩
  · have hmem := List.mem_of_getLast? hlast
    exact absurd href ((hinv.threads j m (Pool.memories_get hj)).unrefused ev hmem)

/-! ## Two replies to one message -/

/-- A second message of the ticket session. -/
def ticketAgain : Request := { ticketRequest with input := .str "again" }

theorem ticketAgain_stepping :
    Stepping twoCalls ticketRequest.key (.fresh, Main.lift (ticketAgain.step twoCalls)) :=
  .intro ticketAgain rfl

/-- **THE REFUSED STEP HAS WRITTEN ITS STATE**: of two steps that loaded the same
    revision the slower one fails at its compare-and-swap, all steps are done, and the
    state host holds the state of the one that failed. -/
theorem twoReplies_disagree :
    ∃ c : StepSystem, Pool.Reach (execAt Kept) (Stepping twoCalls ticketRequest.key) ⟨.empty, []⟩ c ∧
      (∀ t ∈ c.threads, ∃ m p r, t = some (m, p) ∧ p.outcome? = some r) ∧
      (∃ (j : Nat) (m : StepMemory) (p : StepThread) (e : RunnerError),
        c.threads[j]? = some (some (m, p)) ∧ p.outcome? = some (.error e) ∧ m.stateSet ≠ none) ∧
      c.store.states ticketRequest.key.keyOf ≠ (lastCommit c.store.commits).map (·.state) := by
  have hkept : ∀ (n : Nat) (x : StepThread × World),
      PlayMeets (fun i s => Kept 0 s i) (stepping (crmAndMail true) n) x :=
    fun n x => playMeets_of_forall (fun i s => kept_zero s i) _ _
  have h0 := (ticket_reach Kept).spawned ticket_stepping
  have h1 := reach_stepping h0 0 rfl rfl (crmAndMail true) 9 (hkept _ _)
  have h2 := reach_stepping (h1.spawned ticket_stepping) 1 rfl rfl (crmAndMail true) 1 (hkept _ _)
  have h3 := reach_stepping (h2.spawned ticketAgain_stepping) 2 rfl rfl (crmAndMail true) 3
    (hkept _ _)
  have h4 := reach_stepping h3 1 rfl rfl (crmAndMail true) 2 (hkept _ _)
  refine ⟨_, h4, ?_, ⟨1, _, _, _, rfl, rfl, ?_⟩, ?_⟩
  · intro t ht
    rcases List.mem_cons.mp ht with rfl | ht
    · exact ⟨_, _, _, rfl, rfl⟩
    · rcases List.mem_cons.mp ht with rfl | ht
      · exact ⟨_, _, _, rfl, rfl⟩
      · rw [List.mem_singleton.mp ht]
        exact ⟨_, _, _, rfl, rfl⟩
  · intro hnone
    exact nomatch hnone
  · intro heq
    have hinput := congrArg (fun s : Option Json => (s.bind (·.get? "last_input")).map (·.isNull)) heq
    exact nomatch hinput

/-- One step after another: the hosts agree. -/
theorem oneByOne_agree :
    ∃ c : StepSystem, Pool.Reach (execAt Alone) (Stepping twoCalls ticketRequest.key) ⟨.empty, []⟩ c ∧
      c.store.commits.length = 2 ∧ c.store.writing = 0 ∧
      c.store.states ticketRequest.key.keyOf = (lastCommit c.store.commits).map (·.state) := by
  have h0 := (ticket_reach Alone).spawned ticket_stepping
  have h1 := reach_stepping h0 0 rfl rfl (crmAndMail true) 9
    (playMeets_and (fun i s => kept_zero s i) _ _
      ⟨trivial, trivial, trivial, trivial, trivial, trivial, trivial,
        ⟨rfl, fun b hb => nomatch hb⟩, trivial, trivial⟩)
  have h2 := reach_stepping (h1.spawned ticketAgain_stepping) 1 rfl rfl (crmAndMail true) 3
    (playMeets_and (fun i s => kept_zero s i) _ _
      ⟨trivial, ⟨rfl, fun b hb _ => ⟨_, rfl, by cases hb; rfl⟩⟩, trivial, trivial⟩)
  exact ⟨_, h2, rfl, rfl, (failed_step_changes_nothing h2).2 rfl⟩

end Greentic.Engine
