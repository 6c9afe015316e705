import GreenticRunner.GraphApprovalProofs

/-! # Duplicate calls

    Two calls on one run each keep their own cursor and overwrite the whole record;
    what makes them agree is the insert-if-absent ledger.  From a stored record
    there is ONE line of trunk positions over the rows that end up in the ledger,
    and every call on the record is somewhere on it.

    * `lineTrack` — the line of positions from a point;
    * `duplicate_calls_converge` — calls that succeed end at the same point. -/

namespace Greentic

open FinMaps CountedPath Resumption

/-- Operations that write the record. -/
def Op.isSave : Op → Bool
  | .save _ | .checkpointFrontier _ | .saveSlot _ _ _ => true
  | _ => false

/-- The last write of the record in a history. -/
def lastSave (h : History) : Option (Event Op Op.Res) :=
  (h.reverse.find? fun e => e.2.1.isSave).map (·.2)

theorem lastSave_of_last {h : History} {st : RunStore} {rec : GraphRunRecord}
    (hl : h.getLast? = some (st, ⟨.save rec, .ok ()⟩)) : lastSave h = some ⟨.save rec, .ok ()⟩ := by
  obtain ⟨h', rfl⟩ := List.getLast?_eq_some_iff.mp hl
  rw [lastSave, List.reverse_append]
  rfl

/-! ## Tracks -/

/-- Nothing is asked of positions and rows. -/
def anyTrack (run : RunRef) (cfg : GraphConfig) (C : Closures) : Track run cfg C where
  Tracked := True
  Present := False
  Good := fun _ => True
  On := fun _ _ => True
  Start := fun _ => True
  mono := fun _ _ => trivial
  start := fun _ => trivial
  step := fun _ _ _ => trivial
  write := fun _ _ _ _ _ _ _ => trivial

/-- The line of trunk positions from `X`, on a run whose record is stored. -/
def lineTrack (run : RunRef) (cfg : GraphConfig) (C : Closures) (X : Point) : Track run cfg C where
  Tracked := True
  Present := True
  Good := fun _ => True
  On := fun L pt => ∃ k, Steps (TrunkStep cfg (rowAt L)) X k pt
  Start := fun _ => False
  mono := by
    intro L L' pt hL h
    obtain ⟨k, hp⟩ := h
    exact ⟨k, hp.mono fun _ _ => TrunkStep.mono hL.oracle⟩
  start := fun h => h.elim
  step := by
    intro L pt pt' _ h hs
    obtain ⟨k, hp⟩ := h
    exact ⟨k + 1, hp.tail hs⟩
  write := fun _ _ _ _ _ _ _ => trivial

section Lines

variable {run : RunRef} {cfg : GraphConfig} {C : Closures} {L : Ledger}

/-- Every record a run leaves is on the line from some point. -/
theorem RecordOk.on_line {rec : GraphRunRecord} (h : RecordOk (anyTrack run cfg C) L rec)
    (C' : Closures) :
    ∃ X, RecordOk (lineTrack run cfg C' X) L rec := by
  obtain ⟨h1, h2, h3⟩ := h
  cases hst : rec.status with
  | succeeded =>
      rw [hst] at h3
      obtain ⟨F, -, hF, hrec⟩ := h3
      refine ⟨F, h1, h2, ?_⟩
      rw [hst]
      exact ⟨F, ⟨0, .refl⟩, hF, hrec⟩
  | failed =>
      rw [hst] at h3
      -- a run that used up its steps is on the line from where it started
      rcases h3.2 with ⟨X, k, -, hp, hk⟩ | hover
      · refine ⟨X, h1, h2, ?_⟩
        rw [hst]
        exact ⟨⟨k, hp⟩, Or.inl ⟨X, k, ⟨0, .refl⟩, hp, hk⟩⟩
      · refine ⟨rec.point, h1, h2, ?_⟩
        rw [hst]
        exact ⟨⟨0, .refl⟩, Or.inr hover⟩
  | running =>
      rw [hst] at h3
      refine ⟨rec.point, h1, h2, ?_⟩
      rw [hst]
      exact ⟨⟨0, .refl⟩, fun fr hfr => ⟨rfl, (h3.2 fr hfr).2⟩⟩
  | awaitingInput =>
      rw [hst] at h3
      refine ⟨rec.point, h1, h2, ?_⟩
      rw [hst]
      exact ⟨⟨0, .refl⟩, fun fr hfr => (nomatch (h3.2 fr hfr).1)⟩

/-- The line has one end. -/
theorem line_end {X F F' : Point} (hF : AtRespond cfg F) (hF' : AtRespond cfg F')
    (h : (lineTrack run cfg C X).On L F) (h' : (lineTrack run cfg C X).On L F') : F = F' := by
  obtain ⟨k, hp⟩ := h
  obtain ⟨k', hp'⟩ := h'
  obtain ⟨n, hn, hk⟩ := hF
  obtain ⟨n', hn', hk'⟩ := hF'
  exact (Steps.end_unique (TrunkStep.det cfg (rowAt L)) hp hp' (trunk_end_respond hn hk)
    (trunk_end_respond hn' hk')).2

end Lines

/-- The call's last write of the record was `rec`, or it wrote nothing and found
    `rec` stored. -/
def LeftWith (h : History) (rec : GraphRunRecord) : Prop :=
  lastSave h = some ⟨.save rec, .ok ()⟩ ∨
    (lastSave h = none ∧ loadedRecord h = some (some rec))

/-- A call that succeeds ends at a respond node on the track, and leaves its final
    record. -/
theorem Setup.CallVerdict.success {S : Setup} {s : World} {o : GraphRunOutcome}
    (h : S.CallVerdict s (.ok o)) (hs : o.status = .succeeded) :
    ∃ F, S.T.On s.1.ledger F ∧ AtRespond S.cfg F ∧ o.reply = lastAssistantMessage F.state ∧
      LeftWith s.2.history (finalRecord S.run S.cfg F) := by
  rcases h with ⟨hres, -⟩ | ⟨herr, -⟩
  · cases hres with
    | succeeded X k F st trail came hk hF hlast kept =>
        exact ⟨F, came.on, hF, rfl, Or.inl (lastSave_of_last hlast)⟩
    | parked => exact nomatch hs
    | stored st rec trail hh hst hrec =>
        have h3 := hrec.2.2
        have hs' : rec.status = .succeeded := hs
        rw [hs'] at h3
        obtain ⟨F, hF, hat, hrecF⟩ := h3
        refine ⟨F, hF, hat, by rw [hrecF]; rfl, Or.inr ?_⟩
        rw [hh, hrecF]
        exact ⟨rfl, rfl⟩
  · exact nomatch herr

/-- **DUPLICATE CALLS CONVERGE.**  Any calls on a run whose record is stored, in any
    interleaving and with any closures: those that succeed return the same reply
    and leave the same final record, with its messages, `resolved`, `iterations`
    and visit counts. -/
theorem duplicate_calls_converge (run : RunRef) (cfg : GraphConfig) (C C' : Closures)
    (hcfg : cfg.Accepted) (c₀ c : System)
    (hr₀ : Pool.Reach (exec run C) (Call run fun g _ => g = cfg) ⟨.empty, []⟩ c₀)
    (rec : GraphRunRecord) (hrec : c₀.store.record = some rec)
    (hr : Pool.Reach (exec run C') (Call run fun _ _ => True) ⟨c₀.store, []⟩ c)
    (i j : Nat) (m₁ m₂ : CallMemory) (p₁ p₂ : Drive GraphRunOutcome) (o₁ o₂ : GraphRunOutcome)
    (hi : c.threads[i]? = some (some (m₁, p₁))) (hj : c.threads[j]? = some (some (m₂, p₂)))
    (ho₁ : p₁.outcome? = some (.ok o₁)) (ho₂ : p₂.outcome? = some (.ok o₂))
    (hs₁ : o₁.status = .succeeded) (hs₂ : o₂.status = .succeeded) :
    o₁.reply = o₂.reply ∧
      ∃ last : GraphRunRecord, LeftWith m₁.history last ∧ LeftWith m₂.history last := by
  -- the stored record is one a run leaves, so it is on the line from some point
  let S₀ := sharedSetup hcfg (anyTrack run cfg C)
  have hS₀ : S₀.Serves fun g _ => g = cfg := ⟨trivial, fun g _ hg => Or.inr ⟨hg, trivial⟩⟩
  have hst₀ : StoreOk S₀.T RunStore.empty :=
    ⟨trivial, fun _ _ h => (nomatch h), fun h => h.elim⟩
  have hc₀ := (Setup.reach hS₀ id (Setup.systemOk_idle hst₀) hr₀).1
  obtain ⟨X, hX⟩ := (hc₀.1.record trivial rec hrec).on_line C'
  let S := sharedSetup hcfg (lineTrack run cfg C' X)
  have hS : S.Serves fun _ _ => True := ⟨trivial, fun _ _ _ => Or.inl trivial⟩
  have hst : StoreOk S.T c₀.store := by
    refine ⟨trivial, ?_, fun _ => by rw [hrec]; rfl⟩
    intro _ r hr'
    rw [hrec] at hr'
    cases hr'
    exact hX
  have hc := (Setup.reach hS id (Setup.systemOk_idle hst) hr).1
  -- both calls end at the end of the line over the final ledger
  obtain ⟨F₁, hon₁, hF₁, hreply₁, hleft₁⟩ := (hc.outcome hi ho₁).success hs₁
  obtain ⟨F₂, hon₂, hF₂, hreply₂, hleft₂⟩ := (hc.outcome hj ho₂).success hs₂
  have heq : F₁ = F₂ := line_end hF₁ hF₂ hon₁ hon₂
  subst heq
  exact ⟨hreply₁.trans hreply₂.symm, finalRecord run cfg F₁, hleft₁, hleft₂⟩

/-- A gate that was started and crashed after its first checkpoint. -/
def startedGate : Drive GraphRunOutcome × World :=
  play (leftFirst (saying (.decided "yes")) ⟨"t", "r"⟩ 2 0)
    (start ⟨"t", "r"⟩ gate "", (RunStore.empty, CallMemory.fresh))

/-- Two resumes of the gate that load the same record: the first is told `yes`, the
    second `no`, and the second moves only after the first has ended. -/
def twoResumes : Drive GraphRunOutcome × World × Drive GraphRunOutcome × World :=
  let run : RunRef := ⟨"t", "r"⟩
  let yes := leftFirst (saying (.decided "yes")) run
  let no := leftFirst (saying (.decided "no")) run
  let a := play (yes 1 0) (resume run, (startedGate.2.1, CallMemory.fresh))
  let b := play (no 1 0) (resume run, (a.2.1, CallMemory.fresh))
  let a' := play (yes 6 0) (a.1, (b.2.1, a.2.2))
  let b' := play (no 6 0) (b.1, (a'.2.1, b.2.2))
  (a'.1, a'.2, b'.1, b'.2)

/-- Both resumes succeed with the reply and the record of the decision that was
    recorded first. -/
theorem twoResumes_converge :
    ∃ o₁ o₂, twoResumes.1.outcome? = some (.ok o₁) ∧
      twoResumes.2.2.1.outcome? = some (.ok o₂) ∧
      o₁.status = .succeeded ∧ o₂.status = .succeeded ∧ o₁.reply = o₂.reply ∧
      ∃ last : GraphRunRecord, LeftWith twoResumes.2.1.2.history last ∧
        LeftWith twoResumes.2.2.2.2.history last := by
  have hplay : ∀ (f : Effects) (n : Nat), ∀ x ∈ leftFirst f ⟨"t", "r"⟩ n 0, ∀ i s,
      exec ⟨"t", "r"⟩ .arbitrary i s (x.2 i s).1 (x.2 i s).2 :=
    fun f n x hx i s => exec_arbitrary (leftFirst_exec f _ n 0 x hx i s)
  have hnew : Call ⟨"t", "r"⟩ (fun g _ => g = gate) (CallMemory.fresh, start ⟨"t", "r"⟩ gate "") :=
    .start gate "" rfl
  have hagain : Call ⟨"t", "r"⟩ (fun _ _ => True) (CallMemory.fresh, resume ⟨"t", "r"⟩) := .resume
  have hr₀ := Pool.Reach.first .empty hnew (hplay (saying (.decided "yes")) 2)
  have ha := Pool.Reach.first startedGate.2.1 hagain (hplay (saying (.decided "yes")) 1)
  have hb := (ha.spawned hagain).play (j := 1) rfl (hplay (saying (.decided "no")) 1)
  have hr := (hb.play (j := 0) rfl (hplay (saying (.decided "yes")) 6)).play (j := 1) rfl
    (hplay (saying (.decided "no")) 6)
  refine ⟨_, _, rfl, rfl, rfl, rfl, ?_⟩
  exact duplicate_calls_converge ⟨"t", "r"⟩ gate .arbitrary .arbitrary rfl _ _ hr₀ _ rfl hr 0 1
    _ _ _ _ _ _ rfl rfl rfl rfl rfl rfl

end Greentic
