import GreenticRunner.KeyModel

/-! # When two keys are the same

    Every key is `aw:`, two segments without a separator, and a rest.  Except for the
    tool ledger the rest ends in a last segment without a separator, so two such keys
    are equal segment by segment; the ledger key ends in a call id that may hold
    anything.

    * `Alias` — the pairs of objects that share a key;
    * `keys_differ_iff` — two different objects have different keys exactly when they
      are no such pair;
    * `dispatch_is_session` — a tenant named `dispatch`. -/

namespace Greentic.Aw

open Segments

/-! ## The shape of a key -/

/-- `aw:`. -/
def awWord : List Char := ['a', 'w', ':']

/-- `dispatch`. -/
def dispatchWord : List Char := ['d', 'i', 's', 'p', 'a', 't', 'c', 'h']

/-- `state`. -/
def stateWord : List Char := ['s', 't', 'a', 't', 'e']

/-- `lock`. -/
def lockWord : List Char := ['l', 'o', 'c', 'k']

/-- `tool_calls`. -/
def toolCallsWord : List Char := ['t', 'o', 'o', 'l', '_', 'c', 'a', 'l', 'l', 's']

/-- `cost:tokens`. -/
def tokensWord : List Char := ['c', 'o', 's', 't', ':', 't', 'o', 'k', 'e', 'n', 's']

/-- `graph`. -/
def graphWord : List Char := ['g', 'r', 'a', 'p', 'h']

/-- `graph:visit`. -/
def visitWord : List Char := ['g', 'r', 'a', 'p', 'h', ':', 'v', 'i', 's', 'i', 't']

/-- The byte length of an id, in decimal. -/
def lenDigits (s : String) : List Char := Nat.toDigits 10 s.utf8ByteSize

/-- An id behind its length. -/
def lenPrefixed (s : String) : List Char := lenDigits s ++ '.' :: s.toList

namespace KeyObject

/-- The first segment after `aw:`. -/
def slot : KeyObject → List Char
  | dispatch _ _ => dispatchWord
  | state t _ | lock t _ | toolCall t _ _ | tokens t _ | run t _ | visit t _ _ _ =>
      t.tenantId.toList

/-- The second segment. -/
def subslot : KeyObject → List Char
  | dispatch t _ => t.tenantId.toList
  | state t _ | lock t _ | toolCall t _ _ | tokens t _ | run t _ | visit t _ _ _ => t.envId.toList

/-- What follows the two segments. -/
def rest : KeyObject → List Char
  | state _ s => s.toList ++ ':' :: stateWord
  | lock _ s => s.toList ++ ':' :: lockWord
  | toolCall _ s c =>
      (lenPrefixed s ++ ':' :: toolCallsWord) ++ ':' :: lenPrefixed c
  | tokens _ d => tokensWord ++ ':' :: d.toList
  | run _ r => r.toList ++ ':' :: graphWord
  | visit _ r n a =>
      (r.toList ++ ':' :: (visitWord ++ ':' :: n.toList)) ++ ':' :: Nat.toDigits 10 a
  | dispatch t i => t.envId.toList ++ ':' :: i.toList

end KeyObject

theorem dispatch_key? {t : TenantContext} {i : String}
    (h : (serveLedgerKey t.tenantId t.envId (some i)).isSome) :
    (KeyObject.dispatch t i).key? =
      some (dispatchKey (t.tenantId ++ ":" ++ t.envId ++ ":" ++ i)) := by
  simp only [KeyObject.key?, serveLedgerKey] at h ⊢
  by_cases hi : validDispatchId i = true
  · simp [Option.filter, hi]
  · simp [Option.filter, hi] at h

/-- Every key has the shape. -/
theorem key_rest {x : KeyObject} (hx : x.Accepted) : ∃ key, x.key? = some key ∧
    key.toList = awWord ++ (x.slot ++ ':' :: (x.subslot ++ ':' :: x.rest)) := by
  cases x with
  | dispatch t i =>
      refine ⟨_, dispatch_key? hx.2.2, ?_⟩
      simp [dispatchKey, KeyObject.slot, KeyObject.subslot, KeyObject.rest, awWord, dispatchWord]
  | state t s =>
      refine ⟨_, rfl, ?_⟩
      simp [stateKey, TenantContext.keyPrefix, KeyObject.slot, KeyObject.subslot, KeyObject.rest,
        awWord, stateWord]
  | lock t s =>
      refine ⟨_, rfl, ?_⟩
      simp [lockKey, TenantContext.keyPrefix, KeyObject.slot, KeyObject.subslot, KeyObject.rest,
        awWord, lockWord]
  | toolCall t s c =>
      refine ⟨_, rfl, ?_⟩
      simp [toolLedgerKey, TenantContext.keyPrefix, KeyObject.slot, KeyObject.subslot,
        KeyObject.rest, lenPrefixed, lenDigits, awWord, toolCallsWord]
  | tokens t d =>
      refine ⟨_, rfl, ?_⟩
      simp [tokenKey, TenantContext.keyPrefix, KeyObject.slot, KeyObject.subslot, KeyObject.rest,
        awWord, tokensWord]
  | run t r =>
      refine ⟨_, rfl, ?_⟩
      simp [runKey, TenantContext.keyPrefix, KeyObject.slot, KeyObject.subslot, KeyObject.rest,
        awWord, graphWord]
  | visit t r n a =>
      refine ⟨_, rfl, ?_⟩
      simp [visitKey, TenantContext.keyPrefix, KeyObject.slot, KeyObject.subslot, KeyObject.rest,
        awWord, visitWord]

/-! ## Separators -/

/-- An accepted scope id has no separator. -/
theorem scope_no_sep {kind id : String} (h : validateScopeId kind id = .ok ()) :
    ':' ∉ id.toList := by
  intro hc
  have hany : (id.toList.any fun c => c == '/' || c == '\\' || c == ':') = true :=
    List.any_eq_true.mpr ⟨':', hc, rfl⟩
  unfold validateScopeId at h
  rw [hany] at h
  split at h
  · exact nomatch h
  · split at h
    · exact nomatch h
    · exact nomatch h

/-- A well-formed dispatch id has neither separator nor dot. -/
theorem dispatch_no_sep {tenant env i : String} (h : (serveLedgerKey tenant env (some i)).isSome) :
    ':' ∉ i.toList ∧ '.' ∉ i.toList := by
  have hi : validDispatchId i = true := by
    by_contra hi
    simp [serveLedgerKey, Option.filter, hi] at h
  simp only [validDispatchId, Bool.and_eq_true, List.all_eq_true] at hi
  constructor
  · intro hc
    exact absurd (hi.2 ':' hc) (by decide)
  · intro hc
    exact absurd (hi.2 '.' hc) (by decide)

theorem slot_no_sep {x : KeyObject} (hx : x.Accepted) : ':' ∉ x.slot := by
  cases x with
  | dispatch t i => show ':' ∉ dispatchWord; decide
  | _ => exact scope_no_sep hx.1

theorem subslot_no_sep {x : KeyObject} (hx : x.Accepted) : ':' ∉ x.subslot := by
  cases x with
  | dispatch t i => exact scope_no_sep hx.1
  | _ => exact scope_no_sep hx.2.1

/-- Equal keys agree slot by slot. -/
theorem key_eq {x y : KeyObject} (hx : x.Accepted) (hy : y.Accepted) (h : x.key? = y.key?) :
    x.slot = y.slot ∧ x.subslot = y.subslot ∧ x.rest = y.rest := by
  obtain ⟨kx, hkx, hlx⟩ := key_rest hx
  obtain ⟨ky, hky, hly⟩ := key_rest hy
  have hk : kx = ky := by
    rw [hkx, hky] at h
    exact Option.some.inj h
  rw [hk, hly] at hlx
  have hslots := List.append_cancel_left hlx
  obtain ⟨h1, h2⟩ := first_inj (slot_no_sep hy) (slot_no_sep hx) hslots
  obtain ⟨h3, h4⟩ := first_inj (subslot_no_sep hy) (subslot_no_sep hx) h2
  exact ⟨h1.symm, h3.symm, h4.symm⟩

/-- Objects with the same slots and rest have the same key. -/
theorem key_of_rest {x y : KeyObject} (hx : x.Accepted) (hy : y.Accepted) (h1 : x.slot = y.slot)
    (h2 : x.subslot = y.subslot) (h3 : x.rest = y.rest) : x.key? = y.key? := by
  obtain ⟨kx, hkx, hlx⟩ := key_rest hx
  obtain ⟨ky, hky, hly⟩ := key_rest hy
  rw [h1, h2, h3, ← hly] at hlx
  rw [hkx, hky, String.toList_inj.mp hlx]

/-! ## Keys with a last segment -/

/-- What comes before the last segment, and the last segment; the tool ledger has
    none. -/
def KeyObject.lastSplit : KeyObject → Option (List Char × List Char)
  | .state _ s => some (s.toList, stateWord)
  | .lock _ s => some (s.toList, lockWord)
  | .toolCall _ _ _ => none
  | .tokens _ d => some (tokensWord, d.toList)
  | .run _ r => some (r.toList, graphWord)
  | .visit _ r n a =>
      some (r.toList ++ ':' :: (visitWord ++ ':' :: n.toList), Nat.toDigits 10 a)
  | .dispatch t i => some (t.envId.toList, i.toList)

theorem toDigits_isDigit {n : Nat} {c : Char} (h : c ∈ Nat.toDigits 10 n) : c.isDigit = true :=
  Nat.isDigit_of_mem_toDigits (by decide) (by decide) h

/-- A character that is no digit is in no number. -/
theorem not_mem_toDigits {n : Nat} {c : Char} (hc : c.isDigit = false) : c ∉ Nat.toDigits 10 n := by
  intro h
  rw [toDigits_isDigit h] at hc
  exact nomatch hc

theorem toDigits_inj {m n : Nat} (h : Nat.toDigits 10 m = Nat.toDigits 10 n) : m = n := by
  have hval := congrArg (fun l => Nat.ofDigitChars 10 l 0) h
  simpa [Nat.ofDigitChars_ten_toDigits] using hval

/-- The last segment is one: it has neither separator nor dot. -/
theorem lastSplit_spec {x : KeyObject} (hx : x.Accepted) {u l : List Char}
    (h : x.lastSplit = some (u, l)) : x.rest = u ++ ':' :: l ∧ ':' ∉ l ∧ '.' ∉ l := by
  cases x with
  | toolCall t s c => exact nomatch h
  | state t s => cases h; exact ⟨rfl, by decide, by decide⟩
  | lock t s => cases h; exact ⟨rfl, by decide, by decide⟩
  | run t r => cases h; exact ⟨rfl, by decide, by decide⟩
  | tokens t d =>
      cases h
      have hd : ∀ c ∈ d.toList, c.isDigit = true := hx.2.2.2
      refine ⟨rfl, ?_, ?_⟩
      · intro hc
        exact absurd (hd _ hc) (by decide)
      · intro hc
        exact absurd (hd _ hc) (by decide)
  | visit t r n a => cases h; exact ⟨rfl, not_mem_toDigits rfl, not_mem_toDigits rfl⟩
  | dispatch t i =>
      cases h
      have hi := dispatch_no_sep hx.2.2
      exact ⟨rfl, hi.1, hi.2⟩

/-! ## Aliases -/

/-- The pairs of objects that share a key: a dispatch whose id is the last word of a
    session or run key of the tenant `dispatch`, and a tool call whose id ends in the
    last word of a session key. -/
inductive Alias : KeyObject → KeyObject → Prop where
  | stateDispatch (t : TenantContext) :
      Alias (.state ⟨"dispatch", t.tenantId⟩ t.envId) (.dispatch t "state")
  | lockDispatch (t : TenantContext) :
      Alias (.lock ⟨"dispatch", t.tenantId⟩ t.envId) (.dispatch t "lock")
  | runDispatch (t : TenantContext) :
      Alias (.run ⟨"dispatch", t.tenantId⟩ t.envId) (.dispatch t "graph")
  | stateTool (t : TenantContext) (s c s' : String)
      (h : s' = toString s.utf8ByteSize ++ "." ++ s ++ ":tool_calls:" ++
        toString (c ++ ":state").utf8ByteSize ++ "." ++ c) :
      Alias (.state t s') (.toolCall t s (c ++ ":state"))
  | lockTool (t : TenantContext) (s c s' : String)
      (h : s' = toString s.utf8ByteSize ++ "." ++ s ++ ":tool_calls:" ++
        toString (c ++ ":lock").utf8ByteSize ++ "." ++ c) :
      Alias (.lock t s') (.toolCall t s (c ++ ":lock"))
  | symm {x y : KeyObject} (h : Alias x y) : Alias y x

/-- Scopes with the same segments. -/
theorem scope_eq {t t' : TenantContext} (h1 : t.tenantId.toList = t'.tenantId.toList)
    (h2 : t.envId.toList = t'.envId.toList) : t = t' := by
  cases t
  cases t'
  cases String.toList_inj.mp h1
  cases String.toList_inj.mp h2
  rfl

/-- The scope of a dispatch seen from a tenant named `dispatch`. -/
theorem scope_dispatch {t t' : TenantContext} (h1 : t.tenantId.toList = dispatchWord)
    (h2 : t.envId.toList = t'.tenantId.toList) : t = ⟨"dispatch", t'.tenantId⟩ := by
  refine scope_eq (h1.trans ?_) h2
  simp [dispatchWord]

/-- A word with a letter is no number. -/
theorem word_ne_digits {w d : List Char} (hd : ∀ c ∈ d, c.isDigit = true)
    (hw : (w.all Char.isDigit) = false) (h : w = d) : False := by
  rw [h, List.all_eq_false] at hw
  obtain ⟨c, hc, hn⟩ := hw
  exact hn (hd c hc)

section Pairs

variable {x y : KeyObject} (hx : x.Accepted) (hy : y.Accepted)

include hx hy

/-- Keys with a last segment agree before it and in it. -/
theorem split_eq {u l v m : List Char} (hu : x.lastSplit = some (u, l))
    (hv : y.lastSplit = some (v, m)) (h : x.rest = y.rest) : u = v ∧ l = m := by
  obtain ⟨h1, h2, -⟩ := lastSplit_spec hx hu
  obtain ⟨h3, h4, -⟩ := lastSplit_spec hy hv
  rw [h1, h3] at h
  exact last_inj h2 h4 h

end Pairs

/-- The kinds in a fixed order. -/
def KeyObject.rank : KeyObject → Nat
  | .state _ _ => 0
  | .lock _ _ => 1
  | .run _ _ => 2
  | .tokens _ _ => 3
  | .visit _ _ _ _ => 4
  | .dispatch _ _ => 5
  | .toolCall _ _ _ => 6

/-- Two keys with a last segment are equal only for the same object or an alias. -/
theorem simple_alias {x y : KeyObject} (hx : x.Accepted) (hy : y.Accepted)
    (hrank : x.rank ≤ y.rank) (hy6 : y.rank < 6) (h1 : x.slot = y.slot)
    (h2 : x.subslot = y.subslot) (h3 : x.rest = y.rest) : x = y ∨ Alias x y := by
  cases x with
  | toolCall t s c => exact absurd (Nat.lt_of_le_of_lt hrank hy6) (by simp [KeyObject.rank])
  | state t s =>
      cases y with
      | toolCall t' s' c' => exact absurd hy6 (by simp [KeyObject.rank])
      | state t' s' =>
          obtain ⟨hs, -⟩ := split_eq hx hy rfl rfl h3
          rw [scope_eq h1 h2, String.toList_inj.mp hs]
          exact Or.inl rfl
      | lock t' s' => exact absurd (split_eq hx hy rfl rfl h3).2 (by decide)
      | run t' r' => exact absurd (split_eq hx hy rfl rfl h3).2 (by decide)
      | tokens t' d' =>
          exact (word_ne_digits hy.2.2.2 (by decide) (split_eq hx hy rfl rfl h3).2).elim
      | visit t' r' n' a' =>
          exact (word_ne_digits (fun _ => toDigits_isDigit) (by decide)
            (split_eq hx hy rfl rfl h3).2).elim
      | dispatch t' i' =>
          obtain ⟨hs, hi⟩ := split_eq hx hy rfl rfl h3
          have hword : "state" = i' := String.toList_inj.mp (by rw [← hi]; simp [stateWord])
          rw [scope_dispatch h1 h2, String.toList_inj.mp hs, ← hword]
          exact Or.inr (.stateDispatch t')
  | lock t s =>
      cases y with
      | toolCall t' s' c' => exact absurd hy6 (by simp [KeyObject.rank])
      | state t' s' => exact absurd (split_eq hx hy rfl rfl h3).2 (by decide)
      | lock t' s' =>
          obtain ⟨hs, -⟩ := split_eq hx hy rfl rfl h3
          rw [scope_eq h1 h2, String.toList_inj.mp hs]
          exact Or.inl rfl
      | run t' r' => exact absurd (split_eq hx hy rfl rfl h3).2 (by decide)
      | tokens t' d' =>
          exact (word_ne_digits hy.2.2.2 (by decide) (split_eq hx hy rfl rfl h3).2).elim
      | visit t' r' n' a' =>
          exact (word_ne_digits (fun _ => toDigits_isDigit) (by decide)
            (split_eq hx hy rfl rfl h3).2).elim
      | dispatch t' i' =>
          obtain ⟨hs, hi⟩ := split_eq hx hy rfl rfl h3
          have hword : "lock" = i' := String.toList_inj.mp (by rw [← hi]; simp [lockWord])
          rw [scope_dispatch h1 h2, String.toList_inj.mp hs, ← hword]
          exact Or.inr (.lockDispatch t')
  | run t r =>
      cases y with
      | toolCall t' s' c' => exact absurd hy6 (by simp [KeyObject.rank])
      | state t' s' => exact absurd (split_eq hx hy rfl rfl h3).2 (by decide)
      | lock t' s' => exact absurd (split_eq hx hy rfl rfl h3).2 (by decide)
      | run t' r' =>
          obtain ⟨hr, -⟩ := split_eq hx hy rfl rfl h3
          rw [scope_eq h1 h2, String.toList_inj.mp hr]
          exact Or.inl rfl
      | tokens t' d' =>
          exact (word_ne_digits hy.2.2.2 (by decide) (split_eq hx hy rfl rfl h3).2).elim
      | visit t' r' n' a' =>
          exact (word_ne_digits (fun _ => toDigits_isDigit) (by decide)
            (split_eq hx hy rfl rfl h3).2).elim
      | dispatch t' i' =>
          obtain ⟨hs, hi⟩ := split_eq hx hy rfl rfl h3
          have hword : "graph" = i' := String.toList_inj.mp (by rw [← hi]; simp [graphWord])
          rw [scope_dispatch h1 h2, String.toList_inj.mp hs, ← hword]
          exact Or.inr (.runDispatch t')
  | tokens t d =>
      cases y with
      | toolCall t' s' c' => exact absurd hy6 (by simp [KeyObject.rank])
      | state t' s' => exact absurd hrank (by simp [KeyObject.rank])
      | lock t' s' => exact absurd hrank (by simp [KeyObject.rank])
      | run t' r' => exact absurd hrank (by simp [KeyObject.rank])
      | tokens t' d' =>
          obtain ⟨-, hd⟩ := split_eq hx hy rfl rfl h3
          rw [scope_eq h1 h2, String.toList_inj.mp hd]
          exact Or.inl rfl
      | visit t' r' n' a' =>
          -- `cost` would hold a separator
          obtain ⟨hu, -⟩ := split_eq hx hy rfl rfl h3
          have hcost : ['c', 'o', 's', 't'] ++ ':' :: ['t', 'o', 'k', 'e', 'n', 's'] =
              (r'.toList ++ ':' :: visitWord) ++ ':' :: n'.toList := by
            rw [List.append_assoc, List.cons_append]
            exact hu
          obtain ⟨hc, -⟩ := last_inj (by decide) hy.2.2.2.1 hcost
          have hmem : ':' ∈ ['c', 'o', 's', 't'] := by
            rw [hc]
            exact List.mem_append_right _ (List.mem_cons_self ..)
          exact absurd hmem (by decide)
      | dispatch t' i' =>
          obtain ⟨hu, -⟩ := split_eq hx hy rfl rfl h3
          have hmem : ':' ∈ t'.envId.toList := by
            rw [← hu]
            decide
          exact absurd hmem (scope_no_sep hy.2.1)
  | visit t r n a =>
      cases y with
      | toolCall t' s' c' => exact absurd hy6 (by simp [KeyObject.rank])
      | state t' s' => exact absurd hrank (by simp [KeyObject.rank])
      | lock t' s' => exact absurd hrank (by simp [KeyObject.rank])
      | run t' r' => exact absurd hrank (by simp [KeyObject.rank])
      | tokens t' d' => exact absurd hrank (by simp [KeyObject.rank])
      | visit t' r' n' a' =>
          obtain ⟨hu, ha⟩ := split_eq hx hy rfl rfl h3
          obtain ⟨hr, hn⟩ := first_inj hx.2.2.1 hy.2.2.1 hu
          have hn' : n.toList = n'.toList :=
            List.tail_eq_of_cons_eq (List.append_cancel_left hn)
          rw [scope_eq h1 h2, String.toList_inj.mp hr, String.toList_inj.mp hn', toDigits_inj ha]
          exact Or.inl rfl
      | dispatch t' i' =>
          obtain ⟨hu, -⟩ := split_eq hx hy rfl rfl h3
          have hmem : ':' ∈ t'.envId.toList := by
            rw [← hu]
            exact List.mem_append_right _ (List.mem_cons_self ..)
          exact absurd hmem (scope_no_sep hy.2.1)
  | dispatch t i =>
      cases y with
      | toolCall t' s' c' => exact absurd hy6 (by simp [KeyObject.rank])
      | state t' s' => exact absurd hrank (by simp [KeyObject.rank])
      | lock t' s' => exact absurd hrank (by simp [KeyObject.rank])
      | run t' r' => exact absurd hrank (by simp [KeyObject.rank])
      | tokens t' d' => exact absurd hrank (by simp [KeyObject.rank])
      | visit t' r' n' a' => exact absurd hrank (by simp [KeyObject.rank])
      | dispatch t' i' =>
          obtain ⟨hu, hi⟩ := split_eq hx hy rfl rfl h3
          rw [scope_eq h2 hu, String.toList_inj.mp hi]
          exact Or.inl rfl

/-! ## The tool ledger -/

/-- A text that starts with digits and a dot. -/
def Dotted (w : List Char) : Prop :=
  ∃ d v, w = d ++ '.' :: v ∧ ∀ c ∈ d, c.isDigit = true

theorem Dotted.dot_mem {w : List Char} (h : Dotted w) : '.' ∈ w := by
  obtain ⟨d, v, rfl, -⟩ := h
  exact List.mem_append_right _ (List.mem_cons_self ..)

/-- What precedes a separator of such a text is such a text. -/
theorem Dotted.before {w z : List Char} (h : Dotted (w ++ ':' :: z)) : Dotted w := by
  obtain ⟨d, v, heq, hd⟩ := h
  rcases List.append_eq_append_iff.mp heq with ⟨u, hu, hw⟩ | ⟨u, hu, hw⟩
  · -- the separator would lie among the digits or be the dot
    cases u with
    | nil => exact absurd (List.head_eq_of_cons_eq hw) (by decide)
    | cons e u =>
        have he : ':' = e := List.head_eq_of_cons_eq hw
        subst he
        have hmem : ':' ∈ d := by
          rw [hu]
          exact List.mem_append_right _ (List.mem_cons_self ..)
        exact absurd (hd _ hmem) (by decide)
  · cases u with
    | nil => exact absurd (List.head_eq_of_cons_eq hw) (by decide)
    | cons e u =>
        have he : '.' = e := List.head_eq_of_cons_eq hw
        subst he
        exact ⟨d, u, hu, hd⟩

theorem lenPrefixed_dotted (s : String) : Dotted (lenPrefixed s) :=
  ⟨lenDigits s, s.toList, rfl, fun _ => toDigits_isDigit⟩

/-- The last segment of a tool-ledger key lies in the call id. -/
theorem toolCall_last {t : TenantContext} {s c : String} {u l : List Char} (hl : ':' ∉ l)
    (hdot : '.' ∉ l) (h : (KeyObject.toolCall t s c).rest = u ++ ':' :: l) :
    ∃ c' : String, c.toList = c'.toList ++ ':' :: l ∧
      u = (lenPrefixed s ++ ':' :: toolCallsWord) ++ ':' :: (lenDigits c ++ '.' :: c'.toList) := by
  rcases last_cases hl h with ⟨hc, -⟩ | ⟨w, hw, hu⟩
  · have hmem := (lenPrefixed_dotted c).dot_mem
    rw [hc] at hmem
    exact absurd hmem hdot
  · -- the separator lies behind the dot
    have hdotted : Dotted (w ++ ':' :: l) := hw ▸ lenPrefixed_dotted c
    obtain ⟨d, v, rfl, hd⟩ := hdotted.before
    have hno : ∀ {e : List Char}, (∀ c ∈ e, c.isDigit = true) → '.' ∉ e := by
      intro e he hmem
      exact absurd (he _ hmem) (by decide)
    have hsplit : lenDigits c ++ '.' :: c.toList = d ++ '.' :: (v ++ ':' :: l) := by
      rw [← List.cons_append, ← List.append_assoc]
      exact hw
    obtain ⟨h1, h2⟩ := first_inj (hno fun _ => toDigits_isDigit) (hno hd) hsplit
    refine ⟨String.ofList v, by rw [String.toList_ofList]; exact h2, ?_⟩
    rw [hu, String.toList_ofList, ← h1]
    rfl

/-- A text behind its length and a separator, followed by anything. -/
theorem segment_inj {c : Char} (hc : c.isDigit = false) {s s' : String} {x y : List Char}
    (h : lenDigits s ++ c :: (s.toList ++ x) = lenDigits s' ++ c :: (s'.toList ++ y)) :
    s = s' ∧ x = y := by
  have hno : ∀ e : String, c ∉ lenDigits e := fun e => not_mem_toDigits hc
  obtain ⟨h1, h2⟩ := first_inj (hno s) (hno s') h
  have hlen : s.utf8ByteSize = s'.utf8ByteSize := toDigits_inj h1
  -- of two texts of one length at the start of one text neither is longer
  have hnil : ∀ {a b : String} {e : List Char}, a.utf8ByteSize = b.utf8ByteSize →
      a.toList = b.toList ++ e → e = [] := by
    intro a b e hab hae
    have ha : a = b ++ String.ofList e := String.toList_inj.mp (by simp [hae])
    rw [ha, String.utf8ByteSize_append] at hab
    have hzero : (String.ofList e).utf8ByteSize = 0 := by omega
    simpa using String.utf8ByteSize_eq_zero_iff.mp hzero
  rcases List.append_eq_append_iff.mp h2 with ⟨e, he, hx⟩ | ⟨e, he, hy⟩
  · have := hnil hlen.symm he
    subst this
    exact ⟨String.toList_inj.mp (by rw [he, List.append_nil]), hx⟩
  · have := hnil hlen he
    subst this
    exact ⟨String.toList_inj.mp (by rw [he, List.append_nil]), hy.symm⟩

/-- The id of a call behind its length, followed by anything. -/
theorem lenPrefixed_inj {s s' : String} {x y : List Char}
    (h : lenPrefixed s ++ x = lenPrefixed s' ++ y) : s = s' ∧ x = y := by
  have hsplit : lenDigits s ++ '.' :: (s.toList ++ x) = lenDigits s' ++ '.' :: (s'.toList ++ y) := by
    simpa [lenPrefixed] using h
  exact segment_inj rfl hsplit

/-- A tool-ledger key is the key of a session only in the ways of `Alias`, and no key
    of another kind. -/
theorem toolCall_alias {t : TenantContext} {s c : String} {y : KeyObject} (hy : y.Accepted)
    (hy6 : y.rank < 6) (h1 : y.slot = t.tenantId.toList) (h2 : y.subslot = t.envId.toList)
    (h3 : (KeyObject.toolCall t s c).rest = y.rest) : Alias y (.toolCall t s c) := by
  -- everything before the last segment holds a separator
  have hsep : ∀ w : List Char, ':' ∈ (lenPrefixed s ++ ':' :: toolCallsWord) ++ ':' :: w :=
    fun w => List.mem_append_right _ (List.mem_cons_self ..)
  have hsep' : ':' ∈ lenPrefixed s ++ ':' :: toolCallsWord :=
    List.mem_append_right _ (List.mem_cons_self ..)
  have hlast : ∀ {u l}, y.lastSplit = some (u, l) → ∃ c' : String,
      c.toList = c'.toList ++ ':' :: l ∧
        u = (lenPrefixed s ++ ':' :: toolCallsWord) ++ ':' :: (lenDigits c ++ '.' :: c'.toList) := by
    intro u l hu
    obtain ⟨hr, hl, hdot⟩ := lastSplit_spec hy hu
    exact toolCall_last hl hdot (h3.trans hr)
  cases y with
  | toolCall t' s' c' => exact absurd hy6 (by simp [KeyObject.rank])
  | state t' s' =>
      obtain ⟨c', hc, hu⟩ := hlast rfl
      have hcs : c = c' ++ ":state" := String.toList_inj.mp (by simp [hc, stateWord])
      subst hcs
      rw [scope_eq h1 h2]
      refine .stateTool t s c' s' (String.toList_inj.mp ?_)
      simp [hu, lenPrefixed, lenDigits, toolCallsWord]
  | lock t' s' =>
      obtain ⟨c', hc, hu⟩ := hlast rfl
      have hcs : c = c' ++ ":lock" := String.toList_inj.mp (by simp [hc, lockWord])
      subst hcs
      rw [scope_eq h1 h2]
      refine .lockTool t s c' s' (String.toList_inj.mp ?_)
      simp [hu, lenPrefixed, lenDigits, toolCallsWord]
  | run t' r' =>
      obtain ⟨c', -, hu⟩ := hlast rfl
      exact absurd (hu ▸ hsep _) hy.2.2
  | dispatch t' i' =>
      obtain ⟨c', -, hu⟩ := hlast rfl
      exact absurd (hu ▸ hsep _) (scope_no_sep hy.2.1)
  | tokens t' d' =>
      obtain ⟨c', -, hu⟩ := hlast rfl
      have hcost : (lenPrefixed s ++ ':' :: toolCallsWord) ++ ':' :: (lenDigits c ++ '.' :: c'.toList) =
          ['c', 'o', 's', 't'] ++ ':' :: ['t', 'o', 'k', 'e', 'n', 's'] := hu.symm
      rcases last_cases (by decide) hcost with ⟨-, h⟩ | ⟨w, -, h⟩
      · exact absurd (h ▸ hsep') (by decide)
      · exact absurd (h ▸ hsep _) (by decide)
  | visit t' r' n' a' =>
      -- strip the node, `visit` and `graph`; the run id would hold a separator
      obtain ⟨c', -, hu⟩ := hlast rfl
      have hdot : Dotted (lenDigits c ++ '.' :: c'.toList) :=
        ⟨lenDigits c, c'.toList, rfl, fun _ => toDigits_isDigit⟩
      have hnode : (lenPrefixed s ++ ':' :: toolCallsWord) ++ ':' :: (lenDigits c ++ '.' :: c'.toList) =
          (r'.toList ++ ':' :: visitWord) ++ ':' :: n'.toList := by
        rw [← hu, List.append_assoc, List.cons_append]
      rcases last_cases hy.2.2.2.1 hnode with ⟨-, h⟩ | ⟨w, hw, h⟩
      · have hvisit : lenPrefixed s ++ ':' :: toolCallsWord =
            (r'.toList ++ ':' :: graphWord) ++ ':' :: ['v', 'i', 's', 'i', 't'] := by
          rw [h, List.append_assoc, List.cons_append]
          rfl
        exact absurd (last_inj (by decide) (by decide) hvisit).2 (by decide)
      · have hdot' : Dotted w := (hw ▸ hdot).before
        have hvisit : (lenPrefixed s ++ ':' :: toolCallsWord) ++ ':' :: w =
            (r'.toList ++ ':' :: graphWord) ++ ':' :: ['v', 'i', 's', 'i', 't'] := by
          rw [← h, List.append_assoc, List.cons_append]
          rfl
        rcases last_cases (by decide) hvisit with ⟨hw', -⟩ | ⟨w', hw', h'⟩
        · exact absurd (hw' ▸ hdot'.dot_mem) (by decide)
        · have hdot'' : Dotted w' := (hw' ▸ hdot').before
          rcases last_cases (by decide) h'.symm with ⟨hg, -⟩ | ⟨w'', -, hr⟩
          · exact absurd (hg ▸ hdot''.dot_mem) (by decide)
          · exact absurd (hr ▸ hsep _) hy.2.2.1

/-! ## All pairs -/

/-- Aliases have the same key. -/
theorem Alias.same_key {x y : KeyObject} (h : Alias x y) (hx : x.Accepted) (hy : y.Accepted) :
    x.key? = y.key? := by
  induction h with
  | stateDispatch t =>
      refine key_of_rest hx hy ?_ rfl ?_
      · simp [KeyObject.slot, dispatchWord]
      · simp [KeyObject.rest, stateWord]
  | lockDispatch t =>
      refine key_of_rest hx hy ?_ rfl ?_
      · simp [KeyObject.slot, dispatchWord]
      · simp [KeyObject.rest, lockWord]
  | runDispatch t =>
      refine key_of_rest hx hy ?_ rfl ?_
      · simp [KeyObject.slot, dispatchWord]
      · simp [KeyObject.rest, graphWord]
  | stateTool t s c s' h =>
      refine key_of_rest hx hy rfl rfl ?_
      rw [h]
      simp [KeyObject.rest, lenPrefixed, lenDigits, toolCallsWord, stateWord]
  | lockTool t s c s' h =>
      refine key_of_rest hx hy rfl rfl ?_
      rw [h]
      simp [KeyObject.rest, lenPrefixed, lenDigits, toolCallsWord, lockWord]
  | symm _ ih => exact (ih hy hx).symm

/-- Equal keys: the same object, or an alias. -/
theorem alias_of_key_eq {x y : KeyObject} (hx : x.Accepted) (hy : y.Accepted)
    (h : x.key? = y.key?) : x = y ∨ Alias x y := by
  obtain ⟨h1, h2, h3⟩ := key_eq hx hy h
  have hrank : ∀ z : KeyObject, z.rank < 6 ∨ ∃ t s c, z = .toolCall t s c := by
    intro z
    cases z with
    | toolCall t s c => exact Or.inr ⟨t, s, c, rfl⟩
    | _ => exact Or.inl (by simp [KeyObject.rank])
  rcases hrank x with hx6 | ⟨t, s, c, rfl⟩
  · rcases hrank y with hy6 | ⟨t, s, c, rfl⟩
    · rcases Nat.le_total x.rank y.rank with hle | hle
      · exact simple_alias hx hy hle hy6 h1 h2 h3
      · rcases simple_alias hy hx hle hx6 h1.symm h2.symm h3.symm with heq | halias
        · exact Or.inl heq.symm
        · exact Or.inr halias.symm
    · exact Or.inr (toolCall_alias hx hx6 h1 h2 h3.symm)
  · rcases hrank y with hy6 | ⟨t', s', c', rfl⟩
    · exact Or.inr (toolCall_alias hy hy6 h1.symm h2.symm h3).symm
    · -- two ledger keys: both ids sit behind their lengths
      have hrest : lenPrefixed s ++ ':' :: (toolCallsWord ++ ':' :: lenPrefixed c) =
          lenPrefixed s' ++ ':' :: (toolCallsWord ++ ':' :: lenPrefixed c') := by
        simpa [KeyObject.rest] using h3
      obtain ⟨hs, hc⟩ := lenPrefixed_inj hrest
      have hc' : lenPrefixed c = lenPrefixed c' :=
        List.tail_eq_of_cons_eq (List.append_cancel_left (List.tail_eq_of_cons_eq hc))
      obtain ⟨hcc, -⟩ := lenPrefixed_inj (congrArg (· ++ []) hc')
      rw [scope_eq h1 h2, hs, hcc]
      exact Or.inl rfl

/-- **TWO DIFFERENT OBJECTS HAVE DIFFERENT KEYS EXACTLY WHEN THEY ARE NO ALIASES.** -/
theorem keys_differ_iff {x y : KeyObject} (hx : x.Accepted) (hy : y.Accepted) (hne : x ≠ y) :
    x.key? ≠ y.key? ↔ ¬ Alias x y := by
  constructor
  · intro hk halias
    exact hk (halias.same_key hx hy)
  · intro hna hk
    rcases alias_of_key_eq hx hy hk with heq | halias
    · exact hne heq
    · exact hna halias

/-- The state of the session `prod` of tenant `dispatch` in environment `acme`. -/
def prodSession : KeyObject := .state ⟨"dispatch", "acme"⟩ "prod"

/-- The dispatch `state` of tenant `acme` in environment `prod`. -/
def stateDispatch : KeyObject := .dispatch ⟨"acme", "prod"⟩ "state"

/-- **A DISPATCH ENTRY IS A SESSION STATE.** -/
theorem dispatch_is_session :
    prodSession.Accepted ∧ stateDispatch.Accepted ∧ prodSession ≠ stateDispatch ∧
      prodSession.key? = stateDispatch.key? := by
  have hsession : validateSessionId "prod" = .ok () := by decide
  have hdispatch : (serveLedgerKey "acme" "prod" (some "state")).isSome := by decide
  exact ⟨⟨by decide, by decide, hsession⟩, ⟨by decide, by decide, hdispatch⟩, by decide, by decide⟩

/-- Two sessions of one tenant. -/
theorem sessions_differ : (KeyObject.state ⟨"acme", "prod"⟩ "a").Accepted ∧
    (KeyObject.state ⟨"acme", "prod"⟩ "b").Accepted ∧
    (KeyObject.state ⟨"acme", "prod"⟩ "a").key? ≠ (KeyObject.state ⟨"acme", "prod"⟩ "b").key? ∧
    ¬ Alias (.state ⟨"acme", "prod"⟩ "a") (.state ⟨"acme", "prod"⟩ "b") := by
  have ha : (KeyObject.state ⟨"acme", "prod"⟩ "a").Accepted := ⟨by decide, by decide, by decide⟩
  have hb : (KeyObject.state ⟨"acme", "prod"⟩ "b").Accepted := ⟨by decide, by decide, by decide⟩
  have hk : (KeyObject.state ⟨"acme", "prod"⟩ "a").key? ≠
      (KeyObject.state ⟨"acme", "prod"⟩ "b").key? := by decide
  exact ⟨ha, hb, hk, (keys_differ_iff ha hb (by decide)).mp hk⟩

end Greentic.Aw
