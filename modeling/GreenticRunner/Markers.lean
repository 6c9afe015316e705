import GreenticRunner.Segments

/-! # Texts with named markers

    A text may carry values behind MARKERS: a separator written twice, a name, a sign and
    the value.  The values are read back from the end, each at the last occurrence of its
    marker.

    * `rsplitOnce_other` — a marker of another name behind it is looked past, so an
      earlier occurrence inside the text before it is found instead;
    * `render`, `rsplitOnce_render` — the same for a whole row of marked values. -/

namespace Markers

variable {α : Type} [DecidableEq α]

/-- Split at the last occurrence of `m`. -/
def rsplitOnce (m : List α) : List α → Option (List α × List α)
  | [] => if m = [] then some ([], []) else none
  | a :: s =>
      match rsplitOnce m s with
      | some (p, r) => some (a :: p, r)
      | none => if m <+: a :: s then some ([], (a :: s).drop m.length) else none

/-- Split at the first occurrence of `m`. -/
def splitOnce (m : List α) : List α → Option (List α × List α)
  | [] => if m = [] then some ([], []) else none
  | a :: s =>
      if m <+: a :: s then some ([], (a :: s).drop m.length)
      else (splitOnce m s).map fun pr => (a :: pr.1, pr.2)

/-- At most `n` parts, split at the first separators. -/
def splitn (c : α) : Nat → List α → List (List α)
  | 0, _ => []
  | 1, s => [s]
  | n + 2, s =>
      match splitOnce [c] s with
      | some (p, r) => p :: splitn c (n + 1) r
      | none => [s]

variable {m x y s p r n n' v : List α} {c e : α}

/-- What was split is put together again. -/
theorem rsplitOnce_eq (h : rsplitOnce m s = some (p, r)) : s = p ++ m ++ r := by
  induction s generalizing p r with
  | nil =>
      rw [rsplitOnce] at h
      split at h
      next hm =>
        cases h
        rw [hm]
        rfl
      next => exact nomatch h
  | cons a s ih =>
      rw [rsplitOnce] at h
      split at h
      next p' r' hs =>
        cases h
        rw [ih hs]
        rfl
      next =>
        split at h
        next hm =>
          cases h
          obtain ⟨t, ht⟩ := hm
          rw [← ht, List.drop_left, List.nil_append]
        next => exact nomatch h

/-- Without an occurrence there is nothing to split. -/
theorem rsplitOnce_none_of_count (h : s.count c < m.count c) : rsplitOnce m s = none := by
  cases hs : rsplitOnce m s with
  | none => rfl
  | some pr =>
      have heq := rsplitOnce_eq hs
      rw [heq, List.count_append, List.count_append] at h
      omega

/-- An occurrence in the second part is the last one. -/
theorem rsplitOnce_append_right (h : rsplitOnce m y = some (p, r)) (x : List α) :
    rsplitOnce m (x ++ y) = some (x ++ p, r) := by
  induction x with
  | nil => exact h
  | cons a x ih => rw [List.cons_append, rsplitOnce, ih, List.cons_append]

theorem splitOnce_eq (h : splitOnce m s = some (p, r)) : s = p ++ m ++ r := by
  induction s generalizing p r with
  | nil =>
      rw [splitOnce] at h
      split at h
      next hm =>
        cases h
        rw [hm]
        rfl
      next => exact nomatch h
  | cons a s ih =>
      rw [splitOnce] at h
      split at h
      next hm =>
        cases h
        obtain ⟨t, ht⟩ := hm
        rw [← ht, List.drop_left, List.nil_append]
      next =>
        obtain ⟨⟨p', r'⟩, hs, heq⟩ := Option.map_eq_some_iff.mp h
        cases heq
        rw [ih hs]
        rfl

/-! ## Markers -/

/-- Two separators, a name and the sign. -/
def marker (c e : α) (n : List α) : List α := c :: c :: (n ++ [e])

/-- A name and what stands for the sign are without separators. -/
theorem count_marker (hce : c ≠ e) (hn : c ∉ n) : (marker c e n).count c = 2 := by
  rw [marker, List.count_cons_self, List.count_cons_self, List.count_append,
    List.count_eq_zero.mpr hn, List.count_eq_zero.mpr]
  simpa using hce

/-- The value behind the last marker of its name. -/
theorem rsplitOnce_marker (hce : c ≠ e) (hn : c ∉ n) (hv : c ∉ v) (x : List α) :
    rsplitOnce (marker c e n) (x ++ marker c e n ++ v) = some (x, v) := by
  have htail : rsplitOnce (marker c e n) (c :: (n ++ [e]) ++ v) = none := by
    refine rsplitOnce_none_of_count (c := c) ?_
    rw [count_marker hce hn, List.count_append, List.count_cons_self, List.count_append,
      List.count_eq_zero.mpr hn, List.count_eq_zero.mpr hv, List.count_eq_zero.mpr]
    · omega
    · simpa using hce
  have hlast : rsplitOnce (marker c e n) (marker c e n ++ v) = some ([], v) := by
    have hsplit : marker c e n ++ v = c :: (c :: (n ++ [e]) ++ v) := rfl
    have hpre : marker c e n <+: c :: (c :: (n ++ [e]) ++ v) := ⟨v, rfl⟩
    rw [hsplit, rsplitOnce, htail]
    simp only [if_pos hpre]
    rw [← hsplit, List.drop_left]
  rw [List.append_assoc, rsplitOnce_append_right hlast, List.append_nil]

omit [DecidableEq α] in
/-- A marker does not begin before another one and end inside it. -/
theorem marker_start (hce : c ≠ e) (hn : c ∉ n) {a : α} {z : List α} :
    marker c e n <+: (a :: x) ++ (c :: c :: z) ↔ marker c e n <+: a :: x := by
  constructor
  · rintro ⟨t, ht⟩
    rcases List.append_eq_append_iff.mp ht with ⟨w, hx, -⟩ | ⟨w, hm, hy⟩
    · exact ⟨w, hx.symm⟩
    · -- The rest `w` of the marker would start with the separators of the other one.
      cases w with
      | nil => exact ⟨[], by rw [List.append_nil] at hm ⊢; exact hm⟩
      | cons d w =>
          exfalso
          have hd : c = d := List.head_eq_of_cons_eq hy
          subst hd
          have hw := List.tail_eq_of_cons_eq hy
          cases x with
          | nil =>
              have hrest : n ++ [e] = w := List.tail_eq_of_cons_eq (List.tail_eq_of_cons_eq hm)
              cases w with
              | nil => exact List.append_ne_nil_of_right_ne_nil n (List.cons_ne_nil e []) hrest
              | cons d w =>
                  have hd : c = d := List.head_eq_of_cons_eq hw
                  have hmem : c ∈ n ++ [e] := by rw [hrest, hd]; exact List.mem_cons_self ..
                  rcases List.mem_append.mp hmem with hmem | hmem
                  · exact hn hmem
                  · exact hce (List.mem_singleton.mp hmem)
          | cons b x =>
              have hrest : n ++ [e] = x ++ c :: w :=
                List.tail_eq_of_cons_eq (List.tail_eq_of_cons_eq hm)
              have hmem : c ∈ n ++ [e] := by
                rw [hrest]
                exact List.mem_append_right _ (List.mem_cons_self ..)
              rcases List.mem_append.mp hmem with hmem | hmem
              · exact hn hmem
              · exact hce (List.mem_singleton.mp hmem)
  · intro h
    exact h.trans (List.prefix_append ..)

/-- A marker of another name at the end is looked past. -/
theorem rsplitOnce_other (hce : c ≠ e) (hn : c ∉ n) (hn' : c ∉ n') (he : e ∉ n) (he' : e ∉ n')
    (hne : n ≠ n') (hv : c ∉ v) (x : List α) :
    rsplitOnce (marker c e n) (x ++ marker c e n' ++ v) =
      (rsplitOnce (marker c e n) x).map fun pr => (pr.1, pr.2 ++ (marker c e n' ++ v)) := by
  induction x with
  | nil =>
      have htail : rsplitOnce (marker c e n) (c :: (n' ++ [e]) ++ v) = none := by
        refine rsplitOnce_none_of_count (c := c) ?_
        rw [count_marker hce hn, List.count_append, List.count_cons_self, List.count_append,
          List.count_eq_zero.mpr hn', List.count_eq_zero.mpr hv, List.count_eq_zero.mpr]
        · omega
        · simpa using hce
      have hsplit : ([] : List α) ++ marker c e n' ++ v = c :: (c :: (n' ++ [e]) ++ v) := rfl
      have hpre : ¬ marker c e n <+: c :: (c :: (n' ++ [e]) ++ v) := by
        rintro ⟨t, ht⟩
        have hrest : n ++ e :: t = n' ++ e :: v := by
          have h2 := List.tail_eq_of_cons_eq (List.tail_eq_of_cons_eq ht)
          simpa using h2
        exact hne (Segments.first_inj he he' hrest).1
      have hnone : rsplitOnce (marker c e n) (c :: (c :: (n' ++ [e]) ++ v)) = none := by
        rw [rsplitOnce, htail]
        simp only [if_neg hpre]
      have hnil : rsplitOnce (marker c e n) ([] : List α) = none := by
        have hcons : marker c e n ≠ [] := List.cons_ne_nil _ _
        rw [rsplitOnce, if_neg hcons]
      rw [hsplit, hnone, hnil]
      rfl
  | cons a x ih =>
      rw [List.append_assoc] at ih ⊢
      rw [List.cons_append, rsplitOnce, ih, rsplitOnce]
      cases hx : rsplitOnce (marker c e n) x with
      | some pr => rfl
      | none =>
          simp only [Option.map_none]
          have hiff : marker c e n <+: a :: (x ++ (marker c e n' ++ v)) ↔
              marker c e n <+: a :: x := by
            rw [← List.cons_append]
            exact marker_start hce hn
          by_cases hpre : marker c e n <+: a :: x
          · rw [if_pos hpre, if_pos (hiff.mpr hpre)]
            have hlen := hpre.length_le
            rw [Option.map_some, ← List.cons_append, List.drop_append_of_le_length hlen]
          · rw [if_neg hpre, if_neg (mt hiff.mp hpre)]
            rfl

/-! ## Rows of marked values -/

/-- Values behind the markers of their names, one after another. -/
def render (c e : α) (ms : List (List α × List α)) : List α :=
  ms.flatMap fun m => marker c e m.1 ++ m.2

omit [DecidableEq α] in
theorem render_append (ms ms' : List (List α × List α)) :
    render c e (ms ++ ms') = render c e ms ++ render c e ms' := List.flatMap_append

omit [DecidableEq α] in
theorem render_one (n v : List α) : render c e [(n, v)] = marker c e n ++ v := by
  simp [render]

omit [DecidableEq α] in
theorem mem_render {ms : List (List α × List α)} (h : ms ≠ []) : c ∈ render c e ms := by
  cases ms with
  | nil => exact absurd rfl h
  | cons m ms => exact List.mem_append_left _ (List.mem_append_left _ (List.mem_cons_self ..))

/-- Markers whose names and values hold no separator and whose names hold no sign. -/
def Clean (c e : α) (ms : List (List α × List α)) : Prop :=
  ∀ m ∈ ms, c ∉ m.1 ∧ e ∉ m.1 ∧ c ∉ m.2

/-- The marker of a name that is not in the row is sought in front of the row. -/
theorem rsplitOnce_render (hce : c ≠ e) (hn : c ∉ n) (he : e ∉ n)
    {ms : List (List α × List α)} (hms : Clean c e ms) (hne : ∀ m ∈ ms, n ≠ m.1) (x : List α) :
    rsplitOnce (marker c e n) (x ++ render c e ms) =
      (rsplitOnce (marker c e n) x).map fun pr => (pr.1, pr.2 ++ render c e ms) := by
  induction ms using List.reverseRecOn with
  | nil => simp [render]
  | append_singleton ms m ih =>
      obtain ⟨hcn, hen, hcv⟩ := hms m (by simp)
      have ih' := ih (fun m' hm' => hms m' (by simp [hm'])) (fun m' hm' => hne m' (by simp [hm']))
      have hjoin : x ++ render c e (ms ++ [m]) = x ++ render c e ms ++ marker c e m.1 ++ m.2 := by
        rw [render_append, render_one]
        simp
      rw [hjoin, rsplitOnce_other hce hn hcn he hen (hne m (by simp)) hcv, ih', render_append,
        render_one]
      cases rsplitOnce (marker c e n) x with
      | none => rfl
      | some pr => simp

theorem rsplitOnce_isSome_of_start (h : m <+: s) (hm : m ≠ []) : (rsplitOnce m s).isSome := by
  cases s with
  | nil => exact absurd (List.prefix_nil.mp h) hm
  | cons a s =>
      rw [rsplitOnce]
      split
      next => rfl
      next => rw [if_pos h]; rfl

/-- There is nothing to split exactly where the text does not occur. -/
theorem rsplitOnce_eq_none_iff (hm : m ≠ []) : rsplitOnce m s = none ↔ ¬ m <:+: s := by
  constructor
  · rintro h ⟨p, r, rfl⟩
    obtain ⟨pr, hpr⟩ := Option.isSome_iff_exists.mp
      (rsplitOnce_isSome_of_start (List.prefix_append m r) hm)
    rw [List.append_assoc, rsplitOnce_append_right (p := pr.1) (r := pr.2) hpr] at h
    exact nomatch h
  · intro h
    cases hs : rsplitOnce m s with
    | none => rfl
    | some pr => exact absurd ⟨pr.1, pr.2, (rsplitOnce_eq hs).symm⟩ h

end Markers
