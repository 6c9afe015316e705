import Mathlib

/-! # Decimal digits

    Lists of decimal digits, the most significant one first: what they denote, how they are written, and
    the digits of numbers that are written one after the other in groups of four.

    * `groups`, `value_groups` — GROUPS OF FOUR are the digits of a sum of powers of 10000;
    * `groups_eq_map` — the digit at a place of them. -/

namespace DecimalDigits

open Finset

/-! ## Reading -/

/-- What digits denote. -/
def value (ds : List Nat) : Nat := ds.foldl (fun a d => 10 * a + d) 0

/-- The accumulator is worth its power of ten. -/
theorem foldl_eq (ds : List Nat) (a : Nat) :
    ds.foldl (fun a d => 10 * a + d) a = a * 10 ^ ds.length + value ds := by
  induction ds generalizing a with
  | nil => simp [value]
  | cons d ds ih =>
      have hvalue : value (d :: ds) = d * 10 ^ ds.length + value ds := by
        rw [value, List.foldl_cons, ih]
        simp
      rw [List.foldl_cons, ih, hvalue, List.length_cons]
      ring

theorem value_append (a b : List Nat) : value (a ++ b) = value a * 10 ^ b.length + value b := by
  rw [value, List.foldl_append, foldl_eq]
  rfl

/-- Zeros are worth nothing. -/
theorem value_zeros {ds : List Nat} (h : ∀ d ∈ ds, d = 0) : value ds = 0 := by
  induction ds with
  | nil => rfl
  | cons d ds ih =>
      have hsplit := value_append [d] ds
      rw [List.singleton_append] at hsplit
      rw [hsplit, ih fun e he => h e (List.mem_cons_of_mem _ he), h d List.mem_cons_self]
      simp [value]

/-! ## Writing -/

/-- The text of digits. -/
def text (ds : List Nat) : List Char := ds.map Nat.digitChar

theorem text_append (a b : List Nat) : text (a ++ b) = text a ++ text b := List.map_append

/-- The `w` last digits of a number. -/
def fixed : Nat → Nat → List Nat
  | 0, _ => []
  | w + 1, d => fixed w (d / 10) ++ [d % 10]

@[simp] theorem fixed_length (w d : Nat) : (fixed w d).length = w := by
  induction w generalizing d with
  | zero => rfl
  | succ w ih => simp [fixed, ih]

/-- The digits of a fixed width are digits. -/
theorem fixed_lt (w d : Nat) : ∀ e ∈ fixed w d, e < 10 := by
  induction w generalizing d with
  | zero => simp [fixed]
  | succ w ih =>
      intro e he
      rcases List.mem_append.mp he with he | he
      · exact ih _ e he
      · rw [List.mem_singleton.mp he]
        omega

/-- They are worth the number, if it fits. -/
theorem value_fixed (w d : Nat) (h : d < 10 ^ w) : value (fixed w d) = d := by
  induction w generalizing d with
  | zero =>
      have hd : d = 0 := by simpa using h
      rw [hd]
      rfl
  | succ w ih =>
      have hdiv : d / 10 < 10 ^ w := Nat.div_lt_of_lt_mul (by rwa [pow_succ'] at h)
      rw [fixed, value_append, ih _ hdiv]
      simp only [List.length_singleton, pow_one, value, List.foldl_cons, List.foldl_nil]
      omega

/-- The digits of a number. -/
def plain (d : Nat) : List Nat := if d < 10 then [d] else plain (d / 10) ++ [d % 10]
termination_by d

theorem plain_ne_nil (d : Nat) : plain d ≠ [] := by
  rw [plain]
  split <;> simp

/-- Its digits are digits. -/
theorem plain_lt (d : Nat) : ∀ e ∈ plain d, e < 10 := by
  induction d using Nat.strongRecOn with
  | _ d ih =>
      intro e he
      rw [plain] at he
      split at he
      next h => rwa [List.mem_singleton.mp he]
      next h =>
        rcases List.mem_append.mp he with he | he
        · exact ih _ (by omega) e he
        · rw [List.mem_singleton.mp he]
          omega

/-- And they are worth it. -/
theorem value_plain (d : Nat) : value (plain d) = d := by
  induction d using Nat.strongRecOn with
  | _ d ih =>
      rw [plain]
      split
      · simp [value]
      · rw [value_append, ih _ (by omega)]
        simp only [List.length_singleton, pow_one, value, List.foldl_cons, List.foldl_nil]
        omega

/-- A number begins with a zero only if it is zero. -/
theorem plain_head (d : Nat) (h : (plain d).head? = some 0) : d = 0 := by
  induction d using Nat.strongRecOn with
  | _ d ih =>
      rw [plain] at h
      split at h
      next => exact Option.some.inj h
      next hd =>
        have hhead : (plain (d / 10)).head? = some 0 := by
          rw [List.head?_append] at h
          cases hp : (plain (d / 10)).head? with
          | none => exact absurd (List.head?_eq_none_iff.mp hp) (plain_ne_nil _)
          | some e => rw [hp] at h; exact h
        have := ih _ (by omega) hhead
        omega

/-- **THE DIGITS OF A NUMBER** are what is written. -/
theorem toDigits_eq (d : Nat) : Nat.toDigits 10 d = text (plain d) := by
  induction d using Nat.strongRecOn with
  | _ d ih =>
      rw [Nat.toDigits_eq_if (by decide), plain]
      split
      · rfl
      · rw [ih _ (by omega), text_append]
        rfl

/-- With leading zeros, too. -/
theorem padded_eq (w d : Nat) (h : d < 10 ^ (w + 1)) :
    List.replicate (w + 1 - (Nat.toDigits 10 d).length) '0' ++ Nat.toDigits 10 d =
      text (fixed (w + 1) d) := by
  induction w generalizing d with
  | zero =>
      have hlt : d < 10 := by simpa using h
      rw [Nat.toDigits_of_lt_base hlt]
      simp [fixed, text, Nat.mod_eq_of_lt hlt]
  | succ w ih =>
      have hdiv : d / 10 < 10 ^ (w + 1) := Nat.div_lt_of_lt_mul (by rwa [pow_succ'] at h)
      rw [fixed, text_append, ← ih _ hdiv]
      by_cases hd : d < 10
      · rw [Nat.toDigits_of_lt_base hd, Nat.div_eq_of_lt hd, Nat.mod_eq_of_lt hd, Nat.toDigits_zero]
        simp [text, List.replicate_succ']
      · rw [Nat.toDigits_of_base_le (by decide) (by omega)]
        simp [text]

/-! ## Groups of four -/

/-- The digits of numbers below 10000, four for each. -/
def groups (f : Nat → Nat) : Nat → List Nat
  | 0 => []
  | n + 1 => groups f n ++ fixed 4 (f n)

@[simp] theorem groups_length (f : Nat → Nat) (n : Nat) : (groups f n).length = 4 * n := by
  induction n with
  | zero => rfl
  | succ n ih =>
      rw [groups, List.length_append, ih, fixed_length]
      ring

/-- The digits of the groups are digits. -/
theorem groups_lt (f : Nat → Nat) (n : Nat) : ∀ e ∈ groups f n, e < 10 := by
  induction n with
  | zero => simp [groups]
  | succ n ih =>
      intro e he
      rcases List.mem_append.mp he with he | he
      · exact ih e he
      · exact fixed_lt _ _ e he

/-- **GROUPS OF FOUR** behind the point are the places of powers of 10000. -/
theorem value_groups {f : Nat → Nat} (hf : ∀ n, f n < 10000) (n : Nat) :
    (value (groups f n) : ℚ) = (∑ m ∈ range n, (f m : ℚ) / 10000 ^ (m + 1)) * 10000 ^ n := by
  induction n with
  | zero => simp [groups, value]
  | succ n ih =>
      rw [groups, value_append, fixed_length, value_fixed 4 _ (hf n), sum_range_succ]
      push_cast
      rw [ih, add_mul, div_mul_cancel₀ _ (by positivity)]
      ring

/-- The digit at a place of groups of four. -/
def digit (f : Nat → Nat) (i : Nat) : Nat := f (i / 4) / 10 ^ (3 - i % 4) % 10

/-- The groups, digit by digit. -/
theorem groups_eq_map (f : Nat → Nat) (n : Nat) : groups f n = (List.range (4 * n)).map (digit f) := by
  induction n with
  | zero => rfl
  | succ n ih =>
      have hrange : List.range (4 * (n + 1)) =
          List.range (4 * n) ++ (List.range 4).map (4 * n + ·) := by
        rw [← List.range_add]
        rfl
      have hlast : fixed 4 (f n) = (List.range 4).map fun j => digit f (4 * n + j) := by
        have hdigit : ∀ j < 4, digit f (4 * n + j) = f n / 10 ^ (3 - j) % 10 := by
          intro j hj
          rw [digit, show (4 * n + j) / 4 = n by omega, show (4 * n + j) % 4 = j by omega]
        show _ = [digit f (4 * n + 0), digit f (4 * n + 1), digit f (4 * n + 2), digit f (4 * n + 3)]
        rw [hdigit 0 (by decide), hdigit 1 (by decide), hdigit 2 (by decide), hdigit 3 (by decide)]
        simp [fixed, Nat.div_div_eq_div_mul]
      rw [groups, ih, hlast, hrange, List.map_append, List.map_map]
      rfl

/-- Digits that are cut off as zeros only scale what is left. -/
theorem value_take {f : Nat → Nat} {n k : Nat} (h : ∀ i, k ≤ i → digit f i = 0) :
    value (groups f n) = value ((groups f n).take k) * 10 ^ (4 * n - k) := by
  have hsplit := value_append ((groups f n).take k) ((groups f n).drop k)
  rw [List.take_append_drop] at hsplit
  have hzeros : value ((groups f n).drop k) = 0 := by
    refine value_zeros fun d hd => ?_
    rw [groups_eq_map, ← List.map_drop] at hd
    obtain ⟨i, hi, rfl⟩ := List.mem_map.mp hd
    refine h i ?_
    obtain ⟨j, hj, rfl⟩ := List.mem_iff_getElem.mp hi
    rw [List.getElem_drop, List.getElem_range]
    omega
  rw [hsplit, hzeros, List.length_drop, groups_length, Nat.add_zero]

/-- A number whose four digits are zeros is zero. -/
theorem eq_zero_of_digits {d : Nat} (hd : d < 10000) (h : ∀ j < 4, d / 10 ^ (3 - j) % 10 = 0) : d = 0 := by
  have h0 := h 0 (by decide)
  have h1 := h 1 (by decide)
  have h2 := h 2 (by decide)
  have h3 := h 3 (by decide)
  norm_num at h0 h1 h2 h3
  omega

end DecimalDigits
