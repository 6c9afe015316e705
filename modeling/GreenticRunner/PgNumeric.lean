import GreenticRunner.DecimalDigits

/-! # Postgres' binary NUMERIC

    A query of the SQL component gives each NUMERIC cell to the guest as text, which is read off the bytes
    that Postgres sends: a header with the number of groups, the weight of the first of them, the sign and
    the scale, and behind it the groups, base-10000 digits.

    * `Decimal` — what a text like `-12.50` consists of;
    * `pgNumericToString_encode` — the text of a well-formed value;
    * `magnitude_eq` — its digits denote the VALUE, wherever the weight puts the groups. -/

namespace Greentic.Sql

open Finset

/-! ## The code -/

/-- `String::truncate` off a character boundary. -/
inductive Panic
  | notCharBoundary
  deriving DecidableEq, Repr

/-- `u16::from_be_bytes`. -/
def u16 (hi lo : UInt8) : Nat := 256 * hi.toNat + lo.toNat

/-- `i16::from_be_bytes`. -/
def i16 (hi lo : UInt8) : Int := if u16 hi lo < 32768 then u16 hi lo else (u16 hi lo : Int) - 65536

/-- `body.chunks_exact(2)`, each pair as an `i16`. -/
def pairs : List UInt8 → List Int
  | hi :: lo :: rest => i16 hi lo :: pairs rest
  | _ => []

/-- The digit `k` carries the weight `weight - k`; missing ones are zeros. -/
def digitAt (digits : List Int) (k : Int) : Int := if k < 0 then 0 else digits.getD k.toNat 0

/-- `format!("\x7b:0w\x7d")` of an `i32`: the zeros stand between the sign and the digits. -/
def padded (w : Nat) (d : Int) : List Char :=
  let sign := if d < 0 then ['-'] else []
  let digits := Nat.toDigits 10 d.natAbs
  sign ++ (List.replicate (w - (sign.length + digits.length)) '0' ++ digits)

/-- `i32::checked_add`. -/
def checkedAdd (a b : Int) : Option Int :=
  if -2147483648 ≤ a + b ∧ a + b ≤ 2147483647 then some (a + b) else none

/-- `String::truncate`. -/
def truncate : List Char → Nat → Except Panic (List Char)
  | _, 0 => .ok []
  | [], _ + 1 => .ok []
  | c :: cs, n + 1 =>
      if c.utf8Size ≤ n + 1 then (truncate cs (n + 1 - c.utf8Size)).map (c :: ·)
      else .error .notCharBoundary

/-- The loop over `0..=weight`. -/
def whole (digitAt : Int → Int) : Nat → List Char
  | 0 => padded 0 (digitAt 0)
  | k + 1 => whole digitAt k ++ padded 4 (digitAt (k + 1))

/-- The loop over `1..=groups`. -/
def fraction (digitAt : Int → Int) (weight : Int) : Nat → Option (List Char)
  | 0 => some []
  | m + 1 => do
      let frac ← fraction digitAt weight m
      let k ← checkedAdd weight (m + 1)
      some (frac ++ padded 4 (digitAt k))

/-- `pg_numeric_to_string`. -/
def pgNumericToString : List UInt8 → Except Panic (Option (List Char))
  | n0 :: n1 :: w0 :: w1 :: s0 :: s1 :: d0 :: d1 :: rest =>
      let ndigits := u16 n0 n1
      let weight := i16 w0 w1
      let sign := u16 s0 s1
      let dscale := u16 d0 d1
      if sign = 0xC000 then .ok (some "NaN".toList)
      else if sign = 0xD000 then .ok (some "Infinity".toList)
      else if sign = 0xF000 then .ok (some "-Infinity".toList)
      else if sign ≠ 0x0000 ∧ sign ≠ 0x4000 then .ok none
      else if rest.length < 2 * ndigits then .ok none
      else
        let digits := pairs (rest.take (2 * ndigits))
        let minus := if sign = 0x4000 ∧ digits.any (· ≠ 0) then ['-'] else []
        let front := if weight < 0 then ['0'] else whole (digitAt digits) weight.toNat
        if dscale = 0 then .ok (some (minus ++ front))
        else
          match fraction (digitAt digits) weight ((dscale + 3) / 4) with
          | none => .ok none
          | some frac => (truncate frac dscale).map fun frac => some (minus ++ front ++ '.' :: frac)
  | _ => .ok none

/-! ## What it is for -/

/-- The group at a place, counted from the first one. -/
def groupAt (groups : List Nat) (k : Int) : Nat := if k < 0 then 0 else groups.getD k.toNat 0

/-- A well-formed NUMERIC. -/
structure Numeric where
  negative : Bool
  weight : Int
  dscale : Nat
  groups : List Nat
  weight_range : -32768 ≤ weight ∧ weight ≤ 32767
  dscale_range : dscale < 65536
  length_range : groups.length < 65536
  group_range : ∀ d ∈ groups, d < 10000
  first_ne : groups.head? ≠ some 0
  /-- No digit other than zero behind the first `dscale` places of the fraction. -/
  scaled : ∀ i ≥ dscale, DecimalDigits.digit (fun m => groupAt groups (weight + 1 + m)) i = 0

namespace Numeric

/-- The value without its sign. -/
def magnitude (n : Numeric) : ℚ :=
  ∑ k ∈ range n.groups.length, (n.groups.getD k 0 : ℚ) * (10000 : ℚ) ^ (n.weight - k)

def value (n : Numeric) : ℚ := if n.negative then -n.magnitude else n.magnitude

/-- The group at a place behind the point. -/
def behind (n : Numeric) (m : Nat) : Nat := groupAt n.groups (n.weight + 1 + m)

/-- Two bytes, the higher one first. -/
def be16 (n : Nat) : List UInt8 := [UInt8.ofNat (n / 256), UInt8.ofNat n]

/-- The bytes that are sent. -/
def encode (n : Numeric) : List UInt8 :=
  be16 n.groups.length ++ be16 (n.weight % 65536).toNat ++ be16 (if n.negative then 0x4000 else 0) ++
    be16 n.dscale ++ n.groups.flatMap be16

end Numeric

/-- The parts of a decimal text. -/
structure Decimal where
  negative : Bool
  whole : List Nat
  fraction : List Nat
  whole_ne : whole ≠ []
  digits : ∀ d ∈ whole ++ fraction, d < 10

namespace Decimal

def text (d : Decimal) : List Char :=
  (if d.negative then ['-'] else []) ++ DecimalDigits.text d.whole ++
    if d.fraction = [] then [] else '.' :: DecimalDigits.text d.fraction

/-- The value without its sign. -/
def magnitude (d : Decimal) : ℚ :=
  DecimalDigits.value d.whole + DecimalDigits.value d.fraction / 10 ^ d.fraction.length

def value (d : Decimal) : ℚ := if d.negative then -d.magnitude else d.magnitude

/-- It begins with a zero only if that is all there is before the point. -/
def Trimmed (d : Decimal) : Prop := d.whole.head? = some 0 → d.whole = [0]

end Decimal

/-! ## Cutting and padding -/

/-- Text of one byte a character is cut at any length. -/
theorem truncate_ascii : ∀ {s : List Char}, (∀ c ∈ s, c.utf8Size = 1) → ∀ n, truncate s n = .ok (s.take n)
  | [], _, 0 => rfl
  | [], _, _ + 1 => rfl
  | _ :: _, _, 0 => rfl
  | c :: cs, h, n + 1 => by
      have hcs : ∀ e ∈ cs, e.utf8Size = 1 := fun e he => h e (List.mem_cons_of_mem _ he)
      rw [truncate, h c List.mem_cons_self, if_pos (by omega), Nat.add_sub_cancel, truncate_ascii hcs n]
      rfl

theorem digitChar_utf8Size : ∀ d < 10, (Nat.digitChar d).utf8Size = 1 := by decide

/-- So is each character of a padded number. -/
theorem padded_utf8Size (w : Nat) (d : Int) : ∀ c ∈ padded w d, c.utf8Size = 1 := by
  intro c hc
  simp only [padded, List.mem_append] at hc
  rcases hc with hc | hc | hc
  · split at hc
    · rw [List.mem_singleton.mp hc]
      decide
    · simp at hc
  · rw [(List.mem_replicate.mp hc).2]
    decide
  · rw [DecimalDigits.toDigits_eq, DecimalDigits.text] at hc
    obtain ⟨e, he, rfl⟩ := List.mem_map.mp hc
    exact digitChar_utf8Size e (DecimalDigits.plain_lt _ e he)

/-- And of a fraction. -/
theorem fraction_utf8Size {f : Int → Int} {weight : Int} {m : Nat} {frac : List Char}
    (h : fraction f weight m = some frac) : ∀ c ∈ frac, c.utf8Size = 1 := by
  induction m generalizing frac with
  | zero =>
      rw [← Option.some.inj h]
      simp
  | succ m ih =>
      simp only [fraction, Option.bind_eq_bind, Option.bind_eq_some_iff, Option.some.injEq] at h
      obtain ⟨before, hbefore, k, -, rfl⟩ := h
      intro c hc
      rcases List.mem_append.mp hc with hc | hc
      · exact ih hbefore c hc
      · exact padded_utf8Size 4 _ c hc

/-- **NO BYTES PANIC.** What is cut is digits and signs, one byte each. -/
theorem pgNumericToString_returns (bytes : List UInt8) : ∃ r, pgNumericToString bytes = .ok r := by
  unfold pgNumericToString
  split
  next n0 n1 w0 w1 s0 s1 d0 d1 rest =>
    simp only
    -- The signs and the lengths that end it at once.
    iterate 5 (split; exact ⟨_, rfl⟩)
    by_cases hscale : u16 d0 d1 = 0
    · rw [if_pos hscale]
      exact ⟨_, rfl⟩
    · rw [if_neg hscale]
      cases hfrac : fraction (digitAt (pairs (rest.take (2 * u16 n0 n1)))) (i16 w0 w1)
          ((u16 d0 d1 + 3) / 4) with
      | none => exact ⟨_, rfl⟩
      | some frac =>
          simp only
          rw [truncate_ascii (fraction_utf8Size hfrac)]
          exact ⟨_, rfl⟩
  next => exact ⟨_, rfl⟩

/-- A number that fits is its digits with leading zeros. -/
theorem padded_nat (w d : Nat) (h : d < 10 ^ (w + 1)) :
    padded (w + 1) d = DecimalDigits.text (DecimalDigits.fixed (w + 1) d) := by
  rw [← DecimalDigits.padded_eq w d h, padded, if_neg (by omega)]
  simp

theorem padded_zero (d : Nat) : padded 0 d = DecimalDigits.text (DecimalDigits.plain d) := by
  rw [← DecimalDigits.toDigits_eq, padded, if_neg (by omega)]
  simp

/-! ## Reading the bytes -/

namespace Numeric

theorem u16_be16 {n : Nat} (h : n < 65536) : u16 (UInt8.ofNat (n / 256)) (UInt8.ofNat n) = n := by
  simp only [u16, UInt8.toNat_ofNat']
  omega

/-- So are two bytes with a sign. -/
theorem i16_be16 {w : Int} (h : -32768 ≤ w ∧ w ≤ 32767) :
    i16 (UInt8.ofNat ((w % 65536).toNat / 256)) (UInt8.ofNat (w % 65536).toNat) = w := by
  rw [i16, u16_be16 (by omega)]
  split <;> omega

/-- All groups are read back. -/
theorem pairs_flatMap {groups : List Nat} (h : ∀ d ∈ groups, d < 10000) :
    pairs (groups.flatMap be16) = groups.map Int.ofNat := by
  induction groups with
  | nil => rfl
  | cons d ds ih =>
      have hd := h d List.mem_cons_self
      have hi : i16 (UInt8.ofNat (d / 256)) (UInt8.ofNat d) = d := by
        rw [i16, u16_be16 (by omega), if_pos (by omega)]
      rw [List.flatMap_cons, be16, List.map_cons, ← ih fun e he => h e (List.mem_cons_of_mem _ he)]
      show i16 _ _ :: pairs _ = _
      rw [hi]
      rfl

/-- Two bytes for every group. -/
theorem flatMap_length (groups : List Nat) : (groups.flatMap be16).length = 2 * groups.length := by
  induction groups with
  | nil => rfl
  | cons d ds ih =>
      rw [List.flatMap_cons, List.length_append, ih, List.length_cons]
      simp only [be16, List.length_cons, List.length_nil]
      omega

/-- The reader finds the groups the value has. -/
theorem digitAt_map (groups : List Nat) (k : Int) : digitAt (groups.map Int.ofNat) k = groupAt groups k := by
  unfold digitAt groupAt
  split
  · rfl
  · rw [List.getD_eq_getElem?_getD, List.getD_eq_getElem?_getD, List.getElem?_map]
    cases groups[k.toNat]? <;> rfl

/-- A group is below ten thousand, also where there is none. -/
theorem groupAt_lt {groups : List Nat} (h : ∀ d ∈ groups, d < 10000) (k : Int) : groupAt groups k < 10000 := by
  unfold groupAt
  split
  · decide
  · rw [List.getD_eq_getElem?_getD]
    cases hk : groups[k.toNat]? with
    | none => decide
    | some d => exact h d (List.mem_of_getElem? hk)

/-- The two loops write groups of four. -/
theorem whole_eq {f : Nat → Nat} (hf : ∀ n, f n < 10000) {g : Int → Int} (hg : ∀ n : Nat, g n = f n)
    (w : Nat) : whole g w = DecimalDigits.text
      (DecimalDigits.plain (f 0) ++ DecimalDigits.groups (fun m => f (m + 1)) w) := by
  induction w with
  | zero =>
      rw [whole, show g 0 = ((f 0 : Nat) : Int) from hg 0, padded_zero]
      simp [DecimalDigits.groups]
  | succ w ih =>
      have hk : g ((w : Int) + 1) = (f (w + 1) : Int) := by exact_mod_cast hg (w + 1)
      rw [whole, ih, hk, padded_nat 3 _ (hf _), DecimalDigits.groups, ← DecimalDigits.text_append,
        List.append_assoc]

/-- The fraction is written group by group. -/
theorem fraction_eq {f : Nat → Nat} (hf : ∀ n, f n < 10000) {g : Int → Int} {weight : Int}
    (hg : ∀ m : Nat, g (weight + (m + 1)) = f m) (hweight : -32768 ≤ weight ∧ weight ≤ 32767) {m : Nat}
    (hm : m ≤ 65536) : fraction g weight m = some (DecimalDigits.text (DecimalDigits.groups f m)) := by
  induction m with
  | zero => rfl
  | succ m ih =>
      have hadd : checkedAdd weight ((m : Int) + 1) = some (weight + (m + 1)) := by
        rw [checkedAdd, if_pos (by omega)]
      rw [fraction, ih (by omega), DecimalDigits.groups, DecimalDigits.text_append, ← padded_nat 3 _ (hf m)]
      simp only [Option.bind_eq_bind, Option.bind_some]
      rw [hadd, Option.bind_some, hg]

/-! ## The value -/

/-- A group, counted from the first one; there are zeros behind the last. -/
def at' (n : Numeric) (k : Nat) : Nat := n.groups.getD k 0

theorem at'_eq (n : Numeric) (k : Nat) : groupAt n.groups k = n.at' k := by
  rw [groupAt, if_neg (by omega)]
  rfl

theorem at'_lt (n : Numeric) (k : Nat) : n.at' k < 10000 := by
  rw [← at'_eq]
  exact groupAt_lt n.group_range _

theorem behind_lt (n : Numeric) (m : Nat) : n.behind m < 10000 := groupAt_lt n.group_range _

/-- The number of groups behind the point that are written. -/
def shown (n : Numeric) : Nat := (n.dscale + 3) / 4

/-- Behind them there are only zeros. -/
theorem behind_eq_zero (n : Numeric) {m : Nat} (hm : n.shown ≤ m) : n.behind m = 0 := by
  refine DecimalDigits.eq_zero_of_digits (n.behind_lt m) fun j hj => ?_
  have hshown : (n.dscale + 3) / 4 ≤ m := hm
  have hdigit := n.scaled (4 * m + j) (by omega)
  rw [DecimalDigits.digit, show (4 * m + j) / 4 = m by omega, show (4 * m + j) % 4 = j by omega] at hdigit
  exact hdigit

/-- Places that hold only zeros may be left out of the sum. -/
theorem magnitude_eq_sum (n : Numeric) {b : Nat} (h : ∀ k ≥ b, n.at' k = 0) :
    n.magnitude = ∑ k ∈ range b, (n.at' k : ℚ) * (10000 : ℚ) ^ (n.weight - k) := by
  have hlen : ∀ k ≥ n.groups.length, n.at' k = 0 := by
    intro k hk
    rw [at', List.getD_eq_getElem?_getD, List.getElem?_eq_none hk]
    rfl
  have hzero : ∀ {k : Nat}, n.at' k = 0 → (n.at' k : ℚ) * (10000 : ℚ) ^ (n.weight - k) = 0 := by
    intro k hk
    rw [hk]
    simp
  calc n.magnitude
      = ∑ k ∈ range n.groups.length, (n.at' k : ℚ) * (10000 : ℚ) ^ (n.weight - k) := rfl
    _ = ∑ k ∈ range (max n.groups.length b), (n.at' k : ℚ) * (10000 : ℚ) ^ (n.weight - k) :=
        (eventually_constant_sum (fun k hk => hzero (hlen k hk)) (Nat.le_max_left _ _)).symm
    _ = ∑ k ∈ range b, (n.at' k : ℚ) * (10000 : ℚ) ^ (n.weight - k) :=
        eventually_constant_sum (fun k hk => hzero (h k hk)) (Nat.le_max_right _ _)

/-- The digits behind the point. -/
def fractionDigits (n : Numeric) : List Nat := (DecimalDigits.groups n.behind n.shown).take n.dscale

theorem fractionDigits_length (n : Numeric) : n.fractionDigits.length = n.dscale := by
  rw [fractionDigits, List.length_take, DecimalDigits.groups_length, shown]
  omega

/-- They are worth the groups that are shown. -/
theorem fractionDigits_value (n : Numeric) :
    (DecimalDigits.value n.fractionDigits : ℚ) / 10 ^ n.dscale =
      ∑ m ∈ range n.shown, (n.behind m : ℚ) / 10000 ^ (m + 1) := by
  have hcut := DecimalDigits.value_take (f := n.behind) (n := n.shown) n.scaled
  have hsum := DecimalDigits.value_groups n.behind_lt n.shown
  have hle : n.dscale ≤ 4 * n.shown := by
    rw [shown]
    omega
  rw [hcut] at hsum
  push_cast at hsum
  have hpow : (10 : ℚ) ^ n.dscale * 10 ^ (4 * n.shown - n.dscale) = 10000 ^ n.shown := by
    rw [← pow_add, Nat.add_sub_cancel' hle, pow_mul]
    norm_num
  rw [← hpow] at hsum
  have hne : (10 : ℚ) ^ (4 * n.shown - n.dscale) ≠ 0 := by positivity
  rw [div_eq_iff (by positivity)]
  apply mul_right_cancel₀ hne
  rw [mul_assoc]
  exact hsum

/-- The digits in front of the point. -/
def wholeDigits (n : Numeric) : List Nat :=
  if n.weight < 0 then [0]
  else DecimalDigits.plain (n.at' 0) ++ DecimalDigits.groups (fun m => n.at' (m + 1)) n.weight.toNat

/-- **THE DIGITS DENOTE THE VALUE**, wherever the weight puts the groups. -/
theorem magnitude_eq (n : Numeric) :
    n.magnitude = DecimalDigits.value n.wholeDigits + DecimalDigits.value n.fractionDigits / 10 ^ n.dscale := by
  rw [fractionDigits_value]
  rcases lt_or_ge n.weight 0 with hneg | hpos
  · -- All groups are behind the point, after `gap` zeros.
    obtain ⟨gap, hgap⟩ : ∃ gap : Nat, n.weight = -((gap : Int) + 1) := ⟨(-(n.weight + 1)).toNat, by omega⟩
    have hlater : ∀ k, n.behind (gap + k) = n.at' k := by
      intro k
      rw [behind, show n.weight + 1 + ((gap + k : Nat) : Int) = (k : Int) by push_cast; omega, at'_eq]
    have hearly : ∀ m ∈ range gap, (n.behind m : ℚ) / 10000 ^ (m + 1) = 0 := by
      intro m hm
      have hlt := mem_range.mp hm
      rw [behind, groupAt, if_pos (by omega)]
      simp
    have hend : ∀ m ≥ n.shown, (n.behind m : ℚ) / 10000 ^ (m + 1) = 0 := by
      intro m hm
      rw [n.behind_eq_zero hm]
      simp
    have hwhole : n.wholeDigits = [0] := if_pos hneg
    rw [n.magnitude_eq_sum (b := n.shown) fun k hk => by rw [← hlater, n.behind_eq_zero (by omega)], hwhole,
      ← eventually_constant_sum hend (n := gap + n.shown) (by omega), sum_range_add, sum_eq_zero hearly]
    simp only [DecimalDigits.value, List.foldl_cons, List.foldl_nil, Nat.mul_zero, Nat.cast_zero,
      zero_add]
    refine sum_congr rfl fun k _ => ?_
    rw [hlater, hgap, show (-((gap : Int) + 1) - k) = -((gap + k + 1 : Nat) : Int) by push_cast; ring,
      zpow_neg, zpow_natCast, div_eq_mul_inv]
  · -- The groups up to the weight are in front of the point.
    obtain ⟨w, hw⟩ : ∃ w : Nat, n.weight = w := ⟨n.weight.toNat, by omega⟩
    have hbehind : ∀ m, n.behind m = n.at' (w + 1 + m) := by
      intro m
      rw [behind, hw, ← at'_eq]
      push_cast
      rfl
    have hwhole : (DecimalDigits.value n.wholeDigits : ℚ) =
        ∑ k ∈ range (w + 1), (n.at' k : ℚ) * (10000 : ℚ) ^ ((w : Int) - k) := by
      have hdigits : n.wholeDigits = DecimalDigits.plain (n.at' 0) ++
          DecimalDigits.groups (fun m => n.at' (m + 1)) w := by
        rw [wholeDigits, if_neg (by omega), hw, Int.toNat_natCast]
      rw [hdigits, DecimalDigits.value_append, DecimalDigits.value_plain, DecimalDigits.groups_length,
        sum_range_succ', pow_mul]
      push_cast
      rw [DecimalDigits.value_groups (fun m => n.at'_lt (m + 1)), sum_mul, add_comm]
      refine congrArg₂ HAdd.hAdd ?_ ?_
      · refine sum_congr rfl fun m _ => ?_
        rw [zpow_sub₀ (by norm_num), zpow_natCast, show ((m : Int) + 1) = ((m + 1 : Nat) : Int) by push_cast; rfl,
          zpow_natCast]
        ring
      · norm_num
    have hzero : ∀ k ≥ w + 1 + n.shown, n.at' k = 0 := by
      intro k hk
      rw [show k = w + 1 + (k - (w + 1)) by omega, ← hbehind]
      exact n.behind_eq_zero (by omega)
    rw [n.magnitude_eq_sum hzero, sum_range_add, hwhole, hw]
    congr 1
    refine sum_congr rfl fun m _ => ?_
    rw [hbehind, show ((w : Int) - ((w + 1 + m : Nat) : Int)) = -((m + 1 : Nat) : Int) by push_cast; ring,
      zpow_neg, zpow_natCast, div_eq_mul_inv]

/-- The first group is not zero, so there is a value as soon as there is a group. -/
theorem groups_cases (n : Numeric) : n.groups = [] ∨ 0 < n.at' 0 := by
  cases hgroups : n.groups with
  | nil => exact .inl rfl
  | cons d ds =>
      right
      have hfirst := n.first_ne
      rw [hgroups, List.head?_cons, ne_eq, Option.some.injEq] at hfirst
      rw [at', hgroups]
      exact Nat.pos_of_ne_zero hfirst

/-- Only a value without groups is zero. -/
theorem magnitude_pos_iff (n : Numeric) : 0 < n.magnitude ↔ n.groups ≠ [] := by
  constructor
  · rintro h hnil
    rw [magnitude, hnil] at h
    simp at h
  · intro h
    have hfirst : 0 < n.at' 0 := n.groups_cases.resolve_left h
    have hmem : 0 ∈ range n.groups.length := mem_range.mpr (List.length_pos_iff.mpr h)
    refine lt_of_lt_of_le ?_ (single_le_sum (f := fun k : Nat => (n.at' k : ℚ) * (10000 : ℚ) ^ (n.weight - k))
      (fun k _ => by positivity) hmem)
    have hcast : (0 : ℚ) < n.at' 0 := by exact_mod_cast hfirst
    positivity

/-- It is negative if it has the sign and some group. -/
theorem value_neg_iff (n : Numeric) : n.value < 0 ↔ n.negative = true ∧ n.groups ≠ [] := by
  rw [← magnitude_pos_iff]
  have hnonneg : 0 ≤ n.magnitude := sum_nonneg fun k _ => by positivity
  unfold value
  cases n.negative with
  | false => simp [not_lt.mpr hnonneg]
  | true => simp

/-- A sign is written if some group is not zero. -/
theorem any_iff (n : Numeric) : (n.groups.map Int.ofNat).any (· ≠ 0) = true ↔ n.groups ≠ [] := by
  constructor
  · rintro h hnil
    rw [hnil] at h
    simp at h
  · intro h
    have hfirst := n.groups_cases.resolve_left h
    obtain ⟨d, ds, hgroups⟩ := List.exists_cons_of_ne_nil h
    rw [at', hgroups, List.getD_cons_zero] at hfirst
    rw [hgroups]
    simp [show d ≠ 0 by omega]

/-! ## The text -/

/-- There is always a digit in front of the point. -/
theorem wholeDigits_ne_nil (n : Numeric) : n.wholeDigits ≠ [] := by
  unfold wholeDigits
  split
  · simp
  · simp [DecimalDigits.plain_ne_nil]

/-- The parts of the text of a value. -/
def decimal (n : Numeric) : Decimal where
  negative := n.negative && !n.groups.isEmpty
  whole := n.wholeDigits
  fraction := n.fractionDigits
  whole_ne := n.wholeDigits_ne_nil
  digits := by
    intro d hd
    rcases List.mem_append.mp hd with hd | hd
    · unfold wholeDigits at hd
      split at hd
      · rw [List.mem_singleton.mp hd]
        decide
      · rcases List.mem_append.mp hd with hd | hd
        · exact DecimalDigits.plain_lt _ d hd
        · exact DecimalDigits.groups_lt _ _ d hd
    · exact DecimalDigits.groups_lt _ _ d (List.mem_of_mem_take hd)

/-- The decimal is worth the value. -/
theorem decimal_value (n : Numeric) : n.decimal.value = n.value := by
  have hmagnitude : n.decimal.magnitude = n.magnitude := by
    rw [magnitude_eq, Decimal.magnitude]
    show _ + _ / (10 : ℚ) ^ n.fractionDigits.length = _
    rw [fractionDigits_length]
    rfl
  rw [Decimal.value, value, hmagnitude]
  cases hempty : n.groups.isEmpty with
  | false => simp [decimal, hempty]
  | true =>
      have hzero : n.magnitude = 0 := by
        rw [magnitude, List.isEmpty_iff.mp hempty]
        simp
      simp [hzero]

/-- And it has its sign. -/
theorem decimal_negative_iff (n : Numeric) : n.decimal.negative = true ↔ n.value < 0 := by
  rw [value_neg_iff]
  simp [decimal]

/-- It has no leading zero. -/
theorem decimal_trimmed (n : Numeric) (h : n.groups ≠ [] ∨ n.weight ≤ 0) : n.decimal.Trimmed := by
  intro hhead
  show n.wholeDigits = [0]
  have hhead : n.wholeDigits.head? = some 0 := hhead
  by_cases hneg : n.weight < 0
  · exact if_pos hneg
  · rw [wholeDigits, if_neg hneg, List.head?_append_of_ne_nil _ (DecimalDigits.plain_ne_nil _)] at hhead
    have hfirst := DecimalDigits.plain_head _ hhead
    have hgroups : n.groups = [] := n.groups_cases.resolve_right (by omega)
    have hweight : n.weight = 0 := by
      rcases h with h | h
      · exact absurd hgroups h
      · omega
    rw [wholeDigits, if_neg hneg, hfirst, hweight, DecimalDigits.plain, if_pos (by decide)]
    rfl

/-- **THE TEXT OF A VALUE**, whatever follows its bytes. -/
theorem pgNumericToString_encode (n : Numeric) (rest : List UInt8) :
    pgNumericToString (n.encode ++ rest) = .ok (some n.decimal.text) := by
  have hsign : u16 (UInt8.ofNat ((if n.negative then 0x4000 else 0) / 256))
      (UInt8.ofNat (if n.negative then 0x4000 else 0)) = if n.negative then 0x4000 else 0 :=
    u16_be16 (by split <;> decide)
  have hbody : (n.groups.flatMap be16 ++ rest).take (2 * n.groups.length) = n.groups.flatMap be16 :=
    List.take_left' (flatMap_length _)
  have hlength : ¬ (n.groups.flatMap be16 ++ rest).length < 2 * n.groups.length := by
    rw [List.length_append, flatMap_length]
    omega
  have hfront : (if n.weight < 0 then ['0'] else whole (digitAt (n.groups.map Int.ofNat)) n.weight.toNat) =
      DecimalDigits.text n.wholeDigits := by
    unfold wholeDigits
    split
    · rfl
    · exact whole_eq n.at'_lt (fun k => by rw [digitAt_map, at'_eq]) _
  have hfraction : fraction (digitAt (n.groups.map Int.ofNat)) n.weight ((n.dscale + 3) / 4) =
      some (DecimalDigits.text (DecimalDigits.groups n.behind n.shown)) := by
    refine fraction_eq n.behind_lt (fun m => ?_) n.weight_range ?_
    · rw [digitAt_map, behind, show n.weight + ((m : Int) + 1) = n.weight + 1 + m by omega]
    · have := n.dscale_range
      omega
  have hminus : (if (if n.negative then 0x4000 else 0) = 0x4000 ∧
      (n.groups.map Int.ofNat).any (· ≠ 0) then ['-'] else []) =
        if n.decimal.negative then ['-'] else [] := by
    have hiff := n.any_iff
    have hdecimal : n.decimal.negative = true ↔ n.negative = true ∧ n.groups ≠ [] := by simp [decimal]
    simp only [hiff, hdecimal]
    cases n.negative <;> simp
  have hascii : ∀ c ∈ DecimalDigits.text (DecimalDigits.groups n.behind n.shown), c.utf8Size = 1 := by
    intro c hc
    obtain ⟨d, hd, rfl⟩ := List.mem_map.mp hc
    exact digitChar_utf8Size d (DecimalDigits.groups_lt _ _ d hd)
  have hcut : (DecimalDigits.text (DecimalDigits.groups n.behind n.shown)).take n.dscale =
      DecimalDigits.text n.fractionDigits := List.map_take.symm
  show pgNumericToString (_ :: _ :: _ :: _ :: _ :: _ :: _ :: _ :: (n.groups.flatMap be16 ++ rest)) = _
  rw [pgNumericToString]
  simp only [u16_be16 n.length_range, u16_be16 n.dscale_range, i16_be16 n.weight_range, hsign, hbody,
    pairs_flatMap n.group_range, hfront, hfraction, hminus]
  rw [if_neg (by split <;> decide), if_neg (by split <;> decide), if_neg (by split <;> decide),
    if_neg (by cases n.negative <;> decide), if_neg hlength]
  by_cases hscale : n.dscale = 0
  · have hnil : n.decimal.fraction = [] := List.length_eq_zero_iff.mp (n.fractionDigits_length.trans hscale)
    rw [if_pos hscale, Decimal.text, if_pos hnil, List.append_nil]
    rfl
  · have hcons : n.decimal.fraction ≠ [] := by
      intro hnil
      exact hscale (n.fractionDigits_length.symm.trans (List.length_eq_zero_iff.mpr hnil))
    rw [if_neg hscale, truncate_ascii hascii, hcut, Decimal.text, if_neg hcons]
    rfl

end Numeric

open Numeric

/-- **A NUMERIC IS DECODED EXACTLY**: no bytes panic, and the text of a well-formed value denotes it, with as
    many digits behind the point as its scale says, a sign if it is below zero and, unless it is the zero of
    a positive weight, no zero too many in front. -/
theorem numeric_exact :
    (∀ bytes, ∃ r, pgNumericToString bytes = .ok r) ∧
    ∀ (n : Numeric) (rest : List UInt8), ∃ d : Decimal,
      pgNumericToString (n.encode ++ rest) = .ok (some d.text) ∧ d.value = n.value ∧
      d.fraction.length = n.dscale ∧ (d.negative = true ↔ n.value < 0) ∧
      (n.groups ≠ [] ∨ n.weight ≤ 0 → d.Trimmed) := by
  refine ⟨pgNumericToString_returns, fun n rest => ⟨n.decimal, pgNumericToString_encode n rest, ?_, ?_, ?_, ?_⟩⟩
  · exact n.decimal_value
  · exact n.fractionDigits_length
  · exact n.decimal_negative_iff
  · exact n.decimal_trimmed

/-- The digits of 12.50 end at its scale: those behind it in the second group are zeros, and there
    is no third group. -/
theorem twelveFifty_scaled :
    ∀ i ≥ 2, DecimalDigits.digit (fun m => groupAt [12, 5000] (0 + 1 + m)) i = 0 := by
  intro i hi
  have hgroup : ∀ m, 1 ≤ m → groupAt [12, 5000] ((0 : Int) + 1 + (m : Int)) = 0 := by
    intro m hm
    rw [groupAt, if_neg (by omega), List.getD_eq_default _ _ (by simp; omega)]
  rw [DecimalDigits.digit]
  rcases Nat.lt_or_ge i 4 with hlt | hge
  · interval_cases i <;> rfl
  · rw [hgroup _ (by omega), Nat.zero_div]

/-- -12.50 is sent in two groups. -/
example : ∃ n : Numeric, n.encode = [0, 2, 0, 0, 64, 0, 0, 2, 0, 12, 19, 136] ∧ n.value = -25 / 2 ∧
    pgNumericToString n.encode = .ok (some "-12.50".toList) := by
  refine ⟨⟨true, 0, 2, [12, 5000], by decide, by decide, by decide, by decide, by decide,
    twelveFifty_scaled⟩, by rfl, ?_, by rfl⟩
  simp [Numeric.value, Numeric.magnitude, Finset.sum_range_succ]
  norm_num

/-- A zero that is sent with the weight 1. -/
def heavyZero : Numeric where
  negative := false
  weight := 1
  dscale := 0
  groups := []
  weight_range := by decide
  dscale_range := by decide
  length_range := by decide
  group_range := by simp
  first_ne := by simp
  scaled := by simp [groupAt, DecimalDigits.digit]

/-- It is written as five zeros. -/
theorem heavyZero_text :
    pgNumericToString heavyZero.encode = .ok (some ['0', '0', '0', '0', '0']) ∧
      ¬ ∃ d : Decimal, d.text = ['0', '0', '0', '0', '0'] ∧ d.fraction.length = heavyZero.dscale ∧ d.Trimmed := by
  refine ⟨by rfl, ?_⟩
  rintro ⟨d, htext, hlength, htrimmed⟩
  have hfraction : d.fraction = [] := List.length_eq_zero_iff.mp hlength
  have hwhole : (if d.negative then ['-'] else []) ++ DecimalDigits.text d.whole = ['0', '0', '0', '0', '0'] := by
    rw [Decimal.text, if_pos hfraction, List.append_nil] at htext
    exact htext
  have hdigits : DecimalDigits.text d.whole = ['0', '0', '0', '0', '0'] := by
    cases hneg : d.negative with
    | false => simpa [hneg] using hwhole
    | true => simp [hneg] at hwhole
  obtain ⟨e, es, hes⟩ := List.exists_cons_of_ne_nil d.whole_ne
  have hlt : e < 10 := d.digits e (by simp [hes])
  rw [hes, DecimalDigits.text, List.map_cons] at hdigits
  obtain ⟨hfirst, hrest⟩ := List.cons.inj hdigits
  have hzero : ∀ a < 10, Nat.digitChar a = '0' → a = 0 := by decide
  have hone := htrimmed (by rw [hes, hzero e hlt hfirst]; rfl)
  rw [hes] at hone
  rw [(List.cons.inj hone).2] at hrest
  exact absurd hrest (by simp)

end Greentic.Sql
