import Mathlib

/-! # Reading a text token by token

    A lexer cuts one token off the front of a text that is not empty.  What it reads is a list of
    tokens, and a PREFIX OF THE READING is a judgement with the rest of the text in it:

    * `Reads.split`, `Reads.append` — a reading is cut anywhere, and readings are put together;
    * `Reads.transfer` — a second lexer that agrees on every token read reads the same. -/

namespace Lexing

variable {α T : Type}

/-- The next token of a text `c :: s`, and the text behind it. -/
structure Lexer (α T : Type) where
  next : α → List α → T × List α
  shorter : ∀ c s, (next c s).2.length ≤ s.length

namespace Lexer

/-- The tokens of a text, at most `n` of them. -/
def tokensUpTo (L : Lexer α T) : Nat → List α → List T
  | 0, _ => []
  | _ + 1, [] => []
  | n + 1, c :: s => (L.next c s).1 :: L.tokensUpTo n (L.next c s).2

/-- The tokens of a text: never more than it has letters. -/
def tokens (L : Lexer α T) (s : List α) : List T := L.tokensUpTo s.length s

variable {L : Lexer α T} {s : List α} {c : α}

/-- The length of the text is fuel enough. -/
theorem tokensUpTo_enough {n : Nat} (h : s.length ≤ n) : L.tokensUpTo n s = L.tokens s := by
  -- both bounds are spent on the same tokens, so the induction is on the larger one
  induction n using Nat.strongRecOn generalizing s with
  | ind n ih =>
      cases s with
      | nil => cases n <;> rfl
      | cons c s =>
          obtain ⟨n, rfl⟩ : ∃ m, n = m + 1 := ⟨n - 1, by simp only [List.length_cons] at h; omega⟩
          have hle : s.length ≤ n := Nat.le_of_succ_le_succ h
          have hrest : L.tokensUpTo n (L.next c s).2 = L.tokens (L.next c s).2 :=
            ih n (by omega) (Nat.le_trans (L.shorter c s) hle)
          have hself : L.tokensUpTo s.length (L.next c s).2 = L.tokens (L.next c s).2 :=
            ih s.length (by omega) (L.shorter c s)
          show (L.next c s).1 :: L.tokensUpTo n (L.next c s).2 =
            (L.next c s).1 :: L.tokensUpTo s.length (L.next c s).2
          rw [hrest, hself]

/-- The empty text has no token. -/
@[simp] theorem tokens_nil : L.tokens [] = [] := rfl

theorem tokens_cons : L.tokens (c :: s) = (L.next c s).1 :: L.tokens (L.next c s).2 := by
  show (L.next c s).1 :: L.tokensUpTo s.length (L.next c s).2 = _
  rw [tokensUpTo_enough (L.shorter c s)]

end Lexer

/-- From `s` the tokens `ts` are read, and `rest` is left. -/
inductive Reads (L : Lexer α T) : List α → List T → List α → Prop where
  | done {s} : Reads L s [] s
  | token {c s ts rest} (h : Reads L (L.next c s).2 ts rest) : Reads L (c :: s) ((L.next c s).1 :: ts) rest

namespace Reads

variable {L M : Lexer α T} {s mid rest rest' : List α} {ts us : List T} {t : T} {c : α}

/-- Reading no token leaves the text. -/
theorem nil (h : Reads L s [] rest) : rest = s := by
  cases h
  rfl

theorem one : Reads L (c :: s) [(L.next c s).1] (L.next c s).2 := .token .done

/-- Reading on. -/
theorem append (h : Reads L s ts mid) (h' : Reads L mid us rest) : Reads L s (ts ++ us) rest := by
  induction h with
  | done => exact h'
  | token _ ih => exact .token (ih h')

/-- The tokens of the text are those read and those of the rest. -/
theorem tokens_eq (h : Reads L s ts rest) : L.tokens s = ts ++ L.tokens rest := by
  induction h with
  | done => rfl
  | token _ ih => rw [Lexer.tokens_cons, ih, List.cons_append]

/-- A reading is cut anywhere. -/
theorem split (h : L.tokens s = ts ++ us) : ∃ rest, Reads L s ts rest ∧ L.tokens rest = us := by
  induction ts generalizing s with
  | nil => exact ⟨s, .done, h⟩
  | cons t ts ih =>
      cases s with
      | nil => exact absurd h (by simp)
      | cons c s =>
          rw [Lexer.tokens_cons, List.cons_append] at h
          obtain ⟨rfl, htail⟩ := List.cons.inj h
          obtain ⟨rest, hread, hrest⟩ := ih htail
          exact ⟨rest, .token hread, hrest⟩

/-- Reading all. -/
theorem all : Reads L s (L.tokens s) [] := by
  obtain ⟨rest, hread, hrest⟩ : ∃ rest, Reads L s (L.tokens s) rest ∧ L.tokens rest = [] :=
    split (List.append_nil _).symm
  cases rest with
  | nil => exact hread
  | cons c rest =>
      rw [Lexer.tokens_cons] at hrest
      exact absurd hrest (by simp)

/-- The last token is the first one, or it lies behind the first one. -/
theorem snoc_cons {u : T} {r : List α} (hnext : L.next c s = (u, r)) :
    Reads L (c :: s) (ts ++ [t]) rest ↔
      (ts = [] ∧ t = u ∧ rest = r) ∨ ∃ us, ts = u :: us ∧ Reads L r (us ++ [t]) rest := by
  constructor
  · intro h
    cases ts with
    | nil =>
        cases h with
        | token h => exact .inl ⟨rfl, by rw [hnext], by rw [h.nil, hnext]⟩
    | cons v ts =>
        cases h with
        | token h =>
            rw [hnext] at h ⊢
            exact .inr ⟨ts, rfl, h⟩
  · rintro (⟨rfl, rfl, rfl⟩ | ⟨us, rfl, h⟩)
    · have hone : Reads L (c :: s) [(L.next c s).1] (L.next c s).2 := .one
      rwa [hnext] at hone
    · have hcons : Reads L (c :: s) ((L.next c s).1 :: (us ++ [t])) rest := .token (by rwa [hnext])
      rwa [hnext] at hcons

/-- **AGREEMENT.**  A lexer that takes the same token wherever one of `p` is taken reads the same, as long as
    the tokens are of `p`. -/
theorem transfer {p : T → Prop} (hagree : ∀ c s, p (L.next c s).1 → M.next c s = L.next c s)
    (h : Reads L s ts rest) (hp : ∀ t ∈ ts, p t) : Reads M s ts rest := by
  induction h with
  | done => exact .done
  | @token c s ts rest _ ih =>
      have hsame := hagree c s (hp _ List.mem_cons_self)
      have htail := ih fun t ht => hp t (List.mem_cons_of_mem _ ht)
      rw [← hsame] at htail ⊢
      exact .token htail

end Reads

end Lexing
