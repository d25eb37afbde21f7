import Bsflite.Bytes

/-!
# Bsflite.Absorb

A message taken in blocks of a fixed size, as digests take theirs.

`absorb` runs a state over the whole blocks of a message and `rest` is what is
left behind the last of them.  Both go through an append, so a message may
arrive in any pieces: a state and the bytes it still waits to complete are all
that has to be kept in between.
-/

namespace Bsflite.Absorb

variable {α σ : Type*} (n : Nat) (k : σ → List α → σ)

/-- Run `k` over the first blocks of a message, as many as asked. -/
def absorbN : Nat → σ → List α → σ
  | 0, s, _ => s
  | m + 1, s, xs => absorbN m (k s (xs.take n)) (xs.drop n)

/-- Run `k` over the whole blocks of a message. -/
def absorb (s : σ) (xs : List α) : σ := absorbN n k (xs.length / n) s xs

/-- What the whole blocks of a message leave. -/
def rest (xs : List α) : List α := xs.drop (xs.length / n * n)

variable {n}

theorem length_rest (xs : List α) : (rest n xs).length = xs.length % n := by
  have h := Nat.div_add_mod' xs.length n
  rw [rest, List.length_drop]
  omega

/-- A message shorter than a block waits. -/
theorem rest_of_lt {xs : List α} (h : xs.length < n) : rest n xs = xs := by
  rw [rest, Nat.div_eq_of_lt h, Nat.zero_mul, List.drop_zero]

theorem absorb_of_lt (s : σ) {xs : List α} (h : xs.length < n) : absorb n k s xs = s := by
  rw [absorb, Nat.div_eq_of_lt h, absorbN]

/-- The bytes behind the blocks do not matter. -/
theorem absorbN_append {m : Nat} (s : σ) {xs : List α} (h : m * n ≤ xs.length) (ys : List α) :
    absorbN n k m s (xs ++ ys) = absorbN n k m s xs := by
  induction m generalizing s xs with
  | zero => rfl
  | succ m ih =>
    rw [Nat.succ_mul] at h
    have hn : n ≤ xs.length := by omega
    rw [absorbN, absorbN, List.take_append_of_le_length hn, List.drop_append_of_le_length hn]
    exact ih _ (by rw [List.length_drop]; omega)

/-- More blocks are taken from where the first ones ended. -/
theorem absorbN_add (m m' : Nat) (s : σ) (xs : List α) :
    absorbN n k (m + m') s xs = absorbN n k m' (absorbN n k m s xs) (xs.drop (m * n)) := by
  induction m generalizing s xs with
  | zero => simp [absorbN]
  | succ m ih =>
    have hdrop : (xs.drop n).drop (m * n) = xs.drop ((m + 1) * n) := by
      rw [List.drop_drop, Nat.succ_mul, Nat.add_comm]
    rw [Nat.succ_add, absorbN, absorbN, ih, hdrop]

section
variable (hn : 0 < n)
include hn

/-- One block, then the others. -/
theorem absorb_block (s : σ) {xs : List α} (h : xs.length = n) (ys : List α) :
    absorb n k s (xs ++ ys) = absorb n k (k s xs) ys := by
  have hdiv : (xs ++ ys).length / n = ys.length / n + 1 := by
    rw [List.length_append, h, Nat.add_div_left _ hn]
  rw [absorb, hdiv, absorbN, take_append_of_length h, drop_append_of_length h, absorb]

theorem rest_block {xs : List α} (h : xs.length = n) (ys : List α) :
    rest n (xs ++ ys) = rest n ys := by
  have hdiv : (xs ++ ys).length / n = ys.length / n + 1 := by
    rw [List.length_append, h, Nat.add_div_left _ hn]
  rw [rest, hdiv, Nat.succ_mul, Nat.add_comm, ← List.drop_drop, drop_append_of_length h, rest]

/-- A longer message goes on from what a shorter one left. -/
theorem absorb_append (s : σ) (xs ys : List α) :
    absorb n k s (xs ++ ys) = absorb n k (absorb n k s xs) (rest n xs ++ ys) := by
  have hle : xs.length / n * n ≤ xs.length := Nat.div_mul_le_self _ _
  have hdiv : (xs ++ ys).length / n = xs.length / n + (rest n xs ++ ys).length / n := by
    have h := Nat.div_add_mod' xs.length n
    rw [List.length_append, List.length_append, length_rest, ← Nat.mul_add_div hn]
    congr 1
    rw [Nat.mul_comm]
    omega
  rw [absorb, hdiv, absorbN_add, absorbN_append k s hle, List.drop_append_of_le_length hle]
  rfl

theorem rest_append (xs ys : List α) : rest n (xs ++ ys) = rest n (rest n xs ++ ys) := by
  have hle : xs.length / n * n ≤ xs.length := Nat.div_mul_le_self _ _
  have hdiv : (xs ++ ys).length / n = xs.length / n + (rest n xs ++ ys).length / n := by
    have h := Nat.div_add_mod' xs.length n
    rw [List.length_append, List.length_append, length_rest, ← Nat.mul_add_div hn]
    congr 1
    rw [Nat.mul_comm]
    omega
  rw [rest, hdiv, Nat.add_mul, ← List.drop_drop, List.drop_append_of_le_length hle]
  rfl

end

end Bsflite.Absorb
