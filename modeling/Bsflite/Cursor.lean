/-!
# Bsflite.Cursor

A cursor that walks over the positions below `len` and is kept modulo `M`: at
`x` it moves on by `step x`.  `offset x n` is where it would be after `n` steps
from `x` if it were not.

* `le_offset` — how far the steps lead, when every step has a least size.
* `leaves_iff_offset` — the walk goes on behind the steps that lead from
  position to position.
* `not_leaves_of_back` — a walk that comes back to a position it was at.
-/

namespace Bsflite.Cursor

variable (step : Nat → Nat) (M len : Nat)

/-- The walk from `x` is behind the end after `n` steps. -/
inductive Leaves : Nat → Nat → Prop where
  | out {x : Nat} (h : len ≤ x) : Leaves x 0
  | move {x n : Nat} (h : x < len) (rest : Leaves ((x + step x) % M) n) : Leaves x (n + 1)

/-- The position after `n` steps from `x`, without the modulus. -/
def offset (x : Nat) : Nat → Nat
  | 0 => x
  | n + 1 => offset x n + step (offset x n)

variable {step M len}

/-! ## positions without the modulus -/

theorem offset_add (x k n : Nat) : offset step x (k + n) = offset step (offset step x k) n := by
  induction n with
  | zero => rfl
  | succ n ih => rw [← Nat.add_assoc, offset, offset, ih]

/-- The first step in front. -/
theorem offset_succ (x n : Nat) : offset step x (n + 1) = offset step (x + step x) n := by
  rw [Nat.add_comm]
  exact offset_add x 1 n

theorem le_offset {s : Nat} (hs : ∀ x, s ≤ step x) (x n : Nat) : x + s * n ≤ offset step x n := by
  induction n with
  | zero => exact Nat.le_refl x
  | succ n ih =>
      have hstep := hs (offset step x n)
      rw [offset, Nat.mul_succ]
      omega

/-! ## the walk -/

/-- **The walk behind `n` steps** that begin at positions: where they lead, it
is taken modulo `M`. -/
theorem leaves_iff_offset (hlen : len ≤ M) {x n : Nat} (hx : x < M)
    (hbelow : ∀ k < n, offset step x k < len) (m : Nat) :
    Leaves step M len x m ↔ ∃ m', m = n + m' ∧ Leaves step M len (offset step x n % M) m' := by
  induction n generalizing x m with
  | zero =>
      rw [offset, Nat.mod_eq_of_lt hx]
      exact ⟨fun h => ⟨m, (Nat.zero_add m).symm, h⟩, fun ⟨m', hm, h⟩ => by rwa [hm, Nat.zero_add]⟩
  | succ n ih =>
      have hlt : x < len := hbelow 0 (Nat.succ_pos n)
      -- the walk from the next position, whether the modulus is reached there or not
      have hnext (m : Nat) : Leaves step M len ((x + step x) % M) m ↔
          ∃ m', m = n + m' ∧ Leaves step M len (offset step x (n + 1) % M) m' := by
        have hbelow' (k : Nat) (hk : k < n) : offset step (x + step x) k < len := by
          rw [← offset_succ]
          exact hbelow (k + 1) (Nat.succ_lt_succ hk)
        rw [offset_succ]
        by_cases hwrap : x + step x < M
        · rw [Nat.mod_eq_of_lt hwrap]
          exact ih hwrap hbelow' m
        · -- it can be reached by the last step only
          have hn : n = 0 := by
            rcases Nat.eq_zero_or_pos n with hn | hn
            · exact hn
            · have hfirst : x + step x < len := hbelow' 0 hn
              omega
          subst hn
          simp [offset]
      constructor
      · intro h
        cases h with
        | out hle => omega
        | move _ rest =>
            obtain ⟨m', rfl, h'⟩ := (hnext _).mp rest
            exact ⟨m', Nat.add_right_comm n m' 1, h'⟩
      · rintro ⟨m', rfl, h'⟩
        rw [Nat.add_right_comm]
        exact .move hlt ((hnext _).mpr ⟨m', rfl, h'⟩)

/-- **A walk that comes back** never ends: behind every end of it there would
be an earlier one. -/
theorem not_leaves_of_back (hlen : len ≤ M) {x k n : Nat} (hx : x < M) (hk : k < n)
    (hbelow : ∀ i < n, offset step x i < len) (hback : offset step x n % M = offset step x k)
    (m : Nat) : ¬ Leaves step M len x m := by
  have hpos : offset step x k < M := Nat.lt_of_lt_of_le (hbelow k hk) hlen
  obtain ⟨d, rfl⟩ := Nat.exists_eq_add_of_lt hk
  rw [Nat.add_assoc, offset_add] at hback
  have hround (i : Nat) (hi : i < d + 1) : offset step (offset step x k) i < len := by
    rw [← offset_add]
    exact hbelow (k + i) (by omega)
  have hnever (m : Nat) : ¬ Leaves step M len (offset step x k) m := by
    induction m using Nat.strongRecOn with
    | _ m ih =>
      intro h
      obtain ⟨m', rfl, h'⟩ := (leaves_iff_offset hlen hpos hround m).mp h
      rw [hback] at h'
      exact ih m' (by omega) h'
  have hbefore (i : Nat) (hi : i < k) : offset step x i < len := hbelow i (by omega)
  intro h
  obtain ⟨m', -, h'⟩ := (leaves_iff_offset hlen hx hbefore m).mp h
  rw [Nat.mod_eq_of_lt hpos] at h'
  exact hnever m' h'

end Bsflite.Cursor
