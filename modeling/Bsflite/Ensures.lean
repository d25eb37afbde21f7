import Mathlib.Tactic

/-!
# Bsflite.Ensures

What a computation that may fail leaves when it does not.  `Ensures x P` says
that every value `x` returns is one of `P`; the lemmas follow a computation
from its first step to its last, and say nothing about the runs that fail.
-/

namespace Bsflite

/-- Whatever the computation returns is one of `P`. -/
def Ensures {ε α : Type*} (x : Except ε α) (P : α → Prop) : Prop := ∀ a, x = .ok a → P a

namespace Ensures

variable {ε α β ι : Type} {P : α → Prop} {Q : β → Prop} {x : Except ε α}

theorem ok {a : α} (h : P a) : Ensures (.ok a : Except ε α) P := by
  intro b hb
  cases hb
  exact h

theorem pure {a : α} (h : P a) : Ensures (Pure.pure a : Except ε α) P := ok h

theorem error {e : ε} : Ensures (.error e : Except ε α) P := by
  intro b hb
  cases hb

theorem mono {P' : α → Prop} (h : Ensures x P) (himp : ∀ a, P a → P' a) : Ensures x P' :=
  fun a ha => himp a (h a ha)

/-- What follows starts from what the first part leaves. -/
theorem bind {f : α → Except ε β} (h : Ensures x P) (hf : ∀ a, P a → Ensures (f a) Q) :
    Ensures (x >>= f) Q := by
  cases hx : x with
  | error e => exact error
  | ok a => exact hf a (h a hx)

/-- What follows a read may use what was read. -/
theorem read {f : α → Except ε β} (hf : ∀ a, x = .ok a → Ensures (f a) Q) :
    Ensures (x >>= f) Q := bind (P := fun a => x = .ok a) (fun _ h => h) hf

theorem ite {c : Prop} [Decidable c] {y : Except ε α} (hx : c → Ensures x P)
    (hy : ¬ c → Ensures y P) : Ensures (if c then x else y) P := by
  split
  · next hc => exact hx hc
  · next hc => exact hy hc

/-- A loop keeps what its steps keep. -/
theorem foldlM {f : β → ι → Except ε β} (hstep : ∀ b i, Q b → Ensures (f b i) Q) (is : List ι)
    {b : β} (h : Q b) : Ensures (is.foldlM f b) Q := by
  induction is generalizing b with
  | nil => exact pure h
  | cons i is ih =>
    rw [List.foldlM_cons]
    exact bind (hstep b i h) fun b' hb' => ih hb'

end Ensures

end Bsflite
