import Mathlib.Data.List.Basic

/-!
# Bsflite.Fifo

Queues that lose nothing.  What was in a queue and what it took in is, in this
order, what it gave out and what is still in it; a run of such steps is such a
step (`Passes.trans`), and so is what a filter lets through (`Passes.filterMap`).
-/

namespace Bsflite

/-- A queue that held `q` took in `ins`, gave out `outs`, and holds `q'`. -/
def Passes {α : Type*} (q ins outs q' : List α) : Prop := q ++ ins = outs ++ q'

namespace Passes

variable {α β : Type*} {q q' q'' ins ins' outs outs' : List α}

/-- Nothing happens. -/
theorem refl (q : List α) : Passes q [] [] q := List.append_nil q

/-- Something is put at the end. -/
theorem push (q ins : List α) : Passes q ins [] (q ++ ins) := rfl

/-- The first one is taken, and something is put at the end. -/
theorem pop (x : α) (q ins : List α) : Passes (x :: q) ins [x] (q ++ ins) := rfl

/-- One step after the other. -/
theorem trans (h1 : Passes q ins outs q') (h2 : Passes q' ins' outs' q'') :
    Passes q (ins ++ ins') (outs ++ outs') q'' := by
  rw [Passes, ← List.append_assoc, h1, List.append_assoc, h2, List.append_assoc]

/-- What a filter lets through is a queue as well. -/
theorem filterMap (f : α → Option β) (h : Passes q ins outs q') :
    Passes (q.filterMap f) (ins.filterMap f) (outs.filterMap f) (q'.filterMap f) := by
  rw [Passes, ← List.filterMap_append, h, List.filterMap_append]

end Passes

end Bsflite
