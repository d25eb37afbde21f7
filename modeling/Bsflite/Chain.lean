import Mathlib.Data.List.Nodup
import Mathlib.Logic.Function.Basic

/-!
# Bsflite.Chain

Singly linked lists in a heap of nodes, over an arbitrary type of values.

`Linked h head xs tail` says that from `head` the nodes `xs`, pointers with
values, follow each other up to the pointer `tail`.

* `Linked.frame` — a chain only depends on its own nodes.
* `lastFrom_eq` — the walk to the end of a list.
* `Linked.snoc`, `Linked.drop_head`, `Linked.unlink` — a node is linked to the end,
  taken off the front, or unlinked behind another.
-/

namespace Bsflite.Chain

/-- The address of a node. -/
abbrev Ptr := Nat

/-- A node of a singly linked list. -/
structure Node (α : Type) where
  val : α
  next : Option Ptr
deriving DecidableEq, Repr

/-- The node at an address, if there is one. -/
abbrev Heap (α : Type) := Ptr → Option (Node α)

section
variable {α : Type}

/-- Follow `next` to the last node; the fuel bounds the number of nodes. -/
def lastFrom (h : Heap α) : Nat → Ptr → Option Ptr
  | 0, _ => none
  | fuel + 1, p => do
    let n ← h p
    match n.next with
    | none => some p
    | some q => lastFrom h fuel q

/-- The nodes `xs` from `head` on, and the pointer behind them. -/
def Linked (h : Heap α) : Option Ptr → List (Ptr × α) → Option Ptr → Prop
  | head, [], tail => head = tail
  | head, (p, a) :: xs, tail => head = some p ∧ ∃ next, h p = some ⟨a, next⟩ ∧ Linked h next xs tail

variable {h h' : Heap α} {head tail : Option Ptr} {xs ys : List (Ptr × α)} {p q : Ptr} {a b : α}

theorem linked_append :
    Linked h head (xs ++ ys) tail ↔ ∃ mid, Linked h head xs mid ∧ Linked h mid ys tail := by
  induction xs generalizing head with
  | nil => simp [Linked]
  | cons x xs ih =>
      obtain ⟨p, a⟩ := x
      simp only [List.cons_append, Linked, ih]
      constructor
      · rintro ⟨rfl, next, hnode, mid, hxs, hys⟩
        exact ⟨mid, ⟨rfl, next, hnode, hxs⟩, hys⟩
      · rintro ⟨mid, ⟨rfl, next, hnode, hxs⟩, hys⟩
        exact ⟨rfl, next, hnode, mid, hxs, hys⟩

/-- The head of a list. -/
theorem Linked.head_eq (hl : Linked h head xs none) : head = xs.head?.map Prod.fst := by
  cases xs with
  | nil => exact hl
  | cons x xs => exact hl.1

/-- A chain only depends on its own nodes. -/
theorem Linked.frame (hl : Linked h head xs tail) (hsame : ∀ p ∈ xs.map Prod.fst, h' p = h p) :
    Linked h' head xs tail := by
  induction xs generalizing head with
  | nil => exact hl
  | cons x xs ih =>
      obtain ⟨p, a⟩ := x
      obtain ⟨rfl, next, hnode, hrest⟩ := hl
      rw [List.map_cons, List.forall_mem_cons] at hsame
      exact ⟨rfl, next, hsame.1.trans hnode, ih hrest hsame.2⟩

/-- A head leads to one list. -/
theorem Linked.unique (hxs : Linked h head xs none) (hys : Linked h head ys none) : xs = ys := by
  induction xs generalizing head ys with
  | nil =>
      cases ys with
      | nil => rfl
      | cons y ys => exact absurd (hxs.symm.trans hys.1) (Option.some_ne_none y.1).symm
  | cons x xs ih =>
      obtain ⟨p, a⟩ := x
      obtain ⟨rfl, next, hnode, hrest⟩ := hxs
      cases ys with
      | nil => exact absurd hys (Option.some_ne_none p)
      | cons y ys =>
          obtain ⟨q, b⟩ := y
          obtain ⟨hpq, next', hnode', hrest'⟩ := hys
          obtain rfl := Option.some.inj hpq
          rw [hnode] at hnode'
          cases hnode'
          rw [ih hrest hrest']

/-- A store elsewhere. -/
theorem Linked.update (hl : Linked h head xs tail) (hp : p ∉ xs.map Prod.fst)
    (n : Option (Node α)) : Linked (Function.update h p n) head xs tail :=
  hl.frame fun q hq => Function.update_of_ne (fun heq : q = p => hp (heq ▸ hq)) n h

/-- The node in the middle of a chain. -/
theorem Linked.split (hl : Linked h head (xs ++ (p, a) :: ys) tail) :
    Linked h head xs (some p) ∧ ∃ next, h p = some ⟨a, next⟩ ∧ Linked h next ys tail := by
  obtain ⟨mid, hxs, rfl, hrest⟩ := linked_append.mp hl
  exact ⟨hxs, hrest⟩

/-- The walk to the end reaches the last node. -/
theorem lastFrom_eq (hl : Linked h (some p) (xs ++ [(q, a)]) none) {fuel : Nat}
    (hfuel : xs.length < fuel) : lastFrom h fuel p = some q := by
  induction xs generalizing p fuel with
  | nil =>
      obtain ⟨hp, next, hnode, rfl⟩ := hl
      obtain rfl := Option.some.inj hp
      obtain ⟨fuel, rfl⟩ : ∃ k, fuel = k + 1 := ⟨fuel - 1, by omega⟩
      simp [lastFrom, hnode]
  | cons x xs ih =>
      obtain ⟨p', a'⟩ := x
      obtain ⟨hp, next, hnode, hrest⟩ := hl
      obtain rfl := Option.some.inj hp
      obtain ⟨fuel, rfl⟩ : ∃ k, fuel = k + 1 := ⟨fuel - 1, by omega⟩
      rw [List.length_cons] at hfuel
      cases next with
      | none =>
          cases xs with
          | nil => exact absurd hrest.1 (Option.some_ne_none q).symm
          | cons y xs => exact absurd hrest.1 (Option.some_ne_none y.1).symm
      | some next => simpa [lastFrom, hnode] using ih hrest (by omega)

/-- A new node behind the last one. -/
theorem Linked.snoc (hl : Linked h head (xs ++ [(p, a)]) none) (hp : p ∉ xs.map Prod.fst)
    (hq : q ∉ (xs ++ [(p, a)]).map Prod.fst) :
    Linked (Function.update (Function.update h p (some ⟨a, some q⟩)) q (some ⟨b, none⟩)) head
      (xs ++ [(p, a)] ++ [(q, b)]) none := by
  obtain ⟨hxs, next, -, -⟩ := hl.split
  have hpq : p ≠ q := by
    rintro rfl
    simp at hq
  have hqxs : q ∉ xs.map Prod.fst := fun hmem => hq (by simp [hmem])
  rw [List.append_assoc, linked_append]
  refine ⟨some p, (hxs.update hp _).update hqxs _, rfl, some q, ?_, rfl, none, ?_, rfl⟩
  · rw [Function.update_of_ne hpq, Function.update_self]
  · rw [Function.update_self]

/-- The first node is given back. -/
theorem Linked.drop_head (hl : Linked h head ((p, a) :: xs) tail) (hp : p ∉ xs.map Prod.fst) :
    ∃ next, h p = some ⟨a, next⟩ ∧ Linked (Function.update h p none) next xs tail := by
  obtain ⟨-, next, hnode, hxs⟩ := hl
  exact ⟨next, hnode, hxs.update hp none⟩

/-- The node behind another is unlinked and given back. -/
theorem Linked.unlink (hl : Linked h head (xs ++ (p, a) :: (q, b) :: ys) tail)
    (hnodup : ((xs ++ (p, a) :: (q, b) :: ys).map Prod.fst).Nodup) :
    ∃ next, h p = some ⟨a, some q⟩ ∧ h q = some ⟨b, next⟩ ∧ Linked h next ys tail ∧
      Linked (Function.update (Function.update h p (some ⟨a, next⟩)) q none) head
        (xs ++ (p, a) :: ys) tail := by
  obtain ⟨hxs, mid, hnode, rfl, next, hnode', hys⟩ := hl.split
  simp only [List.map_append, List.map_cons, List.nodup_append, List.nodup_cons, List.mem_cons,
    not_or] at hnodup
  obtain ⟨-, ⟨⟨hpq, hpys⟩, hqys, -⟩, hdisj⟩ := hnodup
  have hpxs : p ∉ xs.map Prod.fst := fun hmem => hdisj p hmem p (.inl rfl) rfl
  have hqxs : q ∉ xs.map Prod.fst := fun hmem => hdisj q hmem q (.inr (.inl rfl)) rfl
  refine ⟨next, hnode, hnode', hys,
    linked_append.mpr ⟨some p, (hxs.update hpxs _).update hqxs _, rfl, next, ?_,
      (hys.update hpys _).update hqys _⟩⟩
  rw [Function.update_of_ne hpq, Function.update_self]

end

end Bsflite.Chain
