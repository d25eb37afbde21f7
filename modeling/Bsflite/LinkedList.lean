import Mathlib.Data.List.Perm.Subperm
import Mathlib.Logic.Function.Basic

/-!
# Bsflite.LinkedList

Doubly linked lists in a heap of cells, over an arbitrary type of values.

The operations follow pointers and store into cells one field at a time, and
fail (`none`) at a pointer that is no cell.  `IsList h head xs` says that
`head` starts a well-linked list in `h` whose nodes are `xs`, pointers with
values.

* `Seg` — a segment of a list, and how segments compose and survive stores
  elsewhere.
* `find_eq`, `values_eq`, `lastFrom_eq` — the traversals.
* `insertAt_isList`, `unlink_isList`, `modify_isList` — what the operations do to
  the nodes.
* `insertAt_values`, `unlink_values` — the pointer work leaves the values.
-/

namespace Bsflite.LinkedList

/-- The address of a cell. -/
abbrev Ptr := Nat

/-- A node of a doubly linked list. -/
structure Cell (α : Type) where
  val : α
  next : Option Ptr
  prev : Option Ptr
deriving DecidableEq, Repr

/-- A heap: what is at an address, and the first address never handed out. -/
structure Heap (α : Type) where
  cell : Ptr → Option (Cell α)
  brk : Ptr

/-- A heap without cells. -/
def Heap.empty (α : Type) : Heap α := ⟨fun _ => none, 0⟩

section
variable {α : Type}

namespace Heap

/-- Write a cell. -/
def put (h : Heap α) (p : Ptr) (c : Cell α) : Heap α :=
  { h with cell := Function.update h.cell p (some c) }

/-- A new cell. -/
def alloc (h : Heap α) (c : Cell α) : Ptr × Heap α :=
  (h.brk, { cell := Function.update h.cell h.brk (some c), brk := h.brk + 1 })

/-- Store into the field `next` of a cell. -/
def setNext (h : Heap α) (p : Ptr) (next : Option Ptr) : Option (Heap α) :=
  (h.cell p).map fun c => h.put p { c with next := next }

/-- Store into the field `prev` of a cell. -/
def setPrev (h : Heap α) (p : Ptr) (prev : Option Ptr) : Option (Heap α) :=
  (h.cell p).map fun c => h.put p { c with prev := prev }

/-- Change the value in a cell. -/
def modify (h : Heap α) (p : Ptr) (f : α → α) : Option (Heap α) :=
  (h.cell p).map fun c => h.put p { c with val := f c.val }

/-- Give a cell back. -/
def free (h : Heap α) (p : Ptr) : Option (Heap α) :=
  (h.cell p).map fun _ => { h with cell := Function.update h.cell p none }

@[simp] theorem put_cell_self (h : Heap α) (p : Ptr) (c : Cell α) :
    (h.put p c).cell p = some c := by
  simp [put]

@[simp] theorem put_cell_of_ne (h : Heap α) {p q : Ptr} (c : Cell α) (hne : q ≠ p) :
    (h.put p c).cell q = h.cell q := by
  simp [put, hne]

end Heap

/-! ## operations -/

/-- Follow `next` to the first node with a property; the fuel bounds the
number of nodes. -/
def Heap.find (h : Heap α) (p : α → Bool) : Nat → Option Ptr → Option (Option Ptr)
  | 0, _ => none
  | _ + 1, none => some none
  | fuel + 1, some q => do
    let c ← h.cell q
    if p c.val then some (some q) else h.find p fuel c.next

/-- Follow `next` to the last node. -/
def Heap.lastFrom (h : Heap α) : Nat → Ptr → Option Ptr
  | 0, _ => none
  | fuel + 1, q => do
    let c ← h.cell q
    match c.next with
    | none => some q
    | some r => h.lastFrom fuel r

/-- Follow `next` to the end, and read the values on the way. -/
def Heap.values (h : Heap α) : Nat → Option Ptr → Option (List α)
  | 0, _ => none
  | _ + 1, none => some []
  | fuel + 1, some q => do
    let c ← h.cell q
    let rest ← h.values fuel c.next
    return c.val :: rest

/-- Link the cell `new` into a list in front of the node `at`, or at the
end. -/
def Heap.insertAt (h : Heap α) (head at' : Option Ptr) (new : Ptr) : Option (Heap α × Option Ptr) :=
  match head with
  | none => do
    let h ← h.setPrev new none
    let h ← h.setNext new none
    return (h, some new)
  | some first =>
    match at' with
    | none => do
      let last ← h.lastFrom (h.brk + 1) first
      let h ← h.setNext last (some new)
      let h ← h.setPrev new (some last)
      let h ← h.setNext new none
      return (h, head)
    | some t =>
      if t = first then do
        let h ← h.setPrev first (some new)
        let h ← h.setPrev new none
        let h ← h.setNext new (some first)
        return (h, some new)
      else do
        let c ← h.cell t
        let q ← c.prev
        let h ← h.setNext q (some new)
        let h ← h.setPrev new (some q)
        let h ← h.setNext new (some t)
        let h ← h.setPrev t (some new)
        return (h, head)

/-- Store into `prev` of a node, if there is one. -/
def Heap.setPrev? (h : Heap α) (p : Option Ptr) (prev : Option Ptr) : Option (Heap α) :=
  match p with
  | none => some h
  | some p => h.setPrev p prev

/-- Take a node out of a list and give its cell back. -/
def Heap.unlink (h : Heap α) (head : Option Ptr) (t : Ptr) : Option (Heap α × Option Ptr) := do
  let c ← h.cell t
  match c.prev with
  | none =>
    let first ← head
    let f ← h.cell first
    let h ← h.setPrev? f.next none
    let h ← h.free t
    return (h, f.next)
  | some q =>
    let h ← h.setNext q c.next
    let h ← h.setPrev? c.next (some q)
    let h ← h.free t
    return (h, head)

/-! ## segments -/

/-- From `head`, whose predecessor is `prev`, the nodes `xs` are linked up to
`last`, and the next pointer there is `tail`. -/
def Seg (h : Heap α) (prev head : Option Ptr) : List (Ptr × α) → Option Ptr → Option Ptr → Prop
  | [], last, tail => prev = last ∧ head = tail
  | (p, a) :: xs, last, tail =>
    head = some p ∧ ∃ next, h.cell p = some ⟨a, next, prev⟩ ∧ Seg h (some p) next xs last tail

theorem seg_append {h : Heap α} {prev head last tail : Option Ptr} {xs ys : List (Ptr × α)} :
    Seg h prev head (xs ++ ys) last tail ↔
      ∃ mid next, Seg h prev head xs mid next ∧ Seg h mid next ys last tail := by
  induction xs generalizing prev head with
  | nil => simp [Seg]
  | cons x xs ih =>
      obtain ⟨p, a⟩ := x
      simp only [List.cons_append, Seg, ih]
      constructor
      · rintro ⟨rfl, next, hcell, mid, next', hxs, hys⟩
        exact ⟨mid, next', ⟨rfl, next, hcell, hxs⟩, hys⟩
      · rintro ⟨mid, next', ⟨rfl, next, hcell, hxs⟩, hys⟩
        exact ⟨rfl, next, hcell, mid, next', hxs, hys⟩

theorem seg_single {h : Heap α} {prev head last tail : Option Ptr} {p : Ptr} {a : α} :
    Seg h prev head [(p, a)] last tail ↔
      head = some p ∧ last = some p ∧ h.cell p = some ⟨a, tail, prev⟩ := by
  simp only [Seg]
  constructor
  · rintro ⟨rfl, next, hcell, rfl, rfl⟩
    exact ⟨rfl, rfl, hcell⟩
  · rintro ⟨rfl, rfl, hcell⟩
    exact ⟨rfl, tail, hcell, rfl, rfl⟩

/-- A segment only depends on its own cells. -/
theorem Seg.frame {h h' : Heap α} {prev head last tail : Option Ptr} {xs : List (Ptr × α)}
    (hseg : Seg h prev head xs last tail) (hsame : ∀ p ∈ xs.map Prod.fst, h'.cell p = h.cell p) :
    Seg h' prev head xs last tail := by
  induction xs generalizing prev head with
  | nil => exact hseg
  | cons x xs ih =>
      obtain ⟨p, a⟩ := x
      obtain ⟨rfl, next, hcell, hrest⟩ := hseg
      rw [List.map_cons, List.forall_mem_cons] at hsame
      exact ⟨rfl, next, hsame.1.trans hcell, ih hrest hsame.2⟩

/-- A list: a segment from its head to a null pointer, of cells that were
handed out and differ. -/
structure IsList (h : Heap α) (head : Option Ptr) (xs : List (Ptr × α)) : Prop where
  linked : ∃ last, Seg h none head xs last none
  nodup : (xs.map Prod.fst).Nodup
  below : ∀ p ∈ xs.map Prod.fst, p < h.brk

/-- A list is not longer than the heap has handed out cells. -/
theorem IsList.length_le {h : Heap α} {head : Option Ptr} {xs : List (Ptr × α)}
    (hl : IsList h head xs) : xs.length ≤ h.brk := by
  have hsub : (xs.map Prod.fst) ⊆ List.range h.brk :=
    fun p hp => List.mem_range.mpr (hl.below p hp)
  simpa using (List.subperm_of_subset hl.nodup hsub).length_le

/-! ## traversals -/

/-- The search stops at the first node that has the property. -/
theorem Seg.find_eq {h : Heap α} (p : α → Bool) {prev head last : Option Ptr}
    {xs : List (Ptr × α)} (hseg : Seg h prev head xs last none) {fuel : Nat}
    (hfuel : xs.length < fuel) :
    h.find p fuel head = some ((xs.find? fun x => p x.2).map Prod.fst) := by
  induction xs generalizing prev head fuel with
  | nil =>
      obtain ⟨-, rfl⟩ := hseg
      obtain ⟨fuel, rfl⟩ : ∃ k, fuel = k + 1 := ⟨fuel - 1, by simp at hfuel; omega⟩
      rfl
  | cons x xs ih =>
      obtain ⟨q, a⟩ := x
      obtain ⟨rfl, next, hcell, hrest⟩ := hseg
      obtain ⟨fuel, rfl⟩ : ∃ k, fuel = k + 1 := ⟨fuel - 1, by simp at hfuel; omega⟩
      rw [Heap.find, hcell]
      simp only [Option.bind_eq_bind, Option.bind_some, List.find?_cons]
      cases hp : p a with
      | true => rfl
      | false => simpa using ih hrest (by simpa using hfuel)

theorem find_eq {h : Heap α} {head : Option Ptr} {xs : List (Ptr × α)} (hl : IsList h head xs)
    (p : α → Bool) :
    h.find p (h.brk + 1) head = some ((xs.find? fun x => p x.2).map Prod.fst) := by
  obtain ⟨last, hseg⟩ := hl.linked
  exact hseg.find_eq p (Nat.lt_succ_of_le hl.length_le)

/-- The values on the way to the end are those of the nodes. -/
theorem Seg.values_eq {h : Heap α} {prev head last : Option Ptr} {xs : List (Ptr × α)}
    (hseg : Seg h prev head xs last none) {fuel : Nat} (hfuel : xs.length < fuel) :
    h.values fuel head = some (xs.map Prod.snd) := by
  induction xs generalizing prev head fuel with
  | nil =>
      obtain ⟨-, rfl⟩ := hseg
      obtain ⟨fuel, rfl⟩ : ∃ k, fuel = k + 1 := ⟨fuel - 1, by simp at hfuel; omega⟩
      rfl
  | cons x xs ih =>
      obtain ⟨q, a⟩ := x
      obtain ⟨rfl, next, hcell, hrest⟩ := hseg
      obtain ⟨fuel, rfl⟩ : ∃ k, fuel = k + 1 := ⟨fuel - 1, by simp at hfuel; omega⟩
      simp [Heap.values, hcell, ih hrest (by simpa using hfuel)]

/-- The walk to the end reaches the last node. -/
theorem Seg.lastFrom_eq {h : Heap α} {prev last : Option Ptr} {q : Ptr} {xs : List (Ptr × α)}
    (hseg : Seg h prev (some q) xs last none) {fuel : Nat} (hfuel : xs.length ≤ fuel) :
    h.lastFrom fuel q = last := by
  induction xs generalizing prev q fuel with
  | nil => cases hseg.2
  | cons x xs ih =>
      obtain ⟨p, a⟩ := x
      obtain ⟨hq, next, hcell, hrest⟩ := hseg
      cases hq
      obtain ⟨fuel, rfl⟩ : ∃ k, fuel = k + 1 := ⟨fuel - 1, by simp at hfuel; omega⟩
      rw [Heap.lastFrom, hcell]
      cases next with
      | none =>
          cases xs with
          | nil => exact hrest.1
          | cons y xs => exact absurd hrest.1 (Option.some_ne_none y.1).symm
      | some r => exact ih hrest (by simpa using hfuel)

/-! ## stores -/

section
variable {h : Heap α} {p : Ptr} {c : Cell α}

theorem setNext_eq (hc : h.cell p = some c) (next : Option Ptr) :
    h.setNext p next = some (h.put p { c with next := next }) := by
  rw [Heap.setNext, hc, Option.map_some]

theorem setPrev_eq (hc : h.cell p = some c) (prev : Option Ptr) :
    h.setPrev p prev = some (h.put p { c with prev := prev }) := by
  rw [Heap.setPrev, hc, Option.map_some]

theorem modify_eq (hc : h.cell p = some c) (f : α → α) :
    h.modify p f = some (h.put p { c with val := f c.val }) := by
  rw [Heap.modify, hc, Option.map_some]

end

/-- A list is still there after a cell was handed out. -/
theorem alloc_isList {h : Heap α} {head : Option Ptr} {xs : List (Ptr × α)}
    (hl : IsList h head xs) (c : Cell α) : IsList (h.alloc c).2 head xs := by
  obtain ⟨last, hseg⟩ := hl.linked
  refine ⟨⟨last, hseg.frame fun p hp => ?_⟩, hl.nodup, fun p hp => ?_⟩
  · exact Function.update_of_ne (Nat.ne_of_lt (hl.below p hp)) _ _
  · exact Nat.lt_succ_of_lt (hl.below p hp)

/-- The cell that is handed out is no node. -/
theorem brk_notMem {h : Heap α} {head : Option Ptr} {xs : List (Ptr × α)} (hl : IsList h head xs) :
    h.brk ∉ xs.map Prod.fst :=
  fun hmem => Nat.lt_irrefl _ (hl.below _ hmem)

/-- The pieces of a list around a node. -/
theorem seg_around {h : Heap α} {prev head last tail : Option Ptr} {as bs : List (Ptr × α)}
    {p : Ptr} {a : α} :
    Seg h prev head (as ++ (p, a) :: bs) last tail ↔ ∃ before after,
      Seg h prev head as before (some p) ∧ h.cell p = some ⟨a, after, before⟩ ∧
        Seg h (some p) after bs last tail := by
  rw [seg_append]
  constructor
  · rintro ⟨before, next, has, rfl, after, hcell, hbs⟩
    exact ⟨before, after, has, hcell, hbs⟩
  · rintro ⟨before, after, has, hcell, hbs⟩
    exact ⟨before, some p, has, rfl, after, hcell, hbs⟩

/-! ## insertion -/

section
variable {h : Heap α} {new : Ptr} {c : Cell α} (hcell : h.cell new = some c)
include hcell

theorem insertAt_nil : ∃ h', h.insertAt none none new = some (h', some new) ∧
    Seg h' none (some new) [(new, c.val)] (some new) none ∧ h'.brk = h.brk := by
  refine ⟨(h.put new { c with prev := none }).put new ⟨c.val, none, none⟩, ?_, ?_, rfl⟩
  · rw [Heap.insertAt, setPrev_eq hcell]
    simp only [Option.bind_eq_bind, Option.bind_some]
    rw [setNext_eq (Heap.put_cell_self h new _)]
    rfl
  · exact seg_single.mpr ⟨rfl, rfl, Heap.put_cell_self _ _ _⟩

theorem insertAt_last {head before : Option Ptr} {as : List (Ptr × α)} {q : Ptr} {a : α}
    (hseg : Seg h none head (as ++ [(q, a)]) before none)
    (hlen : (as ++ [(q, a)]).length ≤ h.brk + 1)
    (hnew : new ∉ (as ++ [(q, a)]).map Prod.fst) (hq : q ∉ as.map Prod.fst) :
    ∃ h', h.insertAt head none new = some (h', head) ∧
      Seg h' none head (as ++ [(q, a)] ++ [(new, c.val)]) (some new) none ∧ h'.brk = h.brk := by
  obtain ⟨before', after, has, hcq, rfl, rfl⟩ := seg_around.mp hseg
  simp only [List.map_append, List.map_cons, List.map_nil, List.mem_append, List.mem_singleton,
    not_or] at hnew
  obtain ⟨first, hfirst⟩ : ∃ first, head = some first := by
    cases as with
    | nil => exact ⟨q, has.2⟩
    | cons x as => exact ⟨x.1, has.1⟩
  subst hfirst
  refine ⟨((h.put q ⟨a, some new, before'⟩).put new { c with prev := some q }).put new
    ⟨c.val, none, some q⟩, ?_, ?_, rfl⟩
  · rw [Heap.insertAt]
    simp only [hseg.lastFrom_eq hlen, Option.bind_eq_bind, Option.bind_some]
    rw [setNext_eq hcq]
    simp only [Option.bind_some]
    rw [setPrev_eq (c := c) (by rw [Heap.put_cell_of_ne _ _ hnew.2, hcell])]
    simp only [Option.bind_some]
    rw [setNext_eq (Heap.put_cell_self _ new _)]
    rfl
  · rw [List.append_assoc]
    refine seg_around.mpr ⟨before', some new, has.frame ?_, ?_, ?_⟩
    · intro p hp
      have hpn : p ≠ new := fun heq => hnew.1 (heq ▸ hp)
      have hpq : p ≠ q := fun heq => hq (heq ▸ hp)
      rw [Heap.put_cell_of_ne _ _ hpn, Heap.put_cell_of_ne _ _ hpn, Heap.put_cell_of_ne _ _ hpq]
    · have hqn : q ≠ new := fun heq => hnew.2 heq.symm
      rw [Heap.put_cell_of_ne _ _ hqn, Heap.put_cell_of_ne _ _ hqn, Heap.put_cell_self]
    · exact seg_single.mpr ⟨rfl, rfl, Heap.put_cell_self _ _ _⟩

theorem insertAt_first {last : Option Ptr} {bs : List (Ptr × α)} {t : Ptr} {b : α}
    (hseg : Seg h none (some t) ((t, b) :: bs) last none)
    (hnew : new ∉ ((t, b) :: bs).map Prod.fst) (ht : t ∉ bs.map Prod.fst) :
    ∃ h', h.insertAt (some t) (some t) new = some (h', some new) ∧
      Seg h' none (some new) ((new, c.val) :: (t, b) :: bs) last none ∧ h'.brk = h.brk := by
  obtain ⟨-, after, hct, hbs⟩ := hseg
  rw [List.map_cons, List.mem_cons, not_or] at hnew
  have htn : t ≠ new := fun heq => hnew.1 heq.symm
  refine ⟨((h.put t ⟨b, after, some new⟩).put new { c with prev := none }).put new
    ⟨c.val, some t, none⟩, ?_, ?_, rfl⟩
  · rw [Heap.insertAt]
    simp only [if_true]
    rw [setPrev_eq hct]
    simp only [Option.bind_eq_bind, Option.bind_some]
    rw [setPrev_eq (c := c) (by rw [Heap.put_cell_of_ne _ _ hnew.1, hcell])]
    simp only [Option.bind_some]
    rw [setNext_eq (Heap.put_cell_self _ new _)]
    rfl
  · refine ⟨rfl, some t, Heap.put_cell_self _ _ _, rfl, after, ?_, hbs.frame ?_⟩
    · rw [Heap.put_cell_of_ne _ _ htn, Heap.put_cell_of_ne _ _ htn, Heap.put_cell_self]
    · intro p hp
      have hpn : p ≠ new := fun heq => hnew.2 (heq ▸ hp)
      have hpt : p ≠ t := fun heq => ht (heq ▸ hp)
      rw [Heap.put_cell_of_ne _ _ hpn, Heap.put_cell_of_ne _ _ hpn, Heap.put_cell_of_ne _ _ hpt]

theorem insertAt_before {head last : Option Ptr} {as bs : List (Ptr × α)} {q t : Ptr} {a b : α}
    (hseg : Seg h none head (as ++ [(q, a)] ++ (t, b) :: bs) last none)
    (hnodup : ((as ++ [(q, a)] ++ (t, b) :: bs).map Prod.fst).Nodup)
    (hnew : new ∉ (as ++ [(q, a)] ++ (t, b) :: bs).map Prod.fst) :
    ∃ h', h.insertAt head (some t) new = some (h', head) ∧
      Seg h' none head (as ++ [(q, a)] ++ (new, c.val) :: (t, b) :: bs) last none ∧
      h'.brk = h.brk := by
  rw [List.append_assoc] at hseg hnodup hnew
  simp only [List.map_append, List.map_cons, List.cons_append, List.nil_append, List.mem_append,
    List.mem_cons, not_or] at hnew
  simp only [List.map_append, List.map_cons, List.cons_append, List.nil_append] at hnodup
  obtain ⟨before, after, has, hcq, hrest⟩ := seg_around.mp hseg
  obtain ⟨rfl, after', hct, hbs⟩ := hrest
  obtain ⟨-, hright, hdisj⟩ := List.nodup_append.mp hnodup
  rw [List.nodup_cons, List.mem_cons, not_or, List.nodup_cons] at hright
  obtain ⟨⟨hqt, hqbs⟩, htbs, -⟩ := hright
  have hqas : q ∉ as.map Prod.fst := fun hq => hdisj q hq q List.mem_cons_self rfl
  have htas : t ∉ as.map Prod.fst := fun ht => hdisj t ht t (by simp) rfl
  have hqn : q ≠ new := fun heq => hnew.2.1 heq.symm
  have htn : t ≠ new := fun heq => hnew.2.2.1 heq.symm
  obtain ⟨first, rfl, hfirst⟩ : ∃ first, head = some first ∧ t ≠ first := by
    cases as with
    | nil => exact ⟨q, has.2, fun heq => hqt heq.symm⟩
    | cons x as => exact ⟨x.1, has.1, fun heq => htas (by simp [heq])⟩
  refine ⟨(((h.put q ⟨a, some new, before⟩).put new { c with prev := some q }).put new
    ⟨c.val, some t, some q⟩).put t ⟨b, after', some new⟩, ?_, ?_, rfl⟩
  · rw [Heap.insertAt, if_neg hfirst, hct]
    simp only [Option.bind_eq_bind, Option.bind_some]
    rw [setNext_eq hcq]
    simp only [Option.bind_some]
    rw [setPrev_eq (c := c) (by rw [Heap.put_cell_of_ne _ _ hqn.symm, hcell])]
    simp only [Option.bind_some]
    rw [setNext_eq (Heap.put_cell_self _ new _)]
    simp only [Option.bind_some]
    rw [setPrev_eq (c := ⟨b, after', some q⟩) (by
      rw [Heap.put_cell_of_ne _ _ htn, Heap.put_cell_of_ne _ _ htn, Heap.put_cell_of_ne _ _
        (Ne.symm hqt), hct])]
    rfl
  · rw [List.append_assoc]
    refine seg_around.mpr ⟨before, some new, has.frame ?_, ?_, rfl, some t, ?_, rfl, after', ?_,
      hbs.frame ?_⟩
    · intro p hp
      have hpn : p ≠ new := fun heq => hnew.1 (heq ▸ hp)
      have hpq : p ≠ q := fun heq => hqas (heq ▸ hp)
      have hpt : p ≠ t := fun heq => htas (heq ▸ hp)
      rw [Heap.put_cell_of_ne _ _ hpt, Heap.put_cell_of_ne _ _ hpn, Heap.put_cell_of_ne _ _ hpn,
        Heap.put_cell_of_ne _ _ hpq]
    · rw [Heap.put_cell_of_ne _ _ hqt, Heap.put_cell_of_ne _ _ hqn, Heap.put_cell_of_ne _ _ hqn,
        Heap.put_cell_self]
    · rw [Heap.put_cell_of_ne _ _ htn.symm, Heap.put_cell_self]
    · exact Heap.put_cell_self _ _ _
    · intro p hp
      have hpn : p ≠ new := fun heq => hnew.2.2.2 (heq ▸ hp)
      have hpq : p ≠ q := fun heq => hqbs (heq ▸ hp)
      have hpt : p ≠ t := fun heq => htbs (heq ▸ hp)
      rw [Heap.put_cell_of_ne _ _ hpt, Heap.put_cell_of_ne _ _ hpn, Heap.put_cell_of_ne _ _ hpn,
        Heap.put_cell_of_ne _ _ hpq]

end

/-- **Insertion.** A cell that is no node becomes one, between `as` and
`bs`. -/
theorem insertAt_isList {h : Heap α} {new : Ptr} {c : Cell α} {head : Option Ptr}
    {as bs : List (Ptr × α)} (hl : IsList h head (as ++ bs)) (hcell : h.cell new = some c)
    (hnew : new ∉ (as ++ bs).map Prod.fst) (hbelow : new < h.brk) :
    ∃ h' head', h.insertAt head (bs.head?.map Prod.fst) new = some (h', head') ∧
      IsList h' head' (as ++ (new, c.val) :: bs) ∧ h'.brk = h.brk := by
  obtain ⟨last, hseg⟩ := hl.linked
  have hperm : ((as ++ (new, c.val) :: bs).map Prod.fst).Perm (new :: (as ++ bs).map Prod.fst) :=
    List.perm_middle.map Prod.fst
  have hnodup : ((as ++ (new, c.val) :: bs).map Prod.fst).Nodup :=
    hperm.nodup_iff.mpr (List.nodup_cons.mpr ⟨hnew, hl.nodup⟩)
  have hptrs : ∀ p ∈ (as ++ (new, c.val) :: bs).map Prod.fst, p < h.brk := by
    intro p hp
    rcases List.mem_cons.mp (hperm.mem_iff.mp hp) with rfl | hp
    · exact hbelow
    · exact hl.below p hp
  obtain ⟨h', head', hinsert, ⟨last', hseg'⟩, hbrk⟩ : ∃ h' head',
      h.insertAt head (bs.head?.map Prod.fst) new = some (h', head') ∧
        (∃ last', Seg h' none head' (as ++ (new, c.val) :: bs) last' none) ∧ h'.brk = h.brk := by
    rcases List.eq_nil_or_concat as with rfl | ⟨as, ⟨q, a⟩, rfl⟩
    · cases bs with
      | nil =>
          obtain ⟨-, rfl⟩ := hseg
          obtain ⟨h', hinsert, hseg', hbrk⟩ := insertAt_nil hcell
          exact ⟨h', _, hinsert, ⟨_, hseg'⟩, hbrk⟩
      | cons y bs =>
          obtain ⟨t, b⟩ := y
          have ht := hl.nodup
          rw [List.nil_append, List.map_cons, List.nodup_cons] at ht
          rw [List.nil_append] at hseg hnew
          have hhead := hseg.1
          subst hhead
          obtain ⟨h', hinsert, hseg', hbrk⟩ := insertAt_first hcell hseg hnew ht.1
          exact ⟨h', _, hinsert, ⟨_, hseg'⟩, hbrk⟩
    · rw [List.concat_eq_append] at *
      cases bs with
      | nil =>
          have hlen := hl.length_le
          have hq := hl.nodup
          rw [List.append_nil] at hseg hnew hlen hq
          rw [List.map_append, List.nodup_append] at hq
          obtain ⟨h', hinsert, hseg', hbrk⟩ :=
            insertAt_last hcell hseg (Nat.le_succ_of_le hlen) hnew
              (fun hmem => hq.2.2 q hmem q (List.mem_singleton.mpr rfl) rfl)
          exact ⟨h', _, hinsert, ⟨_, hseg'⟩, hbrk⟩
      | cons y bs =>
          obtain ⟨t, b⟩ := y
          obtain ⟨h', hinsert, hseg', hbrk⟩ := insertAt_before hcell hseg hl.nodup hnew
          exact ⟨h', _, hinsert, ⟨_, hseg'⟩, hbrk⟩
  exact ⟨h', head', hinsert, ⟨⟨last', hseg'⟩, hnodup, by rwa [hbrk]⟩, hbrk⟩

/-! ## removal -/

/-- Storing into `prev` of its first node gives a segment another
predecessor. -/
theorem setPrev?_seg {h : Heap α} {prev head last : Option Ptr} {xs : List (Ptr × α)}
    (hseg : Seg h prev head xs last none) (hnodup : (xs.map Prod.fst).Nodup) (prev' : Option Ptr) :
    ∃ h', h.setPrev? head prev' = some h' ∧ (∃ last', Seg h' prev' head xs last' none) ∧
      h'.brk = h.brk ∧ ∀ p, p ∉ xs.map Prod.fst → h'.cell p = h.cell p := by
  cases xs with
  | nil =>
      obtain ⟨-, rfl⟩ := hseg
      exact ⟨h, rfl, ⟨prev', rfl, rfl⟩, rfl, fun p _ => rfl⟩
  | cons x xs =>
      obtain ⟨p, a⟩ := x
      obtain ⟨rfl, next, hcell, hrest⟩ := hseg
      rw [List.map_cons, List.nodup_cons] at hnodup
      refine ⟨h.put p ⟨a, next, prev'⟩, setPrev_eq hcell prev', ⟨last, rfl, next,
        Heap.put_cell_self _ _ _, hrest.frame ?_⟩, rfl, ?_⟩
      · intro r hr
        exact Heap.put_cell_of_ne _ _ fun heq => hnodup.1 (heq ▸ hr)
      · intro r hr
        rw [List.map_cons, List.mem_cons, not_or] at hr
        exact Heap.put_cell_of_ne _ _ hr.1

/-- Giving a cell back. -/
theorem free_eq {h : Heap α} {p : Ptr} {c : Cell α} (hc : h.cell p = some c) :
    ∃ h', h.free p = some h' ∧ h'.brk = h.brk ∧ ∀ q, q ≠ p → h'.cell q = h.cell q := by
  refine ⟨{ h with cell := Function.update h.cell p none }, ?_, rfl, fun q hq => ?_⟩
  · rw [Heap.free, hc, Option.map_some]
  · exact Function.update_of_ne hq _ _

/-- The other nodes of a list, and that a node is not one of them. -/
theorem IsList.others {h : Heap α} {head : Option Ptr} {as bs : List (Ptr × α)} {t : Ptr} {a : α}
    (hl : IsList h head (as ++ (t, a) :: bs)) :
    (t ∉ as.map Prod.fst ∧ t ∉ bs.map Prod.fst) ∧ (as.map Prod.fst ++ bs.map Prod.fst).Nodup ∧
      ∀ p ∈ (as ++ bs).map Prod.fst, p < h.brk := by
  have hperm : ((as ++ (t, a) :: bs).map Prod.fst).Perm (t :: (as ++ bs).map Prod.fst) :=
    List.perm_middle.map Prod.fst
  have hnodup := hperm.nodup_iff.mp hl.nodup
  rw [List.nodup_cons, List.map_append, List.mem_append, not_or] at hnodup
  exact ⟨hnodup.1, hnodup.2,
    fun p hp => hl.below p (hperm.mem_iff.mpr (List.mem_cons_of_mem t hp))⟩

/-- **Removal.** A node leaves the list, and its cell is given back. -/
theorem unlink_isList {h : Heap α} {head : Option Ptr} {as bs : List (Ptr × α)} {t : Ptr} {a : α}
    (hl : IsList h head (as ++ (t, a) :: bs)) :
    ∃ h' head', h.unlink head t = some (h', head') ∧ IsList h' head' (as ++ bs) ∧
      h'.brk = h.brk := by
  obtain ⟨last, hseg⟩ := hl.linked
  obtain ⟨before, after, has, hct, hbs⟩ := seg_around.mp hseg
  obtain ⟨⟨htas, htbs⟩, hrest, hbelow⟩ := hl.others
  obtain ⟨-, hbsnodup, hdisj⟩ := List.nodup_append.mp hrest
  obtain ⟨h', head', hunlink, ⟨last', hseg'⟩, hbrk⟩ : ∃ h' head',
      h.unlink head t = some (h', head') ∧ (∃ last', Seg h' none head' (as ++ bs) last' none) ∧
        h'.brk = h.brk := by
    rcases List.eq_nil_or_concat as with rfl | ⟨as, ⟨q, b⟩, rfl⟩
    · obtain ⟨rfl, rfl⟩ := has
      obtain ⟨h1, hset, ⟨last', hseg1⟩, hbrk1, hframe1⟩ := setPrev?_seg hbs hbsnodup none
      obtain ⟨h2, hfree, hbrk2, hframe2⟩ := free_eq ((hframe1 t htbs).trans hct)
      refine ⟨h2, after, ?_, ⟨last', hseg1.frame fun p hp => ?_⟩, hbrk2.trans hbrk1⟩
      · simp only [Heap.unlink, hct, Option.bind_eq_bind, Option.bind_some, hset, hfree]
        rfl
      · exact hframe2 p fun heq => htbs (heq ▸ hp)
    · rw [List.concat_eq_append] at *
      simp only [List.map_append, List.map_cons, List.map_nil, List.mem_append, List.mem_singleton,
        not_or] at htas
      have hqbs : q ∉ bs.map Prod.fst := fun hq => hdisj q (by simp) q hq rfl
      have hqas : q ∉ as.map Prod.fst := by
        intro hq
        have hleft := (List.nodup_append.mp hrest).1
        rw [List.map_append] at hleft
        exact (List.nodup_append.mp hleft).2.2 q hq q (List.mem_singleton.mpr rfl) rfl
      obtain ⟨before', after', hhead, hcq, rfl, hafter⟩ := seg_around.mp has
      rw [hafter] at hcq
      have hstored : ∀ p, p ≠ q → (h.put q ⟨b, after, before'⟩).cell p = h.cell p :=
        fun p hp => Heap.put_cell_of_ne _ _ hp
      have hbs1 : Seg (h.put q ⟨b, after, before'⟩) (some t) after bs last none :=
        hbs.frame fun p hp => hstored p fun heq => hqbs (heq ▸ hp)
      obtain ⟨h1, hset, ⟨last', hseg1⟩, hbrk1, hframe1⟩ := setPrev?_seg hbs1 hbsnodup (some q)
      have hct1 : h1.cell t = some ⟨a, after, some q⟩ := by
        rw [hframe1 t htbs, hstored t htas.2, hct]
      obtain ⟨h2, hfree, hbrk2, hframe2⟩ := free_eq hct1
      refine ⟨h2, head, ?_, ⟨last', ?_⟩, hbrk2.trans hbrk1⟩
      · simp only [Heap.unlink, hct, Option.bind_eq_bind, Option.bind_some]
        rw [setNext_eq hcq]
        simp only [Option.bind_some, hset, hfree]
        rfl
      · rw [List.append_assoc]
        refine seg_around.mpr ⟨before', after, hhead.frame ?_, ?_, hseg1.frame ?_⟩
        · intro p hp
          have hpt : p ≠ t := fun heq => htas.1 (heq ▸ hp)
          have hpq : p ≠ q := fun heq => hqas (heq ▸ hp)
          have hpbs : p ∉ bs.map Prod.fst := fun hmem => hdisj p (by simp [hp]) p hmem rfl
          rw [hframe2 p hpt, hframe1 p hpbs, hstored p hpq]
        · rw [hframe2 q (Ne.symm htas.2), hframe1 q hqbs, Heap.put_cell_self]
        · exact fun p hp => hframe2 p fun heq => htbs (heq ▸ hp)
  exact ⟨h', head', hunlink, ⟨⟨last', hseg'⟩, by rwa [List.map_append], by rwa [hbrk]⟩, hbrk⟩

/-! ## changing a value -/

/-- A store into the value of a node. -/
theorem modify_isList {h : Heap α} {head : Option Ptr} {as bs : List (Ptr × α)} {t : Ptr} {a : α}
    (hl : IsList h head (as ++ (t, a) :: bs)) (f : α → α) :
    ∃ h', h.modify t f = some h' ∧ IsList h' head (as ++ (t, f a) :: bs) ∧ h'.brk = h.brk := by
  obtain ⟨last, hseg⟩ := hl.linked
  obtain ⟨before, after, has, hct, hbs⟩ := seg_around.mp hseg
  obtain ⟨⟨htas, htbs⟩, -, -⟩ := hl.others
  have hptrs : (as ++ (t, f a) :: bs).map Prod.fst = (as ++ (t, a) :: bs).map Prod.fst := by simp
  refine ⟨h.put t ⟨f a, after, before⟩, modify_eq hct f, ⟨⟨last, ?_⟩, ?_, ?_⟩, rfl⟩
  · refine seg_around.mpr ⟨before, after, has.frame ?_, Heap.put_cell_self _ _ _, hbs.frame ?_⟩
    · exact fun p hp => Heap.put_cell_of_ne _ _ fun heq => htas (heq ▸ hp)
    · exact fun p hp => Heap.put_cell_of_ne _ _ fun heq => htbs (heq ▸ hp)
  · rw [hptrs]
    exact hl.nodup
  · rw [hptrs]
    exact hl.below

/-- The cell of a node. -/
theorem IsList.cell_of_mem {h : Heap α} {head : Option Ptr} {xs : List (Ptr × α)}
    (hl : IsList h head xs) {p : Ptr} {a : α} (hmem : (p, a) ∈ xs) :
    ∃ next prev, h.cell p = some ⟨a, next, prev⟩ := by
  obtain ⟨as, bs, rfl⟩ := List.append_of_mem hmem
  obtain ⟨last, hseg⟩ := hl.linked
  obtain ⟨before, after, -, hcell, -⟩ := seg_around.mp hseg
  exact ⟨after, before, hcell⟩

/-! ## values

What the pointer work says about the values, in whatever heap it runs. -/

/-- The cells of a heap were there before, with the same values. -/
def Values (h h' : Heap α) : Prop :=
  ∀ q c', h'.cell q = some c' → ∃ c, h.cell q = some c ∧ c.val = c'.val

theorem Values.refl (h : Heap α) : Values h h := fun _ c' hc => ⟨c', hc, rfl⟩

theorem Values.trans {h h' h'' : Heap α} (h1 : Values h h') (h2 : Values h' h'') :
    Values h h'' := by
  intro q c'' hc''
  obtain ⟨c', hc', hval'⟩ := h2 q c'' hc''
  obtain ⟨c, hc, hval⟩ := h1 q c' hc'
  exact ⟨c, hc, hval.trans hval'⟩

theorem put_values {h : Heap α} {q : Ptr} {c c' : Cell α} (hc : h.cell q = some c)
    (hval : c'.val = c.val) : Values h (h.put q c') := by
  intro r d hd
  by_cases hr : r = q
  · subst hr
    rw [Heap.put_cell_self] at hd
    obtain rfl := Option.some.inj hd
    exact ⟨c, hc, hval.symm⟩
  · rw [Heap.put_cell_of_ne _ _ hr] at hd
    exact ⟨d, hd, rfl⟩

theorem setNext_values {h h' : Heap α} {q : Ptr} {next : Option Ptr}
    (hset : h.setNext q next = some h') : Values h h' := by
  obtain ⟨c, hc, rfl⟩ := Option.map_eq_some_iff.mp hset
  exact put_values hc rfl

theorem setPrev_values {h h' : Heap α} {q : Ptr} {prev : Option Ptr}
    (hset : h.setPrev q prev = some h') : Values h h' := by
  obtain ⟨c, hc, rfl⟩ := Option.map_eq_some_iff.mp hset
  exact put_values hc rfl

theorem setPrev?_values {h h' : Heap α} {q prev : Option Ptr}
    (hset : h.setPrev? q prev = some h') : Values h h' := by
  cases q with
  | none =>
      obtain rfl := Option.some.inj hset
      exact Values.refl h
  | some q => exact setPrev_values hset

theorem free_values {h h' : Heap α} {q : Ptr} (hfree : h.free q = some h') : Values h h' := by
  obtain ⟨c, hc, rfl⟩ := Option.map_eq_some_iff.mp hfree
  intro r d hd
  by_cases hr : r = q
  · simp [hr] at hd
  · exact ⟨d, by simpa [hr] using hd, rfl⟩

/-- A node that leaves the list. -/
theorem unlink_values {h h' : Heap α} {head head' : Option Ptr} {t : Ptr}
    (hunlink : h.unlink head t = some (h', head')) : Values h h' := by
  simp only [Heap.unlink, Option.bind_eq_bind, Option.bind_eq_some_iff] at hunlink
  obtain ⟨c, hc, hunlink⟩ := hunlink
  split at hunlink
  · simp only [Option.bind_eq_some_iff] at hunlink
    obtain ⟨first, hfirst, f, hf, h1, hprev, h2, hfree, heq⟩ := hunlink
    obtain ⟨rfl, rfl⟩ := Prod.mk.inj (Option.some.inj heq)
    exact (setPrev?_values hprev).trans (free_values hfree)
  · simp only [Option.bind_eq_some_iff] at hunlink
    obtain ⟨h1, hnext, h2, hprev, h3, hfree, heq⟩ := hunlink
    obtain ⟨rfl, rfl⟩ := Prod.mk.inj (Option.some.inj heq)
    exact (setNext_values hnext).trans ((setPrev?_values hprev).trans (free_values hfree))

/-- A new node that is linked into the list. -/
theorem insertAt_values {h h' : Heap α} {head head' at' : Option Ptr} {new : Ptr}
    (hinsert : h.insertAt head at' new = some (h', head')) : Values h h' := by
  cases head with
  | none =>
      simp only [Heap.insertAt, Option.bind_eq_bind, Option.bind_eq_some_iff] at hinsert
      obtain ⟨h1, hprev, h2, hnext, heq⟩ := hinsert
      obtain ⟨rfl, rfl⟩ := Prod.mk.inj (Option.some.inj heq)
      exact (setPrev_values hprev).trans (setNext_values hnext)
  | some first =>
      cases at' with
      | none =>
          simp only [Heap.insertAt, Option.bind_eq_bind, Option.bind_eq_some_iff] at hinsert
          obtain ⟨last, -, h1, hnext, h2, hprev, h3, hend, heq⟩ := hinsert
          obtain ⟨rfl, rfl⟩ := Prod.mk.inj (Option.some.inj heq)
          exact (setNext_values hnext).trans ((setPrev_values hprev).trans (setNext_values hend))
      | some t =>
          simp only [Heap.insertAt, Option.bind_eq_bind] at hinsert
          split at hinsert
          · simp only [Option.bind_eq_some_iff] at hinsert
            obtain ⟨h1, hfirst, h2, hprev, h3, hnext, heq⟩ := hinsert
            obtain ⟨rfl, rfl⟩ := Prod.mk.inj (Option.some.inj heq)
            exact (setPrev_values hfirst).trans
              ((setPrev_values hprev).trans (setNext_values hnext))
          · simp only [Option.bind_eq_some_iff] at hinsert
            obtain ⟨c, -, q, -, h1, hq, h2, hprev, h3, hnext, h4, ht, heq⟩ := hinsert
            obtain ⟨rfl, rfl⟩ := Prod.mk.inj (Option.some.inj heq)
            exact (setNext_values hq).trans ((setPrev_values hprev).trans
              ((setNext_values hnext).trans (setPrev_values ht)))

end

end Bsflite.LinkedList
