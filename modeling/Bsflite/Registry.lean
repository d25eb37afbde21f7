import Bsflite.Chain
import Bsflite.Packet

/-!
# Bsflite.Registry

The list of connections that the library keeps: `handles` and the operations
on it in `imcomm.c`.

The list lies in a heap of nodes, and the handles that it points to in
another; a freed block is gone, and its address is not given out again.  To
follow `NULL` or a freed pointer is a `Fault`, and so is a loop that runs for
longer than there are blocks: it does not end.

* `Registry.Sound` — the list is well linked, and the trace of what was
  created, marked, deleted and called back agrees with the handles in it.
* `removeDeletedHandles_sound` — what a trim does to a list that it copes with.
* `step_inv` — a step that is `Clean` keeps the invariant.
* `registry_kept` — so does a run, and a trim leaves what it is meant to.
-/

namespace Bsflite

open Chain (Ptr Node Linked)

/-! ## the operations -/

/-- What becomes of a handle: `imcomm_create_handle` returned it,
`imcomm_delete_handle` marked it, `imcomm_delete_handle_now` deleted it, a
callback was registered for its deletion, and was called. -/
inductive Event where
  | created (handle : Ptr)
  | marked (handle : Ptr)
  | deleted (handle : Ptr)
  | registered (handle : Ptr)
  | fired (handle : Ptr)
deriving DecidableEq, Repr

/-- The fields of an `IMCOMM` that matter here: `to_delete`, and whether
there is a callback for `IMCOMM_HANDLE_DELETED`. -/
structure HandleObject where
  toDelete : Bool
  callback : Bool
deriving DecidableEq, Repr

/-- The global variables and the memory behind them. -/
structure Registry where
  nodes : Chain.Heap Ptr
  objects : Ptr → Option HandleObject
  handles : Option Ptr
  nodesToDelete : Bool
  /-- the first address that was never given out -/
  brk : Ptr
  trace : List Event

namespace Registry

/-- No handles. -/
def start : Registry := ⟨fun _ => none, fun _ => none, none, false, 0, []⟩

def node (r : Registry) (p : Ptr) : Except Fault (Node Ptr) :=
  match r.nodes p with
  | some n => .ok n
  | none => .error .oob

def object (r : Registry) (h : Ptr) : Except Fault HandleObject :=
  match r.objects h with
  | some obj => .ok obj
  | none => .error .oob

def setNode (r : Registry) (p : Ptr) (n : Node Ptr) : Registry :=
  { r with nodes := Function.update r.nodes p (some n) }

def setObject (r : Registry) (h : Ptr) (obj : HandleObject) : Registry :=
  { r with objects := Function.update r.objects h (some obj) }

def note (r : Registry) (e : Event) : Registry := { r with trace := r.trace ++ [e] }

/-- `free(tmp)` for a node. -/
def freeNode (r : Registry) (p : Ptr) : Except Fault Registry := do
  let _ ← r.node p
  return { r with nodes := Function.update r.nodes p none }

/-- `imcomm_delete_handle_only` -/
def imcommDeleteHandleOnly (r : Registry) (vhandle : Ptr) : Except Fault Registry := do
  let _ ← r.object vhandle
  return { r with objects := Function.update r.objects vhandle none }

/-- `while (tmp->next != NULL) tmp = tmp->next;` -/
def lastNode (r : Registry) : Nat → Ptr → Except Fault Ptr
  | 0, _ => .error .hang
  | fuel + 1, tmp => do
    let n ← r.node tmp
    match n.next with
    | none => return tmp
    | some next => r.lastNode fuel next

/-- The end of `imcomm_create_handle`: the node `new` for the handle. -/
def linkHandle (r : Registry) (handle new : Ptr) : Except Fault Registry :=
  match r.handles with
  | none => return { r.setNode new ⟨handle, none⟩ with handles := some new }
  | some first => do
    let tmp ← r.lastNode (r.brk + 1) first
    let n ← r.node tmp
    return (r.setNode tmp { n with next := some new }).setNode new ⟨handle, none⟩

/-- `imcomm_create_handle`: the two blocks that it allocates are the handle
and its node. -/
def imcommCreateHandle (r : Registry) : Except Fault Registry :=
  (({ r with brk := r.brk + 2 }.setObject r.brk ⟨false, false⟩).note (.created r.brk)).linkHandle
    r.brk (r.brk + 1)

/-- The loop of `imcomm_delete_handle_now`.  It does not unlink what it
frees. -/
def deleteLoop (vhandle : Ptr) : Nat → Registry → Option Ptr → Except Fault Registry
  | 0, _, _ => .error .hang
  | _ + 1, r, none => return r
  | fuel + 1, r, some tr => do
    let n ← r.node tr
    if n.val = vhandle then
      let r ← (r.note (.deleted n.val)).imcommDeleteHandleOnly n.val
      let r ← r.freeNode tr
      deleteLoop vhandle fuel r n.next
    else deleteLoop vhandle fuel r n.next

/-- `imcomm_delete_handle_now` -/
def imcommDeleteHandleNow (r : Registry) (vhandle : Ptr) : Except Fault Registry :=
  match r.handles with
  | none => return r
  | some first => do
    let n ← r.node first
    if n.val = vhandle then
      let r := { r with handles := n.next }
      let r ← (r.note (.deleted n.val)).imcommDeleteHandleOnly n.val
      r.freeNode first
    else deleteLoop vhandle (r.brk + 1) r (some first)

/-- `imcomm_delete_handle` -/
def imcommDeleteHandle (r : Registry) (vhandle : Ptr) : Except Fault Registry := do
  let obj ← r.object vhandle
  return { (r.setObject vhandle { obj with toDelete := true }).note (.marked vhandle) with
    nodesToDelete := true }

/-- `imcomm_register_callback` for `IMCOMM_HANDLE_DELETED` -/
def imcommRegisterCallback (r : Registry) (handle : Ptr) : Except Fault Registry := do
  let obj ← r.object handle
  return (r.setObject handle { obj with callback := true }).note (.registered handle)

/-- The callback, if there is one. -/
def fire (r : Registry) (handle : Ptr) (obj : HandleObject) : Registry :=
  if obj.callback then r.note (.fired handle) else r

/-- The loop of `remove_deleted_handles`.  It moves on only when it has
unlinked a node, and then to the node behind it, which it does not look at. -/
def trimLoop : Nat → Registry → Option Ptr → Except Fault Registry
  | 0, _, _ => .error .hang
  | _ + 1, _, none => .error .null
  | fuel + 1, r, some trav => do
    let n ← r.node trav
    match n.next with
    | none => return r
    | some tmp =>
      let m ← r.node tmp
      let obj ← r.object m.val
      if obj.toDelete then
        let r := (r.setNode trav { n with next := m.next }).fire m.val obj
        let r ← r.imcommDeleteHandleOnly m.val
        let r ← r.freeNode tmp
        trimLoop fuel r m.next
      else trimLoop fuel r (some trav)

/-- `remove_deleted_handles` -/
def removeDeletedHandles : Nat → Registry → Except Fault Registry
  | 0, _ => .error .hang
  | fuel + 1, r =>
    match r.handles with
    | none => return r
    | some first => do
      let n ← r.node first
      let obj ← r.object n.val
      if obj.toDelete then
        let r := { r.fire n.val obj with handles := n.next }
        let r ← r.imcommDeleteHandleOnly n.val
        let r ← r.freeNode first
        removeDeletedHandles fuel r
      else trimLoop (fuel + 1) r (some first)

/-- What `imcomm_select` does first: trim the handle list. -/
def imcommSelectTrim (r : Registry) : Except Fault Registry :=
  if r.nodesToDelete then do
    let r ← removeDeletedHandles (r.brk + 1) r
    return { r with nodesToDelete := false }
  else return r

end Registry

/-- What a program does to the registry. -/
inductive Op where
  | create
  | mark (handle : Ptr)
  | deleteNow (handle : Ptr)
  | register (handle : Ptr)
  | trim
deriving DecidableEq, Repr

namespace Registry

def step (r : Registry) : Op → Except Fault Registry
  | .create => r.imcommCreateHandle
  | .mark handle => r.imcommDeleteHandle handle
  | .deleteNow handle => r.imcommDeleteHandleNow handle
  | .register handle => r.imcommRegisterCallback handle
  | .trim => r.imcommSelectTrim

/-- A program runs. -/
def run (ops : List Op) : Except Fault Registry := ops.foldlM step start

/-- Two handles are left, and the second is not marked: the loop stands
still. -/
example : run [.create, .create, .create, .mark 0, .trim] = .error .hang := rfl

/-- The second of two handles is deleted: the first still links to its
node. -/
example : run [.create, .create, .deleteNow 2, .create] = .error .oob := rfl

/-! ## what the registry is meant to hold -/

/-- The handles in the list. -/
def Lists (r : Registry) (hs : List Ptr) : Prop :=
  ∃ ns, Linked r.nodes r.handles ns none ∧ ns.map Prod.snd = hs

/-- The handles that were created, in order. -/
def created (r : Registry) : List Ptr :=
  r.trace.filterMap fun
    | .created h => some h
    | _ => none

/-- What a trim is meant to leave: the handles created and neither marked nor
deleted, in order of creation, and one call back for each handle that was
marked and trimmed. -/
structure Trimmed (r : Registry) : Prop where
  list : r.Lists (r.created.filter fun h => .marked h ∉ r.trace ∧ .deleted h ∉ r.trace)
  fired : ∀ h, r.trace.count (.fired h) =
    if .marked h ∈ r.trace ∧ .deleted h ∉ r.trace ∧ .registered h ∈ r.trace then 1 else 0

/-- `to_delete` of a handle. -/
def marks (r : Registry) (h : Ptr) : Bool := (r.objects h).any HandleObject.toDelete

/-- Marked handles that each have one behind them that is not marked. -/
def alternating : List Bool → Bool
  | [] => true
  | true :: false :: ms => alternating ms
  | _ => false

/-- The lists that a trim copes with: behind the marked handles at the front,
and the first that is not marked, every other handle is marked. -/
def trimmable : List Bool → Bool
  | [] => true
  | true :: ms => trimmable ms
  | false :: ms => alternating ms

/-- A step that does what it is meant to do. -/
def Clean (r : Registry) : Op → Prop
  | .create => True
  | .mark h => (r.objects h).isSome
  | .register h => (r.objects h).isSome
  | .deleteNow h => ∀ hs, r.Lists hs → h ∉ hs.tail
  | .trim => r.nodesToDelete = true → ∀ hs, r.Lists hs → trimmable (hs.map r.marks)

/-- A run of such steps. -/
def CleanRun (r : Registry) : List Op → Prop
  | [] => True
  | op :: ops => r.Clean op ∧ ∀ r', r.step op = .ok r' → CleanRun r' ops

/-! ## the invariant -/

end Registry

/-- The handle that an event is about. -/
def Event.handle : Event → Ptr
  | created h | marked h | deleted h | registered h | fired h => h

namespace Registry

/-- The trace agrees with what is at the address of a handle. -/
def Recorded (r : Registry) (h : Ptr) : Prop :=
  match r.objects h with
  | some obj => .created h ∈ r.trace ∧ .deleted h ∉ r.trace ∧ r.trace.count (.fired h) = 0 ∧
      (obj.toDelete = true ↔ .marked h ∈ r.trace) ∧ (obj.callback = true ↔ .registered h ∈ r.trace)
  | none => (∀ e ∈ r.trace, e.handle ≠ h) ∨
      .deleted h ∈ r.trace ∧ r.trace.count (.fired h) = 0 ∨
      .deleted h ∉ r.trace ∧ .marked h ∈ r.trace ∧
        r.trace.count (.fired h) = if .registered h ∈ r.trace then 1 else 0

/-- The list is well linked, through nodes with the handles that are there,
and the trace agrees with them. -/
structure Sound (r : Registry) (ns : List (Ptr × Ptr)) : Prop where
  linked : Linked r.nodes r.handles ns none
  nodup : (ns.map Prod.fst).Nodup
  below : ∀ p ∈ ns.map Prod.fst, p < r.brk
  handles : ns.map Prod.snd = r.created.filter fun h => (r.objects h).isSome
  created_nodup : r.created.Nodup
  fresh : ∀ h, r.brk ≤ h → r.objects h = none ∧ ∀ e ∈ r.trace, e.handle ≠ h
  recorded : ∀ h, r.Recorded h

section
variable {r r' : Registry} {ns ns' : List (Ptr × Ptr)} {h : Ptr} {es : List Event}

theorem mem_created : h ∈ r.created ↔ .created h ∈ r.trace := by
  rw [created, List.mem_filterMap]
  constructor
  · rintro ⟨e, he, heq⟩
    cases e with
    | created h' => exact Option.some.inj heq ▸ he
    | marked h' => cases heq
    | deleted h' => cases heq
    | registered h' => cases heq
    | fired h' => cases heq
  · exact fun he => ⟨_, he, rfl⟩

theorem recorded_some {obj : HandleObject} (hobj : r.objects h = some obj) :
    r.Recorded h ↔ .created h ∈ r.trace ∧ .deleted h ∉ r.trace ∧ r.trace.count (.fired h) = 0 ∧
      (obj.toDelete = true ↔ .marked h ∈ r.trace) ∧
      (obj.callback = true ↔ .registered h ∈ r.trace) := by
  rw [Recorded, hobj]

theorem recorded_none (hobj : r.objects h = none) :
    r.Recorded h ↔ (∀ e ∈ r.trace, e.handle ≠ h) ∨
      .deleted h ∈ r.trace ∧ r.trace.count (.fired h) = 0 ∨
      .deleted h ∉ r.trace ∧ .marked h ∈ r.trace ∧
        r.trace.count (.fired h) = if .registered h ∈ r.trace then 1 else 0 := by
  rw [Recorded, hobj]

/-- The handles in the list are those that are there. -/
theorem Sound.mem_handles (hs : r.Sound ns) : h ∈ ns.map Prod.snd ↔ (r.objects h).isSome := by
  rw [hs.handles, List.mem_filter, mem_created]
  constructor
  · exact And.right
  · intro hlive
    obtain ⟨obj, hobj⟩ := Option.isSome_iff_exists.mp hlive
    exact ⟨((recorded_some hobj).mp (hs.recorded h)).1, hlive⟩

theorem Sound.nodup_handles (hs : r.Sound ns) : (ns.map Prod.snd).Nodup := by
  rw [hs.handles]
  exact hs.created_nodup.filter _

theorem Sound.lt_brk (hs : r.Sound ns) (hlive : (r.objects h).isSome) : h < r.brk := by
  by_contra hge
  rw [(hs.fresh h (Nat.le_of_not_lt hge)).1] at hlive
  cases hlive

theorem Sound.lists_iff (hs : r.Sound ns) {l : List Ptr} : r.Lists l ↔ ns.map Prod.snd = l := by
  constructor
  · rintro ⟨ns', hlinked, rfl⟩
    rw [hs.linked.unique hlinked]
  · exact fun hl => ⟨ns, hs.linked, hl⟩

/-- Events of other handles do not matter. -/
theorem Recorded.frame (hrec : r.Recorded h) (hobject : r'.objects h = r.objects h)
    (htrace : r'.trace = r.trace ++ es) (hes : ∀ e ∈ es, e.handle ≠ h) : r'.Recorded h := by
  have hnew : ∀ e : Event, e.handle = h → e ∉ es := fun e he hmem => hes e hmem he
  have hmem : ∀ e : Event, e.handle = h → (e ∈ r'.trace ↔ e ∈ r.trace) := fun e he => by
    rw [htrace, List.mem_append, or_iff_left (hnew e he)]
  have hcount : r'.trace.count (.fired h) = r.trace.count (.fired h) := by
    rw [htrace, List.count_append, List.count_eq_zero.mpr (hnew (.fired h) rfl), Nat.add_zero]
  have hnone : (∀ e ∈ r.trace, e.handle ≠ h) → ∀ e ∈ r'.trace, e.handle ≠ h := by
    intro hold e he
    rw [htrace, List.mem_append] at he
    exact he.elim (hold e) (hes e)
  rw [Recorded] at hrec ⊢
  simp only [hobject, hcount, hmem (.created h) rfl, hmem (.deleted h) rfl, hmem (.marked h) rfl,
    hmem (.registered h) rfl]
  cases hobj : r.objects h with
  | some obj =>
      rw [hobj] at hrec
      exact hrec
  | none =>
      rw [hobj] at hrec
      exact hrec.imp_left hnone

/-- One handle changes, or goes, and the list with it. -/
theorem Sound.change (hs : r.Sound ns) (hlinked : Linked r'.nodes r'.handles ns' none)
    (hsub : (ns'.map Prod.fst).Sublist (ns.map Prod.fst))
    (hhandles : ns'.map Prod.snd = (ns.map Prod.snd).filter fun h => (r'.objects h).isSome)
    (hbrk : r'.brk = r.brk) (hlive : (r.objects h).isSome)
    (hobjects : ∀ h', h' ≠ h → r'.objects h' = r.objects h') (htrace : r'.trace = r.trace ++ es)
    (hes : ∀ e ∈ es, e.handle = h ∧ e ≠ .created h) (hrec : r'.Recorded h) : r'.Sound ns' := by
  have hother : ∀ h', h' ≠ h → ∀ e ∈ es, e.handle ≠ h' := by
    rintro h' hne e he rfl
    exact hne (hes e he).1
  have hcreated : r'.created = r.created := by
    have hnone : es.filterMap (fun | .created h => some h | _ => none) = ([] : List Ptr) := by
      rw [List.filterMap_eq_nil_iff]
      intro e he
      obtain ⟨rfl, hne⟩ := hes e he
      cases e with
      | created h' => exact absurd rfl hne
      | marked h' => rfl
      | deleted h' => rfl
      | registered h' => rfl
      | fired h' => rfl
    rw [created, htrace, List.filterMap_append, hnone, List.append_nil, created]
  have hlt := hs.lt_brk hlive
  refine ⟨hlinked, hs.nodup.sublist hsub, fun p hp => hbrk ▸ hs.below p (hsub.subset hp), ?_,
    hcreated ▸ hs.created_nodup, fun h' hge => ?_, fun h' => ?_⟩
  · rw [hhandles, hs.handles, List.filter_filter, hcreated]
    refine List.filter_congr fun h' _ => ?_
    by_cases hne : h' = h
    · rw [hne, hlive, Bool.and_true]
    · rw [hobjects h' hne, Bool.and_self]
  · have hne : h' ≠ h := by
      rintro rfl
      exact absurd (hbrk ▸ hge) (Nat.not_le.mpr hlt)
    obtain ⟨hnone, hold⟩ := hs.fresh h' (hbrk ▸ hge)
    refine ⟨(hobjects h' hne).trans hnone, fun e he => ?_⟩
    rw [htrace, List.mem_append] at he
    exact he.elim (hold e) (hother h' hne e)
  · by_cases hne : h' = h
    · exact hne ▸ hrec
    · exact (hs.recorded h').frame (hobjects h' hne) htrace (hother h' hne)

/-! ## creating, marking and registering -/

theorem object_eq {obj : HandleObject} (hobj : r.objects h = some obj) : r.object h = .ok obj := by
  rw [object, hobj]

theorem node_eq {p : Ptr} {n : Node Ptr} (hn : r.nodes p = some n) : r.node p = .ok n := by
  rw [node, hn]

/-- The walk to the end of the list. -/
theorem lastNode_eq {p q a : Ptr} (hl : Linked r.nodes (some p) (ns ++ [(q, a)]) none) {fuel : Nat}
    (hfuel : ns.length < fuel) : r.lastNode fuel p = .ok q := by
  induction ns generalizing p fuel with
  | nil =>
      obtain ⟨hp, next, hnode, rfl⟩ := hl
      obtain rfl := Option.some.inj hp
      obtain ⟨fuel, rfl⟩ : ∃ k, fuel = k + 1 := ⟨fuel - 1, by omega⟩
      rw [lastNode, node_eq hnode, ok_bind]
      rfl
  | cons n ns ih =>
      obtain ⟨p', a'⟩ := n
      obtain ⟨hp, next, hnode, hrest⟩ := hl
      obtain rfl := Option.some.inj hp
      obtain ⟨fuel, rfl⟩ : ∃ k, fuel = k + 1 := ⟨fuel - 1, by omega⟩
      rw [List.length_cons] at hfuel
      rw [lastNode, node_eq hnode, ok_bind]
      cases next with
      | none =>
          cases ns with
          | nil => exact absurd hrest.1 (Option.some_ne_none q).symm
          | cons n' ns => exact absurd hrest.1 (Option.some_ne_none n'.1).symm
      | some next => exact ih hrest (by omega)

/-- A list is not longer than the heap has given out addresses. -/
theorem Sound.length_le (hs : r.Sound ns) : ns.length ≤ r.brk := by
  have hsub : ns.map Prod.fst ⊆ List.range r.brk := fun p hp => List.mem_range.mpr (hs.below p hp)
  simpa using (List.subperm_of_subset hs.nodup hsub).length_le

/-- The address of the next node is not in use. -/
theorem Sound.next_notMem (hs : r.Sound ns) : r.brk + 1 ∉ ns.map Prod.fst :=
  fun hmem => absurd (hs.below _ hmem) (Nat.not_lt.mpr (Nat.le_succ _))

theorem linkHandle_linked (hl : Linked r.nodes r.handles ns none) (hnodup : (ns.map Prod.fst).Nodup)
    (hlen : ns.length ≤ r.brk) {new : Ptr} (hnew : new ∉ ns.map Prod.fst) (h : Ptr) :
    ∃ nodes head, r.linkHandle h new = .ok { r with nodes := nodes, handles := head } ∧
      Linked nodes head (ns ++ [(new, h)]) none := by
  rw [linkHandle]
  rcases List.eq_nil_or_concat ns with rfl | ⟨init, ⟨q, a⟩, rfl⟩
  · have hhead : r.handles = none := hl
    rw [hhead]
    exact ⟨_, _, rfl, rfl, none, Function.update_self _ _ _, rfl⟩
  · rw [List.concat_eq_append] at *
    obtain ⟨first, hfirst⟩ : ∃ first, r.handles = some first := by
      cases init with
      | nil => exact ⟨q, hl.1⟩
      | cons n init => exact ⟨n.1, hl.1⟩
    have hq : q ∉ init.map Prod.fst := by
      rw [List.map_append, List.nodup_append] at hnodup
      exact fun hmem => hnodup.2.2 q hmem q (List.mem_singleton_self q) rfl
    rw [List.length_append] at hlen
    obtain ⟨-, next, hnode, rfl⟩ := hl.split
    have hsnoc := hl.snoc hq hnew (b := h)
    rw [hfirst] at hl
    have hlast := lastNode_eq hl (Nat.lt_succ_of_le (Nat.le_of_add_right_le hlen))
    simp only [hfirst, hlast, ok_bind, node_eq hnode]
    exact ⟨_, _, rfl, hfirst ▸ hsnoc⟩

/-- A new handle is the last one, however its node was linked. -/
theorem Sound.create (hs : r.Sound ns)
    (hlinked : Linked r'.nodes r'.handles (ns ++ [(r.brk + 1, r.brk)]) none)
    (hbrk : r'.brk = r.brk + 2)
    (hobjects : r'.objects = Function.update r.objects r.brk (some ⟨false, false⟩))
    (htrace : r'.trace = r.trace ++ [.created r.brk]) :
    r'.Sound (ns ++ [(r.brk + 1, r.brk)]) := by
  obtain ⟨-, hunheard⟩ := hs.fresh r.brk (Nat.le_refl _)
  have hcreated : r'.created = r.created ++ [r.brk] := by
    rw [created, htrace, List.filterMap_append]
    rfl
  have hfresh : r.brk ∉ r.created := fun hmem => hunheard _ (mem_created.mp hmem) rfl
  refine ⟨hlinked, ?_, ?_, ?_, ?_, fun h hge => ?_, fun h => ?_⟩
  · rw [List.map_append]
    exact hs.nodup.append (List.nodup_singleton _) (List.disjoint_singleton.mpr hs.next_notMem)
  · intro p hp
    rw [List.map_append, List.mem_append] at hp
    rw [hbrk]
    rcases hp with hp | hp
    · exact Nat.lt_add_right 2 (hs.below p hp)
    · obtain rfl := List.mem_singleton.mp hp
      exact Nat.lt_succ_self _
  · have hold : (r.created.filter fun h => (r'.objects h).isSome) =
        r.created.filter fun h => (r.objects h).isSome := by
      refine List.filter_congr fun h hh => ?_
      rw [hobjects, Function.update_of_ne fun heq : h = r.brk => hfresh (heq ▸ hh)]
    rw [hcreated, List.filter_append, hold, ← hs.handles, List.map_append]
    simp [hobjects]
  · rw [hcreated]
    exact hs.created_nodup.append (List.nodup_singleton _) (List.disjoint_singleton.mpr hfresh)
  · rw [hbrk] at hge
    have hne : h ≠ r.brk := by
      rintro rfl
      exact absurd hge (Nat.not_le.mpr (Nat.lt_add_of_pos_right (by decide)))
    obtain ⟨hgone, hold⟩ := hs.fresh h (Nat.le_of_add_right_le hge)
    rw [hobjects, Function.update_of_ne hne, htrace]
    refine ⟨hgone, fun e he => ?_⟩
    rcases List.mem_append.mp he with he | he
    · exact hold e he
    · obtain rfl := List.mem_singleton.mp he
      exact hne.symm
  · by_cases hne : h = r.brk
    · subst hne
      have habsent : ∀ e : Event, e.handle = r.brk → e ∉ r.trace :=
        fun e he hmem => hunheard e hmem he
      rw [Recorded, hobjects, Function.update_self, htrace]
      simp only [List.mem_append, List.mem_singleton, List.count_append]
      simp [habsent (.deleted r.brk) rfl, habsent (.marked r.brk) rfl,
        habsent (.registered r.brk) rfl, List.count_eq_zero.mpr (habsent (.fired r.brk) rfl)]
    · refine (hs.recorded h).frame ?_ htrace ?_
      · rw [hobjects, Function.update_of_ne hne]
      · intro e he
        obtain rfl := List.mem_singleton.mp he
        exact Ne.symm hne

theorem imcommCreateHandle_sound (hs : r.Sound ns) :
    ∃ r', r.imcommCreateHandle = .ok r' ∧ r'.Sound (ns ++ [(r.brk + 1, r.brk)]) ∧
      r'.nodesToDelete = r.nodesToDelete ∧
      r'.objects = Function.update r.objects r.brk (some ⟨false, false⟩) := by
  have hlen := Nat.le_trans hs.length_le (Nat.le_add_right r.brk 2)
  obtain ⟨nodes, head, hlink, hlinked⟩ := linkHandle_linked
    (r := ({ r with brk := r.brk + 2 }.setObject r.brk ⟨false, false⟩).note (.created r.brk))
    hs.linked hs.nodup hlen hs.next_notMem r.brk
  exact ⟨_, hlink, hs.create hlinked rfl rfl rfl, rfl, rfl⟩

/-- A handle that is there gets a new object, and stays in the list. -/
theorem Sound.store (hs : r.Sound ns) (hlive : (r.objects h).isSome) (obj : HandleObject)
    (e : Event) (he : e.handle = h ∧ e ≠ .created h) (flag : Bool)
    (hrec : Recorded { (r.setObject h obj).note e with nodesToDelete := flag } h) :
    Sound { (r.setObject h obj).note e with nodesToDelete := flag } ns := by
  refine hs.change hs.linked (List.Sublist.refl _) ?_ rfl hlive
    (fun h' hne => Function.update_of_ne hne _ _) rfl (by simpa using he) hrec
  rw [eq_comm, List.filter_eq_self]
  intro h' hmem
  show (Function.update r.objects h (some obj) h').isSome = true
  by_cases hne : h' = h
  · rw [hne, Function.update_self]
    rfl
  · rw [Function.update_of_ne hne]
    exact hs.mem_handles.mp hmem

theorem imcommDeleteHandle_sound (hs : r.Sound ns) (hlive : (r.objects h).isSome) :
    ∃ r', r.imcommDeleteHandle h = .ok r' ∧ r'.Sound ns ∧ r'.nodesToDelete = true := by
  obtain ⟨obj, hobj⟩ := Option.isSome_iff_exists.mp hlive
  obtain ⟨hcreated, hdeleted, hfired, -, hregistered⟩ := (recorded_some hobj).mp (hs.recorded h)
  refine ⟨_, by rw [imcommDeleteHandle, object_eq hobj]; rfl,
    hs.store hlive { obj with toDelete := true } (.marked h) ⟨rfl, nofun⟩ true ?_, rfl⟩
  rw [recorded_some (Function.update_self _ _ _)]
  simpa [setObject, note, List.count_append] using ⟨hcreated, hdeleted, hfired, hregistered⟩

theorem imcommRegisterCallback_sound (hs : r.Sound ns) (hlive : (r.objects h).isSome) :
    ∃ r', r.imcommRegisterCallback h = .ok r' ∧ r'.Sound ns ∧ r'.nodesToDelete = r.nodesToDelete ∧
      r'.marks = r.marks := by
  obtain ⟨obj, hobj⟩ := Option.isSome_iff_exists.mp hlive
  obtain ⟨hcreated, hdeleted, hfired, hmarked, -⟩ := (recorded_some hobj).mp (hs.recorded h)
  refine ⟨_, by rw [imcommRegisterCallback, object_eq hobj]; rfl,
    hs.store hlive { obj with callback := true } (.registered h) ⟨rfl, nofun⟩
      r.nodesToDelete ?_, rfl, ?_⟩
  · rw [recorded_some (Function.update_self _ _ _)]
    simpa [setObject, note, List.count_append] using ⟨hcreated, hdeleted, hfired, hmarked⟩
  · funext h'
    show (Function.update r.objects h (some { obj with callback := true }) h').any _ = _
    by_cases hne : h' = h
    · rw [hne, Function.update_self, marks, hobj]
      rfl
    · rw [Function.update_of_ne hne]
      rfl

/-! ## removing a handle -/

/-- A handle is in the list once. -/
theorem Sound.notMem_rest (as : List (Ptr × Ptr)) {bs : List (Ptr × Ptr)} {p : Ptr}
    (hs : r.Sound (as ++ (p, h) :: bs)) :
    h ∉ (as ++ bs).map Prod.snd := by
  have hnodup := hs.nodup_handles
  rw [List.map_append, List.map_cons, List.nodup_middle, ← List.map_append] at hnodup
  exact (List.nodup_cons.mp hnodup).1

/-- A handle goes, and its node with it. -/
theorem Sound.remove (as : List (Ptr × Ptr)) {bs : List (Ptr × Ptr)} {p : Ptr}
    (hs : r.Sound (as ++ (p, h) :: bs))
    (hlinked : Linked r'.nodes r'.handles (as ++ bs) none)
    (hobjects : r'.objects = Function.update r.objects h none) (hbrk : r'.brk = r.brk)
    (htrace : r'.trace = r.trace ++ es) (hes : ∀ e ∈ es, e.handle = h ∧ e ≠ .created h)
    (hrec : r'.Recorded h) : r'.Sound (as ++ bs) := by
  have hlive : (r.objects h).isSome := hs.mem_handles.mp (by simp)
  have hsub : (as ++ bs).Sublist (as ++ (p, h) :: bs) :=
    (List.Sublist.refl as).append (List.sublist_cons_self _ _)
  refine hs.change hlinked (hsub.map _) ?_ hbrk hlive (fun h' hne => ?_) htrace hes hrec
  · have hrest : ∀ h' ∈ (as ++ bs).map Prod.snd, (r'.objects h').isSome = true := by
      intro h' hmem
      have hne : h' ≠ h := by
        rintro rfl
        exact hs.notMem_rest as hmem
      rw [hobjects, Function.update_of_ne hne]
      exact hs.mem_handles.mp ((hsub.map _).subset hmem)
    have hgone : (r'.objects h).isSome = false := by
      rw [hobjects, Function.update_self]
      rfl
    have hsplit : (as ++ (p, h) :: bs).map Prod.snd = as.map Prod.snd ++ h :: bs.map Prod.snd :=
      List.map_append
    rw [hsplit, List.filter_append, List.filter_cons_of_neg (by simp [hgone]), ← List.filter_append,
      ← List.map_append, List.filter_eq_self.mpr hrest]
  · rw [hobjects, Function.update_of_ne hne]

theorem imcommDeleteHandleOnly_eq {obj : HandleObject} (hobj : r.objects h = some obj) :
    r.imcommDeleteHandleOnly h = .ok { r with objects := Function.update r.objects h none } := by
  rw [imcommDeleteHandleOnly, object_eq hobj]
  rfl

theorem freeNode_eq {p : Ptr} {n : Node Ptr} (hn : r.nodes p = some n) :
    r.freeNode p = .ok { r with nodes := Function.update r.nodes p none } := by
  rw [freeNode, node_eq hn]
  rfl

/-- The handle at the front, deleted at once. -/
theorem imcommDeleteHandleNow_head {p : Ptr} (hs : r.Sound ((p, h) :: ns)) :
    ∃ r', r.imcommDeleteHandleNow h = .ok r' ∧ r'.Sound ns ∧
      r'.nodesToDelete = r.nodesToDelete ∧ r'.objects = Function.update r.objects h none := by
  have hlive : (r.objects h).isSome := hs.mem_handles.mp List.mem_cons_self
  obtain ⟨obj, hobj⟩ := Option.isSome_iff_exists.mp hlive
  have hp : p ∉ ns.map Prod.fst := (List.nodup_cons.mp hs.nodup).1
  obtain ⟨next, hnode, hlinked⟩ := hs.linked.drop_head hp
  have hfired := ((recorded_some hobj).mp (hs.recorded h)).2.2.1
  have hhead : r.handles = some p := hs.linked.1
  refine ⟨{ r with
    nodes := Function.update r.nodes p none, objects := Function.update r.objects h none,
    handles := next, trace := r.trace ++ [.deleted h] }, ?_,
    hs.remove [] hlinked rfl rfl rfl (by simp [Event.handle]) ?_, rfl, rfl⟩
  · rw [imcommDeleteHandleNow, hhead]
    simp only [node_eq hnode, ok_bind, if_true]
    rw [imcommDeleteHandleOnly_eq (by exact hobj), ok_bind, freeNode_eq (by exact hnode)]
    rfl
  · rw [recorded_none (Function.update_self _ _ _)]
    exact .inr (.inl ⟨by simp, by simpa [List.count_append] using hfired⟩)

/-- A handle that is not in the list is not found. -/
theorem deleteLoop_of_notMem {head : Option Ptr} (hl : Linked r.nodes head ns none)
    (hh : h ∉ ns.map Prod.snd) {fuel : Nat} (hfuel : ns.length < fuel) :
    deleteLoop h fuel r head = .ok r := by
  induction ns generalizing head fuel with
  | nil =>
      obtain rfl : head = none := hl
      obtain ⟨fuel, rfl⟩ : ∃ k, fuel = k + 1 := ⟨fuel - 1, by omega⟩
      rfl
  | cons n ns ih =>
      obtain ⟨p, a⟩ := n
      obtain ⟨rfl, next, hnode, hrest⟩ := hl
      obtain ⟨fuel, rfl⟩ : ∃ k, fuel = k + 1 := ⟨fuel - 1, by omega⟩
      rw [List.map_cons, List.mem_cons, not_or] at hh
      rw [List.length_cons] at hfuel
      rw [deleteLoop, node_eq hnode, ok_bind, if_neg (Ne.symm hh.1)]
      exact ih hrest hh.2 (by omega)

theorem imcommDeleteHandleNow_of_notMem (hs : r.Sound ns) (hh : h ∉ ns.map Prod.snd) :
    r.imcommDeleteHandleNow h = .ok r := by
  have hloop := deleteLoop_of_notMem hs.linked hh (Nat.lt_succ_of_le hs.length_le)
  rw [imcommDeleteHandleNow]
  cases ns with
  | nil =>
      have hhead : r.handles = none := hs.linked
      rw [hhead]
      rfl
  | cons n ns =>
      obtain ⟨p, a⟩ := n
      obtain ⟨hhead, next, hnode, -⟩ := hs.linked
      rw [List.map_cons, List.mem_cons, not_or] at hh
      rw [hhead] at hloop ⊢
      simp only [node_eq hnode, ok_bind, if_neg (Ne.symm hh.1)]
      exact hloop

/-! ## trimming -/

theorem fire_eq (r : Registry) (h : Ptr) (obj : HandleObject) :
    r.fire h obj = { r with trace := r.trace ++ if obj.callback then [.fired h] else [] } := by
  rw [fire]
  cases obj.callback with
  | true => rfl
  | false =>
      show r = { r with trace := r.trace ++ [] }
      rw [List.append_nil]

/-- A marked handle is called back and goes. -/
theorem Sound.trimmed (as : List (Ptr × Ptr)) {bs : List (Ptr × Ptr)} {p : Ptr} {obj : HandleObject}
    (hs : r.Sound (as ++ (p, h) :: bs)) (hobj : r.objects h = some obj)
    (hmark : obj.toDelete = true) {nodes : Chain.Heap Ptr} {head : Option Ptr}
    (hlinked : Linked nodes head (as ++ bs) none) :
    Sound { r.fire h obj with
      nodes := nodes, handles := head
      objects := Function.update r.objects h none } (as ++ bs) := by
  obtain ⟨-, hdeleted, hfired, hmarked, hregistered⟩ := (recorded_some hobj).mp (hs.recorded h)
  rw [fire_eq]
  refine hs.remove as hlinked rfl rfl rfl ?_ ?_
  · split_ifs <;> simp [Event.handle]
  · rw [recorded_none (Function.update_self _ _ _)]
    refine .inr (.inr ?_)
    cases hcb : obj.callback with
    | true =>
        have hreg := hregistered.mp hcb
        simp [hdeleted, hmarked.mp hmark, hreg, List.count_append, hfired]
    | false =>
        have hreg : .registered h ∉ r.trace := fun hmem => by simp [hregistered.mpr hmem] at hcb
        simp [hdeleted, hmarked.mp hmark, hreg, hfired]

/-- The marks of the handles that stay are as they were. -/
theorem marks_of_ne {h' : Ptr} (hne : h' ≠ h)
    (hobjects : r'.objects = Function.update r.objects h none) : r'.marks h' = r.marks h' := by
  rw [marks, hobjects, Function.update_of_ne hne]
  rfl

theorem exists_object (hs : r.Sound ns) (hmem : h ∈ ns.map Prod.snd) :
    ∃ obj, r.objects h = some obj ∧ obj.toDelete = r.marks h := by
  obtain ⟨obj, hobj⟩ := Option.isSome_iff_exists.mp (hs.mem_handles.mp hmem)
  refine ⟨obj, hobj, ?_⟩
  rw [marks, hobj]
  rfl

/-- The loop trims the handle behind, and moves on behind that. -/
theorem trimLoop_marked {as bs : List (Ptr × Ptr)} {p q g : Ptr}
    (hs : r.Sound (as ++ (p, h) :: (q, g) :: bs)) (hmark : r.marks g = true) (fuel : Nat) :
    ∃ r', trimLoop (fuel + 1) r (some p) = trimLoop fuel r' (bs.head?.map Prod.fst) ∧
      r'.Sound (as ++ (p, h) :: bs) ∧ ∀ h', h' ≠ g → r'.marks h' = r.marks h' := by
  obtain ⟨obj, hobj, hdelete⟩ := exists_object hs (h := g) (by simp)
  rw [hmark] at hdelete
  obtain ⟨next, hp, hq, hrest, hlinked⟩ := hs.linked.unlink hs.nodup
  obtain rfl := hrest.head_eq
  have hpq : q ≠ p := by
    rintro rfl
    have hnodup := hs.nodup
    rw [List.map_append, List.nodup_append] at hnodup
    exact (List.nodup_cons.mp hnodup.2.1).1 List.mem_cons_self
  have hq' : Function.update r.nodes p (some ⟨h, bs.head?.map Prod.fst⟩) q =
      some ⟨g, bs.head?.map Prod.fst⟩ := by
    rw [Function.update_of_ne hpq, hq]
  refine ⟨{ r.fire g obj with
      nodes := Function.update (Function.update r.nodes p (some ⟨h, bs.head?.map Prod.fst⟩)) q none,
      handles := r.handles, objects := Function.update r.objects g none }, ?_, ?_, ?_⟩
  · rw [trimLoop, node_eq hp]
    simp only [ok_bind, node_eq hq, object_eq hobj, if_pos hdelete, fire_eq]
    rw [imcommDeleteHandleOnly_eq (by exact hobj), ok_bind, freeNode_eq (by exact hq'), ok_bind]
    rfl
  · have htrimmed := Sound.trimmed (as ++ [(p, h)]) (by simpa using hs) hobj hdelete
      (by simpa using hlinked)
    simpa using htrimmed
  · exact fun h' hne => marks_of_ne hne rfl

/-- The handle at the front is trimmed. -/
theorem removeDeletedHandles_marked {p : Ptr} (hs : r.Sound ((p, h) :: ns))
    (hmark : r.marks h = true) (fuel : Nat) :
    ∃ r', removeDeletedHandles (fuel + 1) r = removeDeletedHandles fuel r' ∧ r'.Sound ns ∧
      ∀ h', h' ≠ h → r'.marks h' = r.marks h' := by
  obtain ⟨obj, hobj, hdelete⟩ := exists_object hs (h := h) (by simp)
  rw [hmark] at hdelete
  have hhead : r.handles = some p := hs.linked.1
  obtain ⟨next, hnode, hlinked⟩ := hs.linked.drop_head (List.nodup_cons.mp hs.nodup).1
  refine ⟨{ r.fire h obj with
    nodes := Function.update r.nodes p none, handles := next,
    objects := Function.update r.objects h none }, ?_,
    Sound.trimmed [] hs hobj hdelete hlinked, fun h' hne => marks_of_ne hne rfl⟩
  rw [removeDeletedHandles, hhead]
  simp only [node_eq hnode, ok_bind, object_eq hobj, if_pos hdelete, fire_eq]
  rw [imcommDeleteHandleOnly_eq (by exact hobj), ok_bind, freeNode_eq (by exact hnode), ok_bind]

theorem alternating_cons_cons {m n : Bool} {ms : List Bool} (h : alternating (m :: n :: ms)) :
    m = true ∧ n = false ∧ alternating ms := by
  cases m <;> cases n <;> simp_all [alternating]

/-- **The loop**: behind a handle that is not marked it trims every other
one, if those are the marked ones. -/
theorem trimLoop_sound {r : Registry} (as : List (Ptr × Ptr)) {bs : List (Ptr × Ptr)} {p h : Ptr}
    (hs : r.Sound (as ++ (p, h) :: bs))
    (halive : ∀ h' ∈ (as ++ [(p, h)]).map Prod.snd, r.marks h' = false)
    (hpattern : alternating ((bs.map Prod.snd).map r.marks)) {fuel : Nat}
    (hfuel : bs.length < fuel) :
    ∃ r' ns', trimLoop fuel r (some p) = .ok r' ∧ r'.Sound ns' ∧
      ∀ h' ∈ ns'.map Prod.snd, r'.marks h' = false := by
  obtain ⟨fuel, rfl⟩ : ∃ k, fuel = k + 1 := ⟨fuel - 1, by omega⟩
  match bs with
  | [] =>
      obtain ⟨-, next, hnode, rfl⟩ := hs.linked.split
      exact ⟨r, _, by rw [trimLoop, node_eq hnode]; rfl, hs, halive⟩
  | [(q, g)] =>
      exfalso
      revert hpattern
      simp only [List.map_cons, List.map_nil]
      cases r.marks g <;> decide
  | (q, g) :: (s, k) :: bs =>
      simp only [List.map_cons] at hpattern
      obtain ⟨hg, hk, hrest⟩ := alternating_cons_cons hpattern
      have hgone : g ∉ ((as ++ [(p, h)]) ++ (s, k) :: bs).map Prod.snd :=
        Sound.notMem_rest (as ++ [(p, h)]) (r := r) (p := q) (by simpa using hs)
      simp only [List.map_append, List.map_cons, List.map_nil, List.mem_append, List.mem_cons,
        List.not_mem_nil, or_false, not_or] at hgone halive
      obtain ⟨⟨hgas, hgh⟩, hgk, hgbs⟩ := hgone
      obtain ⟨r₁, hloop, hs₁, hmarks⟩ := trimLoop_marked hs hg fuel
      rw [hloop]
      refine trimLoop_sound (as ++ [(p, h)]) (by simpa using hs₁) ?_ ?_ (by simp at hfuel; omega)
      · intro h' hmem
        simp only [List.map_append, List.map_cons, List.map_nil, List.mem_append, List.mem_cons,
          List.not_mem_nil, or_false] at hmem
        rcases hmem with (hmem | rfl) | rfl
        · rw [hmarks h' (fun heq => hgas (heq ▸ hmem)), halive h' (.inl hmem)]
        · rw [hmarks h' (Ne.symm hgh), halive h' (.inr rfl)]
        · rw [hmarks h' (Ne.symm hgk), hk]
      · have hsame : (bs.map Prod.snd).map r₁.marks = (bs.map Prod.snd).map r.marks :=
          List.map_congr_left fun h' hmem => hmarks h' fun heq => hgbs (heq ▸ hmem)
        rwa [hsame]

/-- **Trimming.** -/
theorem removeDeletedHandles_sound {r : Registry} {ns : List (Ptr × Ptr)} (hs : r.Sound ns)
    (hpattern : trimmable ((ns.map Prod.snd).map r.marks)) {fuel : Nat} (hfuel : ns.length < fuel) :
    ∃ r' ns', removeDeletedHandles fuel r = .ok r' ∧ r'.Sound ns' ∧
      ∀ h' ∈ ns'.map Prod.snd, r'.marks h' = false := by
  induction ns generalizing r fuel with
  | nil =>
      obtain ⟨fuel, rfl⟩ : ∃ k, fuel = k + 1 := ⟨fuel - 1, by omega⟩
      have hhead : r.handles = none := hs.linked
      exact ⟨r, [], by rw [removeDeletedHandles, hhead]; rfl, hs, by simp⟩
  | cons n ns ih =>
      obtain ⟨p, h⟩ := n
      obtain ⟨fuel, rfl⟩ : ∃ k, fuel = k + 1 := ⟨fuel - 1, by omega⟩
      rw [List.length_cons] at hfuel
      cases hmark : r.marks h with
      | true =>
          obtain ⟨r₁, hloop, hs₁, hmarks⟩ := removeDeletedHandles_marked hs hmark fuel
          have hgone : h ∉ ns.map Prod.snd := Sound.notMem_rest [] hs
          have hsame : (ns.map Prod.snd).map r₁.marks = (ns.map Prod.snd).map r.marks :=
            List.map_congr_left fun h' hmem => hmarks h' fun heq => hgone (heq ▸ hmem)
          simp only [List.map_cons, hmark, trimmable] at hpattern
          rw [hloop]
          exact ih hs₁ (by rwa [hsame]) (by omega)
      | false =>
          obtain ⟨obj, hobj, hdelete⟩ := exists_object hs (h := h) (by simp)
          rw [hmark] at hdelete
          simp only [List.map_cons, hmark, trimmable] at hpattern
          obtain ⟨hhead, next, hnode, -⟩ := hs.linked
          obtain ⟨r', ns', hloop, hsound, halive⟩ := trimLoop_sound [] hs (by simpa using hmark)
            hpattern (show ns.length < fuel + 1 by omega)
          refine ⟨r', ns', ?_, hsound, halive⟩
          rw [removeDeletedHandles, hhead]
          simp only [node_eq hnode, ok_bind, object_eq hobj, hdelete, Bool.false_eq_true, if_false]
          exact hloop

/-! ## whole runs -/

/-- A list without marked handles is what a trim is meant to leave. -/
theorem Sound.meant (hs : r.Sound ns) (halive : ∀ h ∈ ns.map Prod.snd, r.marks h = false) :
    r.Trimmed := by
  have hmarked : ∀ {h : Ptr} {obj : HandleObject}, r.objects h = some obj →
      .marked h ∉ r.trace := by
    intro h obj hobj hmem
    have hdelete := ((recorded_some hobj).mp (hs.recorded h)).2.2.2.1.mpr hmem
    have halive' := halive h (hs.mem_handles.mpr (by rw [hobj]; rfl))
    rw [marks, hobj, Option.any_some, hdelete] at halive'
    cases halive'
  constructor
  · rw [hs.lists_iff, hs.handles]
    refine List.filter_congr fun h hcreated => ?_
    rw [mem_created] at hcreated
    cases hobj : r.objects h with
    | some obj =>
        have hdeleted := ((recorded_some hobj).mp (hs.recorded h)).2.1
        simp [hmarked hobj, hdeleted]
    | none =>
        rcases (recorded_none hobj).mp (hs.recorded h) with hnone | ⟨hdeleted, -⟩ | ⟨-, hmark, -⟩
        · exact absurd rfl (hnone _ hcreated)
        · simp [hdeleted]
        · simp [hmark]
  · intro h
    cases hobj : r.objects h with
    | some obj =>
        have hfired := ((recorded_some hobj).mp (hs.recorded h)).2.2.1
        rw [hfired, if_neg fun hall => hmarked hobj hall.1]
    | none =>
        rcases (recorded_none hobj).mp (hs.recorded h) with
          hnone | ⟨hdeleted, hfired⟩ | ⟨hdeleted, hmark, hfired⟩
        · rw [List.count_eq_zero.mpr fun hmem => hnone _ hmem rfl,
            if_neg fun hall => hnone _ hall.1 rfl]
        · rw [hfired, if_neg fun hall => hall.2.1 hdeleted]
        · rw [hfired]
          simp [hdeleted, hmark]

/-- Between the steps: the list is sound, and if there is a marked handle in
it, the next trim will look for it. -/
def Inv (r : Registry) : Prop :=
  ∃ ns, r.Sound ns ∧ (r.nodesToDelete = false → ∀ h ∈ ns.map Prod.snd, r.marks h = false)

theorem start_inv : start.Inv := by
  refine ⟨[], ⟨rfl, List.nodup_nil, by simp, rfl, List.nodup_nil, fun h _ => ⟨rfl, by simp [start]⟩,
    fun h => .inl (by simp [start])⟩, by simp⟩

/-- **A step** that is clean does not fail, and keeps the invariant. -/
theorem step_inv (hr : r.Inv) {op : Op} (hclean : r.Clean op) :
    ∃ r', r.step op = .ok r' ∧ r'.Inv ∧ (op = .trim → r'.Trimmed) := by
  obtain ⟨ns, hs, hpending⟩ := hr
  cases op with
  | create =>
      obtain ⟨r', hstep, hs', hflag, hobjects⟩ := imcommCreateHandle_sound hs
      refine ⟨r', hstep, ⟨_, hs', fun hf h hmem => ?_⟩, nofun⟩
      rw [marks, hobjects]
      by_cases hne : h = r.brk
      · rw [hne, Function.update_self]
        rfl
      · rw [Function.update_of_ne hne]
        refine hpending (hflag ▸ hf) h ?_
        simpa [hne] using hmem
  | mark h =>
      obtain ⟨r', hstep, hs', hflag⟩ := imcommDeleteHandle_sound hs hclean
      exact ⟨r', hstep, ⟨ns, hs', fun hf => absurd (hflag.symm.trans hf) nofun⟩, nofun⟩
  | register h =>
      obtain ⟨r', hstep, hs', hflag, hmarks⟩ := imcommRegisterCallback_sound hs hclean
      exact ⟨r', hstep, ⟨ns, hs', fun hf => hmarks ▸ hpending (hflag ▸ hf)⟩, nofun⟩
  | deleteNow h =>
      by_cases hmem : h ∈ ns.map Prod.snd
      · have htail := hclean _ (hs.lists_iff.mpr rfl)
        obtain ⟨⟨p, g⟩, rest, rfl⟩ :=
          List.exists_cons_of_ne_nil (l := ns) (by rintro rfl; cases hmem)
        obtain rfl : h = g := (List.mem_cons.mp hmem).resolve_right htail
        obtain ⟨r', hstep, hs', hflag, hobjects⟩ := imcommDeleteHandleNow_head hs
        refine ⟨r', hstep, ⟨rest, hs', fun hf g hg => ?_⟩, nofun⟩
        have hne : g ≠ h := by
          rintro rfl
          exact htail hg
        rw [marks_of_ne hne hobjects]
        exact hpending (hflag ▸ hf) g (List.mem_cons_of_mem _ hg)
      · exact ⟨r, imcommDeleteHandleNow_of_notMem hs hmem, ⟨ns, hs, hpending⟩, nofun⟩
  | trim =>
      show ∃ r', r.imcommSelectTrim = .ok r' ∧ r'.Inv ∧ _
      rw [imcommSelectTrim]
      cases hflag : r.nodesToDelete with
      | false => exact ⟨r, rfl, ⟨ns, hs, hpending⟩, fun _ => hs.meant (hpending hflag)⟩
      | true =>
          obtain ⟨r', ns', hremove, hs', halive⟩ := removeDeletedHandles_sound hs
            (hclean hflag _ (hs.lists_iff.mpr rfl)) (Nat.lt_succ_of_le hs.length_le)
          have hs'' : Sound { r' with nodesToDelete := false } ns' :=
            ⟨hs'.linked, hs'.nodup, hs'.below, hs'.handles, hs'.created_nodup, hs'.fresh,
              hs'.recorded⟩
          rw [if_pos rfl, hremove]
          exact ⟨_, rfl, ⟨ns', hs'', fun _ => halive⟩, fun _ => hs''.meant halive⟩

/-- A run of clean steps, from any sound registry. -/
theorem foldlM_inv {ops : List Op} (hr : r.Inv) (hclean : r.CleanRun ops) {before : List Op}
    (hbefore : before <+: ops) :
    ∃ r', before.foldlM step r = .ok r' ∧ r'.Inv ∧ (before.getLast? = some .trim → r'.Trimmed) := by
  induction before generalizing r ops with
  | nil => exact ⟨r, rfl, hr, nofun⟩
  | cons op before ih =>
      obtain ⟨rest, rfl⟩ := hbefore
      obtain ⟨r₁, hstep, hr₁, htrim⟩ := step_inv hr hclean.1
      obtain ⟨r₂, hrun, hr₂, hlast⟩ := ih hr₁ (hclean.2 r₁ hstep) (List.prefix_append _ _)
      refine ⟨r₂, by rw [List.foldlM_cons, hstep, ok_bind, hrun], hr₂, fun heq => ?_⟩
      cases before with
      | nil =>
          obtain rfl := Except.ok.inj hrun
          exact htrim (by simpa using heq)
      | cons op' before => exact hlast (by simpa using heq)

/-- **The handle registry**: a run of clean steps ends each operation without
following a missing or freed node, and a trim leaves exactly the handles that
were created and neither marked nor deleted. -/
theorem registry_kept {ops : List Op} (hclean : start.CleanRun ops) :
    ∀ before, before <+: ops →
      ∃ r, run before = .ok r ∧ (before.getLast? = some .trim → r.Trimmed) := by
  intro before hbefore
  obtain ⟨r, hrun, -, htrim⟩ := foldlM_inv start_inv hclean hbefore
  exact ⟨r, hrun, htrim⟩

theorem CleanRun.cons {op : Op} {ops : List Op} (hclean : r.Clean op) (hstep : r.step op = .ok r')
    (hrest : r'.CleanRun ops) : r.CleanRun (op :: ops) := by
  refine ⟨hclean, fun r₁ hstep₁ => ?_⟩
  obtain rfl := Except.ok.inj (hstep.symm.trans hstep₁)
  exact hrest

/-- Of three handles the one in the middle is marked and trimmed. -/
theorem registry_kept_three :
    ∃ r, run [.create, .create, .create, .register 2, .mark 2, .trim] = .ok r ∧ r.Trimmed := by
  have hclean : start.CleanRun [.create, .create, .create, .register 2, .mark 2, .trim] := by
    refine .cons trivial rfl (.cons trivial rfl (.cons trivial rfl (.cons rfl rfl (.cons rfl rfl
      ⟨fun _ hs hl => ?_, fun _ _ => trivial⟩))))
    obtain ⟨ns, hlinked, rfl⟩ := hl
    rw [hlinked.unique (show Linked _ _ [(1, 0), (3, 2), (5, 4)] none from
      ⟨rfl, some 3, rfl, rfl, some 5, rfl, rfl, none, rfl, rfl⟩)]
    rfl
  obtain ⟨r, hrun, htrim⟩ := registry_kept hclean _ (List.prefix_refl _)
  exact ⟨r, hrun, htrim rfl⟩

/-- Of two handles the second is marked: the loop steps over the end of the
list. -/
theorem registry_null :
    ¬ ∀ before, before <+: [.create, .create, .mark 2, .trim] →
      ∃ r, run before = .ok r ∧ (before.getLast? = some .trim → r.Trimmed) := by
  intro h
  obtain ⟨r, hrun, -⟩ := h _ (List.prefix_refl _)
  cases hrun

end

end Registry

end Bsflite
