import Bsflite.Chain
import Bsflite.Input
import Bsflite.Login

/-!
# Bsflite.Connections

The connections that the client knows of: the list `conn->clist` and the
current one, `conn->conn`, with the functions that link a connection to the
list (`create_new_connection`) and those that unlink one (`handle_deleted`,
`input_reconnect`, `input_quit`).

The list lies in a heap of nodes, and the handles that it points to in
another; both kinds of blocks get their addresses from `brk`, and an address
is not given out again.  To follow `NULL` or a freed pointer is a `Fault`, and
so is a loop that does not end within its fuel.

* `createNewConnection_links` — a new connection goes to the end.
* `unlinkConnection_cases` — what is left when the unlinking code returns.
* `unlink_iff` — for which positions in which lists it does.
-/

namespace Bsflite

open Chain (Ptr Node Linked lastFrom)

/-! ## state -/

/-- What a new connection gets from outside: what `malloc` leaves in the block
of its handle, the profile that `set_profile` reads, and the network. -/
structure Supply where
  block : Imcomm
  profile : Str
  network : Network

/-- The globals of the client that its connections are in.  The nodes of the
list have the handle; `client.conn.conn` tells whether `conn` is set. -/
structure Session where
  client : Client
  conn : Option Ptr
  clist : Option Ptr
  nodes : Chain.Heap Ptr
  handles : Ptr → Option Imcomm
  /-- the first address that was never given out -/
  brk : Ptr
  password : Str
  proxytype : ProxyType
  oscarport : Int
  autoReconnect : Int

/-- The node at an address. -/
def nodeAt (nodes : Chain.Heap Ptr) (p : Ptr) : Except Fault (Node Ptr) :=
  match nodes p with
  | some n => .ok n
  | none => .error .oob

namespace Session

/-- Before the first connection. -/
def start (client : Client) (password : Str) (proxytype : ProxyType)
    (oscarport autoReconnect : Int) : Session where
  client :=
    { client with
      buddylist := none
      conn :=
        { client.conn with conn := false, isaway := false, awaymsg := none, buddiesonline := 0 } }
  conn := none
  clist := none
  nodes := fun _ => none
  handles := fun _ => none
  brk := 0
  password := password
  proxytype := proxytype
  oscarport := oscarport
  autoReconnect := autoReconnect

/-- The handle at an address. -/
def handle (s : Session) (p : Ptr) : Except Fault Imcomm :=
  match s.handles p with
  | some h => .ok h
  | none => .error .oob

def setHandle (s : Session) (p : Ptr) (h : Imcomm) : Session :=
  { s with handles := Function.update s.handles p (some h) }

/-- `conn->conn = p` -/
def setCurrent (s : Session) (p : Option Ptr) : Session :=
  { s with
    conn := p
    client := { s.client with conn := { s.client.conn with conn := p.isSome } } }

/-- Give the nodes of a buddy list back. -/
def freeBuddies (heap : LinkedList.Heap Buddy) : Nat → Option Ptr → LinkedList.Heap Buddy
  | 0, _ => heap
  | _ + 1, none => heap
  | fuel + 1, some tr =>
    match heap.cell tr, heap.free tr with
    | some c, some heap => freeBuddies heap fuel c.next
    | _, _ => heap

/-- `delete_buddylist(buddylist); buddylist = NULL; conn->buddiesonline = 0;` -/
def deleteBuddylist (s : Session) : Session :=
  { s with
    client :=
      { s.client with
        heap := freeBuddies s.client.heap (s.client.heap.brk + 1) s.client.buddylist
        buddylist := none
        conn := { s.client.conn with buddiesonline := 0 } } }

/-! ## linking -/

section
variable [Host]

/-- `imcomm_set_profile` -/
def imcommSetProfile (h : Imcomm) (profile : Str) : Imcomm :=
  let h := { h with profileStr := some profile }
  if h.socket ≠ 0 then (snacSetLocationInfo h).1 else h

/-- `create_new_connection`: the two blocks that it gets are the node and the
handle. -/
def createNewConnection (s : Session) (new : Supply) : Except Fault Session :=
  let temp := s.brk
  let conn := s.brk + 1
  let s := { s with brk := s.brk + 2 }.setHandle conn
    (imcommSetProfile (imcommCreateHandle new.block) new.profile)
  match s.clist with
  | none =>
    return { s with
      clist := some temp, nodes := Function.update s.nodes temp (some ⟨conn, none⟩) }
  | some first =>
    match lastFrom s.nodes (s.brk + 1) first with
    | none => .error .oob
    | some trav => do
      let n ← nodeAt s.nodes trav
      return { s with
        nodes := Function.update (Function.update s.nodes trav (some { n with next := some temp }))
          temp (some ⟨conn, none⟩) }

/-- What follows `create_new_connection` wherever it is called: the first
connection of the list signs on, and becomes the current one. -/
def signonFirst (s : Session) (network : Network) : Except Fault Session :=
  match s.clist with
  | none => .error .null
  | some first => do
    let n ← nodeAt s.nodes first
    let h ← s.handle n.val
    let h := if s.oscarport ≠ 0 then { h with oscarport := uint16 s.oscarport } else h
    let h := (@imcommImSignon _ network s.proxytype h s.client.conn.username s.password).1
    return (s.setHandle n.val h).setCurrent (some n.val)

/-- The end of both ways to reconnect: the current connection is told about
the away state. -/
def restoreAway (s : Session) : Except Fault Session :=
  if s.client.conn.isaway then
    match s.conn, s.client.conn.awaymsg with
    | some p, some awaymsg => do
      let h ← s.handle p
      return s.setHandle p (imcommSetAway h awaymsg)
    | _, _ => .error .null
  else return s

end

/-! ## unlinking -/

/-- `for (trav = conn->clist; trav->next;)`: `trav` does not move. -/
def unlinkLoop (handle : Option Ptr) :
    Nat → Chain.Heap Ptr → Ptr → Except Fault (Chain.Heap Ptr)
  | 0, _, _ => .error .hang
  | fuel + 1, nodes, trav => do
    let n ← nodeAt nodes trav
    match n.next with
    | none => return nodes
    | some temp => do
      let m ← nodeAt nodes temp
      if some m.val = handle then
        let nodes := Function.update nodes trav (some { n with next := m.next })
        unlinkLoop handle fuel (Function.update nodes temp none) trav
      else unlinkLoop handle fuel nodes trav

/-- The code that takes a connection off the list, of which there are three
copies. -/
def unlinkConnection (fuel : Nat) (s : Session) (handle : Option Ptr) : Except Fault Session :=
  match s.clist with
  | none => .error .null
  | some first => do
    let n ← nodeAt s.nodes first
    if some n.val = handle then
      return { s with clist := n.next, nodes := Function.update s.nodes first none }
    else do
      let nodes ← unlinkLoop handle fuel s.nodes first
      return { s with nodes := nodes }

/-- `imcomm_delete_handle_now`, as far as the handle itself goes. -/
def deleteHandleNow (s : Session) (handle : Option Ptr) : Session :=
  match handle with
  | some p => { s with handles := Function.update s.handles p none }
  | none => s

section
variable [Host]

/-- `handle_deleted`; `new` is what a new connection gets. -/
def handleDeleted (fuel : Nat) (s : Session) (handle : Ptr) (new : Supply) :
    Except Fault Session := do
  let s ← (s.deleteBuddylist.setCurrent none).unlinkConnection fuel (some handle)
  if s.autoReconnect ≠ 0 then do
    let s ← s.createNewConnection new
    let s ← s.signonFirst new.network
    s.restoreAway
  else return s

/-- The name and the password that `input_reconnect` is given. -/
def setUser (s : Session) (arg password : Str) : Session :=
  if arg = [] then s
  else
    { s with
      client := { s.client with conn := { s.client.conn with username := arg } }
      password := password }

omit [Host] in
/-- What `input_reconnect` does first when there is a connection. -/
def dropCurrent (fuel : Nat) (s : Session) : Except Fault Session := do
  let s ← s.deleteBuddylist.unlinkConnection fuel s.conn
  return (s.deleteHandleNow s.conn).setCurrent none

/-- `input_reconnect`; `password` is what `b_getpassword` reads. -/
def inputReconnect (fuel : Nat) (s : Session) (arg password : Str) (new : Supply) :
    Except Fault Session := do
  let s := s.setUser arg password
  let s ← (if s.conn.isSome then s.dropCurrent fuel else .ok s)
  let s ← s.createNewConnection new
  let s ← s.signonFirst new.network
  s.restoreAway

omit [Host] in
/-- `input_quit`, up to where it frees `conn` and exits. -/
def inputQuit (fuel : Nat) (s : Session) : Except Fault Session := do
  let s ← (s.deleteHandleNow s.conn).unlinkConnection fuel s.conn
  return s.deleteBuddylist

end

/-! ## the list as a list -/

/-- The nodes of the list with their handles, in order. -/
structure Chained (s : Session) (ns : List (Ptr × Ptr)) : Prop where
  linked : Linked s.nodes s.clist ns none
  nodup : (ns.map Prod.fst).Nodup
  below : ∀ p ∈ ns.map Prod.fst, p < s.brk
  handlesNodup : (ns.map Prod.snd).Nodup
  handlesBelow : ∀ h ∈ ns.map Prod.snd, h < s.brk

/-- The handles of the list, in order. -/
def Lists (s : Session) (hs : List Ptr) : Prop :=
  ∃ ns, Linked s.nodes s.clist ns none ∧ ns.map Prod.snd = hs

theorem start_chained (client : Client) (password : Str) (proxytype : ProxyType)
    (oscarport autoReconnect : Int) :
    (start client password proxytype oscarport autoReconnect).Chained [] := by
  constructor <;> simp [start, Linked]

section
variable {s : Session} {ns : List (Ptr × Ptr)} {p h : Ptr}

theorem nodeAt_eq {nodes : Chain.Heap Ptr} {n : Node Ptr} (hn : nodes p = some n) :
    nodeAt nodes p = .ok n := by
  rw [nodeAt, hn]

theorem handle_eq {obj : Imcomm} (hobj : s.handles h = some obj) : s.handle h = .ok obj := by
  rw [handle, hobj]

theorem Chained.lists (hc : s.Chained ns) : s.Lists (ns.map Prod.snd) := ⟨ns, hc.linked, rfl⟩

/-- The list is not longer than addresses were given out. -/
theorem Chained.length_le (hc : s.Chained ns) : ns.length ≤ s.brk := by
  have hsub : ns.map Prod.fst ⊆ List.range s.brk := fun p hp => List.mem_range.mpr (hc.below p hp)
  simpa using (List.subperm_of_subset hc.nodup hsub).length_le

/-- A session with one handle more, and another list. -/
def withConnection [Host] (s : Session) (new : Supply) (clist : Option Ptr)
    (nodes : Chain.Heap Ptr) : Session :=
  { { s with brk := s.brk + 2 }.setHandle (s.brk + 1)
      (imcommSetProfile (imcommCreateHandle new.block) new.profile) with
    clist := clist
    nodes := nodes }

/-- A new connection is at the end of the list. -/
theorem createNewConnection_links [Host] (hc : s.Chained ns) (new : Supply) :
    ∃ clist nodes, s.createNewConnection new = .ok (s.withConnection new clist nodes) ∧
      (s.withConnection new clist nodes).Chained (ns ++ [(s.brk, s.brk + 1)]) := by
  have hnew : s.brk ∉ ns.map Prod.fst := fun hmem => Nat.lt_irrefl _ (hc.below _ hmem)
  have hnewHandle : s.brk + 1 ∉ ns.map Prod.snd :=
    fun hmem => Nat.not_succ_lt_self (hc.handlesBelow _ hmem)
  have hchained {t : Session} (hbrk : t.brk = s.brk + 2)
      (hl : Linked t.nodes t.clist (ns ++ [(s.brk, s.brk + 1)]) none) :
      t.Chained (ns ++ [(s.brk, s.brk + 1)]) := by
    constructor
    · exact hl
    · simpa using hc.nodup.concat hnew
    · simp only [hbrk, List.map_append, List.forall_mem_append]
      exact ⟨fun p hp => Nat.lt_add_right 2 (hc.below p hp), by simp⟩
    · simpa using hc.handlesNodup.concat hnewHandle
    · simp only [hbrk, List.map_append, List.forall_mem_append]
      exact ⟨fun h hh => Nat.lt_add_right 2 (hc.handlesBelow h hh), by simp⟩
  obtain rfl | ⟨as, ⟨q, a⟩, rfl⟩ := List.eq_nil_or_concat' ns
  · have hclist : s.clist = none := hc.linked
    refine ⟨some s.brk, Function.update s.nodes s.brk (some ⟨s.brk + 1, none⟩), ?_,
      hchained rfl ⟨rfl, none, Function.update_self _ _ _, rfl⟩⟩
    simp [createNewConnection, withConnection, setHandle, hclist, pure, Except.pure]
  · obtain ⟨has, next, hnode, rfl⟩ := hc.linked.split
    obtain ⟨first, hfirst⟩ : ∃ first, s.clist = some first := by
      cases as with
      | nil => exact ⟨q, has⟩
      | cons x as => exact ⟨x.1, has.1⟩
    have hlast : lastFrom s.nodes (s.brk + 2 + 1) first = some q := by
      have hlen := hc.length_le
      rw [List.length_append, List.length_singleton] at hlen
      exact Chain.lastFrom_eq (hfirst ▸ hc.linked) (by omega)
    have hq : q ∉ as.map Prod.fst := by
      have hnodup := hc.nodup
      rw [List.map_append, List.nodup_append] at hnodup
      exact fun hmem => hnodup.2.2 q hmem q (by simp) rfl
    refine ⟨s.clist, _, ?_, hchained rfl (hc.linked.snoc hq hnew)⟩
    simp only [createNewConnection, setHandle, hfirst, hlast, nodeAt_eq hnode]
    rfl

/-! ## the loop -/

section
variable {nodes : Chain.Heap Ptr} {handle : Option Ptr} {a q : Ptr} {fuel : Nat}

/-- At the last node the loop ends. -/
theorem unlinkLoop_last (hl : Linked nodes (some p) [(p, a)] none) :
    unlinkLoop handle (fuel + 1) nodes p = .ok nodes := by
  obtain ⟨-, next, hnode, rfl⟩ := hl
  simp [unlinkLoop, nodeAt_eq hnode, ok_bind, pure, Except.pure]

/-- In front of another handle it changes nothing, and goes on for ever. -/
theorem unlinkLoop_stuck {b : Ptr} (hl : Linked nodes (some p) ((p, a) :: (q, b) :: ns) none)
    (hne : some b ≠ handle) (fuel : Nat) : unlinkLoop handle fuel nodes p = .error .hang := by
  obtain ⟨-, mid, hnode, rfl, next, hnode', -⟩ := hl
  induction fuel with
  | zero => rfl
  | succ fuel ih => simp [unlinkLoop, nodeAt_eq hnode, nodeAt_eq hnode', ok_bind, hne, ih]

/-- In front of the handle it unlinks that, and looks at the next one. -/
theorem unlinkLoop_found (hl : Linked nodes (some p) ((p, a) :: (q, h) :: ns) none)
    (hnodup : (((p, a) :: (q, h) :: ns).map Prod.fst).Nodup) :
    ∃ nodes', Linked nodes' (some p) ((p, a) :: ns) none ∧ ∀ fuel,
      unlinkLoop (some h) (fuel + 1) nodes p = unlinkLoop (some h) fuel nodes' p := by
  obtain ⟨next, hnode, hnode', -, hl'⟩ := @Linked.unlink _ _ _ _ [] _ _ _ _ _ hl hnodup
  refine ⟨_, hl', fun fuel => ?_⟩
  simp only [unlinkLoop, nodeAt_eq hnode, nodeAt_eq hnode', ok_bind, if_pos]

end

/-! ## unlinking a connection -/

section
variable {a : Ptr} {fuel : Nat} {handle : Option Ptr}

/-- A list without some of its connections. -/
theorem Chained.sublist {s' : Session} {ns' : List (Ptr × Ptr)} (hc : s.Chained ns)
    (hsub : List.Sublist ns' ns) (hbrk : s'.brk = s.brk)
    (hl : Linked s'.nodes s'.clist ns' none) : s'.Chained ns' where
  linked := hl
  nodup := hc.nodup.sublist (hsub.map _)
  below := fun p hp => hbrk ▸ hc.below p ((hsub.map _).subset hp)
  handlesNodup := hc.handlesNodup.sublist (hsub.map _)
  handlesBelow := fun h hh => hbrk ▸ hc.handlesBelow h ((hsub.map _).subset hh)

/-- The handles behind the first are others. -/
theorem Chained.handle_ne {b : Ptr} (hc : s.Chained ((p, a) :: ns)) (hb : b ∈ ns.map Prod.snd) :
    some a ≠ some b := by
  have hnodup := (List.nodup_cons.mp hc.handlesNodup).1
  exact fun heq => hnodup (Option.some.inj heq ▸ hb)

/-- The first connection goes. -/
theorem unlinkConnection_head (hc : s.Chained ((p, h) :: ns)) :
    ∃ clist nodes,
      s.unlinkConnection fuel (some h) = .ok { s with clist := clist, nodes := nodes } ∧
      ({ s with clist := clist, nodes := nodes } : Session).Chained ns := by
  have hp : p ∉ ns.map Prod.fst := (List.nodup_cons.mp hc.nodup).1
  obtain ⟨next, hnode, hl⟩ := hc.linked.drop_head hp
  refine ⟨next, _, ?_, hc.sublist (List.sublist_cons_self _ _) rfl hl⟩
  simp only [unlinkConnection, hc.linked.1, nodeAt_eq hnode, ok_bind, if_pos]
  rfl

/-- Behind the first connection it is up to the loop. -/
theorem unlinkConnection_tail (hc : s.Chained ((p, a) :: ns)) (hne : some a ≠ handle) :
    s.unlinkConnection fuel handle = (do
      let nodes ← unlinkLoop handle fuel s.nodes p
      return { s with nodes := nodes }) := by
  obtain ⟨hclist, next, hnode, -⟩ := hc.linked
  simp only [unlinkConnection, hclist, nodeAt_eq hnode, ok_bind, if_neg hne]

/-- A single connection stays when it is another one. -/
theorem unlinkConnection_single (hc : s.Chained [(p, a)]) (hne : some a ≠ handle) :
    s.unlinkConnection (fuel + 1) handle = .ok s := by
  have hl := hc.linked
  rw [hl.1] at hl
  rw [unlinkConnection_tail hc hne, unlinkLoop_last hl]
  rfl

/-- The second of two connections goes. -/
theorem unlinkConnection_second {q : Ptr} (hc : s.Chained [(p, a), (q, h)]) :
    ∃ nodes, s.unlinkConnection (fuel + 2) (some h) = .ok { s with nodes := nodes } ∧
      ({ s with nodes := nodes } : Session).Chained [(p, a)] := by
  have hne : some a ≠ some h := hc.handle_ne (List.mem_singleton.mpr rfl)
  have hl := hc.linked
  have hclist : s.clist = some p := hl.1
  rw [hclist] at hl
  obtain ⟨nodes, hl', hloop⟩ := unlinkLoop_found hl hc.nodup
  refine ⟨nodes, ?_, hc.sublist (by simp) rfl (hclist ▸ hl')⟩
  rw [unlinkConnection_tail hc hne, hloop, unlinkLoop_last hl']
  rfl

/-- Whatever else is behind the first connection keeps the loop busy. -/
theorem unlinkConnection_hang {q b : Ptr} (hc : s.Chained ((p, a) :: (q, b) :: ns))
    (hne : some a ≠ handle) (hmore : some b ≠ handle ∨ ns ≠ []) :
    s.unlinkConnection fuel handle = .error .hang := by
  have hl := hc.linked
  have hclist : s.clist = some p := hl.1
  rw [hclist] at hl
  have hhang : unlinkLoop handle fuel s.nodes p = .error .hang := by
    by_cases hb : some b = handle
    · obtain ⟨⟨r, c⟩, ns, rfl⟩ := List.exists_cons_of_ne_nil (hmore.resolve_left (not_not_intro hb))
      subst hb
      obtain ⟨nodes, hl', hloop⟩ := unlinkLoop_found hl hc.nodup
      have hcb : some c ≠ some b := by
        have hnodup := hc.handlesNodup
        simp only [List.map_cons, List.nodup_cons, List.mem_cons, not_or] at hnodup
        exact fun heq => hnodup.2.1.1 (Option.some.inj heq).symm
      cases fuel with
      | zero => rfl
      | succ fuel => rw [hloop, unlinkLoop_stuck hl' hcb]
    · exact unlinkLoop_stuck hl hb fuel
  rw [unlinkConnection_tail hc hne, hhang]
  rfl

/-- The second of two connections takes two rounds. -/
theorem unlinkConnection_short {q : Ptr} (hc : s.Chained [(p, a), (q, h)]) (hfuel : fuel < 2) :
    s.unlinkConnection fuel (some h) = .error .hang := by
  have hne : some a ≠ some h := hc.handle_ne (List.mem_singleton.mpr rfl)
  have hl := hc.linked
  rw [show s.clist = some p from hl.1] at hl
  obtain ⟨nodes, hl', hloop⟩ := unlinkLoop_found hl hc.nodup
  have hhang : unlinkLoop (some h) fuel s.nodes p = .error .hang := by
    obtain rfl | rfl : fuel = 0 ∨ fuel = 1 := by omega
    · rfl
    · exact hloop 0
  rw [unlinkConnection_tail hc hne, hhang]
  rfl

/-- When the code returns, either the first connection went, or there is one
left that is not the one to go. -/
theorem unlinkConnection_cases {s' : Session} (hc : s.Chained ns)
    (hok : s.unlinkConnection fuel handle = .ok s') :
    ∃ clist nodes ns', s' = { s with clist := clist, nodes := nodes } ∧ s'.Chained ns' ∧
      ((∃ p h, handle = some h ∧ ns = (p, h) :: ns') ∨
        ∃ p a, ns' = [(p, a)] ∧ some a ≠ handle ∧
          (ns = [(p, a)] ∨ ∃ q h, handle = some h ∧ ns = [(p, a), (q, h)])) := by
  cases ns with
  | nil =>
      have hclist : s.clist = none := hc.linked
      simp [unlinkConnection, hclist] at hok
  | cons n ns =>
      obtain ⟨p, a⟩ := n
      by_cases ha : some a = handle
      · subst ha
        obtain ⟨clist, nodes, heq, hc'⟩ := @unlinkConnection_head _ _ _ _ fuel hc
        obtain rfl := Except.ok.inj (heq.symm.trans hok)
        exact ⟨clist, nodes, ns, rfl, hc', .inl ⟨p, a, rfl, rfl⟩⟩
      · match ns, hc with
        | [], hc =>
          cases fuel with
          | zero =>
              rw [unlinkConnection_tail hc ha] at hok
              cases hok
          | succ fuel =>
              obtain rfl := Except.ok.inj ((unlinkConnection_single hc ha).symm.trans hok)
              exact ⟨s.clist, s.nodes, [(p, a)], rfl, hc, .inr ⟨p, a, rfl, ha, .inl rfl⟩⟩
        | [(q, b)], hc =>
          by_cases hb : some b = handle
          · subst hb
            by_cases hfuel : fuel < 2
            · rw [unlinkConnection_short hc hfuel] at hok
              cases hok
            · obtain ⟨fuel, rfl⟩ : ∃ k, fuel = k + 2 := ⟨fuel - 2, by omega⟩
              obtain ⟨nodes, heq, hc'⟩ := @unlinkConnection_second _ _ _ _ fuel _ hc
              obtain rfl := Except.ok.inj (heq.symm.trans hok)
              exact ⟨s.clist, nodes, [(p, a)], rfl, hc',
                .inr ⟨p, a, rfl, ha, .inr ⟨q, b, rfl, rfl⟩⟩⟩
          · rw [unlinkConnection_hang hc ha (.inl hb)] at hok
            cases hok
        | (q, b) :: n :: ns, hc =>
          rw [unlinkConnection_hang hc ha (.inr (List.cons_ne_nil n ns))] at hok
          cases hok

end

/-- A connection at a position goes when it is the first one, or the second of
two. -/
theorem unlinkConnection_iff (hc : s.Chained ns) {k : Nat} (hk : (ns.map Prod.snd)[k]? = some h) :
    (∃ fuel s', s.unlinkConnection fuel (some h) = .ok s' ∧
      s'.Lists ((ns.map Prod.snd).eraseIdx k)) ↔ k = 0 ∨ k = 1 ∧ ns.length = 2 := by
  match ns, hc, k with
  | (p, a) :: ns, hc, 0 =>
    obtain rfl : a = h := by simpa using hk
    obtain ⟨clist, nodes, heq, hc'⟩ := @unlinkConnection_head _ _ _ _ 0 hc
    exact iff_of_true ⟨0, _, heq, by simpa using hc'.lists⟩ (.inl rfl)
  | [(p, a), (q, b)], hc, 1 =>
    obtain rfl : b = h := by simpa using hk
    obtain ⟨nodes, heq, hc'⟩ := @unlinkConnection_second _ _ _ _ 0 _ hc
    exact iff_of_true ⟨2, _, heq, by simpa using hc'.lists⟩ (.inr ⟨rfl, rfl⟩)
  | (p, a) :: (q, b) :: n :: ns, hc, 1 =>
    obtain rfl : b = h := by simpa using hk
    have hab : some a ≠ some b := hc.handle_ne List.mem_cons_self
    refine iff_of_false ?_ (by simp)
    rintro ⟨fuel, s', hok, -⟩
    rw [unlinkConnection_hang hc hab (.inr (List.cons_ne_nil n ns))] at hok
    cases hok
  | (p, a) :: (q, b) :: ns, hc, k + 2 =>
    have hmem : h ∈ ns.map Prod.snd := List.mem_of_getElem? (by simpa using hk)
    have hah : some a ≠ some h := hc.handle_ne (List.mem_cons_of_mem _ hmem)
    have hbh : some b ≠ some h := by
      have hnodup := (List.nodup_cons.mp (List.nodup_cons.mp hc.handlesNodup).2).1
      exact fun heq => hnodup (Option.some.inj heq ▸ hmem)
    refine iff_of_false ?_ (by omega)
    rintro ⟨fuel, s', hok, -⟩
    rw [unlinkConnection_hang hc hah (.inl hbh)] at hok
    cases hok
  | [_], _, k + 1 => simp at hk
  | [], _, k => simp at hk

/-! ## the three callers -/

/-- The functions that have a copy of the code. -/
inductive Unlinker where
  | handleDeleted
  | inputReconnect
  | inputQuit
deriving DecidableEq, Repr

section
variable [Host]

/-- A copy with what comes before it; the last two take the current
connection off the list. -/
def Unlinker.run (fuel : Nat) (s : Session) (handle : Ptr) (new : Supply) :
    Unlinker → Except Fault Session
  | .handleDeleted => s.handleDeleted fuel handle new
  | .inputReconnect => (s.setCurrent (some handle)).dropCurrent fuel
  | .inputQuit => (s.setCurrent (some handle)).inputQuit fuel

omit [Host] in
/-- A caller unlinks from `t`, and does `post` in the end, which has no part
in the list. -/
theorem caller_iff {t : Session} {run : Nat → Except Fault Session} {post : Session → Session}
    (hrun : ∀ fuel, run fuel = (t.unlinkConnection fuel (some h)).map post)
    (hpost : ∀ s' hs, (post s').Lists hs ↔ s'.Lists hs) (ht : t.Chained ns) {k : Nat}
    (hk : (ns.map Prod.snd)[k]? = some h) :
    (∃ fuel s', run fuel = .ok s' ∧ s'.Lists ((ns.map Prod.snd).eraseIdx k)) ↔
      k = 0 ∨ k = 1 ∧ ns.length = 2 := by
  rw [← unlinkConnection_iff ht hk]
  constructor
  · rintro ⟨fuel, s', hok, hlists⟩
    rw [hrun] at hok
    cases hunlink : t.unlinkConnection fuel (some h) with
    | error e => simp [hunlink, Except.map] at hok
    | ok r =>
        obtain rfl : post r = s' := by simpa [hunlink, Except.map] using hok
        exact ⟨fuel, r, hunlink, (hpost r _).mp hlists⟩
  · rintro ⟨fuel, r, hunlink, hlists⟩
    exact ⟨fuel, post r, by rw [hrun, hunlink]; rfl, (hpost r _).mpr hlists⟩

/-- Without `auto_reconnect` nothing follows. -/
theorem handleDeleted_eq (hc : s.Chained ns) (hauto : s.autoReconnect = 0) (new : Supply)
    (fuel : Nat) :
    s.handleDeleted fuel h new =
      ((s.deleteBuddylist.setCurrent none).unlinkConnection fuel (some h)).map id := by
  have hc' : (s.deleteBuddylist.setCurrent none).Chained ns :=
    hc.sublist (List.Sublist.refl ns) rfl hc.linked
  unfold handleDeleted
  cases hunlink : (s.deleteBuddylist.setCurrent none).unlinkConnection fuel (some h) with
  | error e => rfl
  | ok r =>
      obtain ⟨clist, nodes, ns', rfl, -⟩ := unlinkConnection_cases hc' hunlink
      simp [deleteBuddylist, setCurrent, hauto, pure, Except.pure, bind, Except.bind, Except.map]

omit [Host] in
theorem dropCurrent_eq (fuel : Nat) :
    s.dropCurrent fuel = (s.deleteBuddylist.unlinkConnection fuel s.conn).map
      fun s' => (s'.deleteHandleNow s'.conn).setCurrent none := by
  unfold dropCurrent
  cases s.deleteBuddylist.unlinkConnection fuel s.conn <;> rfl

omit [Host] in
theorem inputQuit_eq (fuel : Nat) :
    s.inputQuit fuel = ((s.deleteHandleNow s.conn).unlinkConnection fuel s.conn).map
      deleteBuddylist := by
  unfold inputQuit
  cases (s.deleteHandleNow s.conn).unlinkConnection fuel s.conn <;> rfl

/-- Each caller copes with the same positions. -/
theorem Unlinker.run_iff (u : Unlinker) (hc : s.Chained ns) (hauto : s.autoReconnect = 0)
    (new : Supply) {k : Nat} (hk : (ns.map Prod.snd)[k]? = some h) :
    (∃ fuel s', u.run fuel s h new = .ok s' ∧ s'.Lists ((ns.map Prod.snd).eraseIdx k)) ↔
      k = 0 ∨ k = 1 ∧ ns.length = 2 := by
  have hsame {t : Session} (hbrk : t.brk = s.brk) (hl : Linked t.nodes t.clist ns none) :
      t.Chained ns := hc.sublist (List.Sublist.refl ns) hbrk hl
  cases u with
  | handleDeleted =>
      exact caller_iff (handleDeleted_eq hc hauto new) (fun _ _ => Iff.rfl)
        (hsame rfl hc.linked) hk
  | inputReconnect =>
      refine caller_iff (@dropCurrent_eq (s.setCurrent (some h))) (fun s' _ => ?_)
        (hsame rfl hc.linked) hk
      cases hconn : s'.conn <;> simp [deleteHandleNow, setCurrent, Lists]
  | inputQuit =>
      exact caller_iff (@inputQuit_eq (s.setCurrent (some h))) (fun _ _ => Iff.rfl)
        (hsame rfl hc.linked) hk

/-- Any number of new connections. -/
theorem createNewConnections_links (hc : s.Chained ns) (news : List Supply) :
    ∃ s' ns', news.foldlM createNewConnection s = .ok s' ∧ s'.Chained ns' ∧
      ns'.length = ns.length + news.length ∧ s'.autoReconnect = s.autoReconnect := by
  induction news generalizing s ns with
  | nil => exact ⟨s, ns, rfl, hc, rfl, rfl⟩
  | cons new news ih =>
      obtain ⟨clist, nodes, heq, hc'⟩ := createNewConnection_links hc new
      obtain ⟨s', ns', hrest, hs', hlen, hauto⟩ := ih hc'
      refine ⟨s', ns', by rw [List.foldlM_cons, heq]; exact hrest, hs', ?_, hauto⟩
      rw [hlen, List.length_append, List.length_cons, List.length_cons, List.length_nil]
      omega

/-- **Unlinking a connection**: of the connections of a list, each caller takes
off the first one, and the second of two; in front of any other the loop does
not end. -/
theorem unlink_iff (client : Client) (password : Str) (proxytype : ProxyType) (oscarport : Int)
    (news : List Supply) (new : Supply) :
    ∃ s hs, news.foldlM createNewConnection (start client password proxytype oscarport 0) = .ok s ∧
      s.Lists hs ∧ hs.length = news.length ∧
      ∀ k h, hs[k]? = some h → ∀ u : Unlinker,
        ((∃ fuel s', u.run fuel s h new = .ok s' ∧ s'.Lists (hs.eraseIdx k)) ↔
          k = 0 ∨ k = 1 ∧ news.length = 2) := by
  obtain ⟨s, ns, hnews, hc, hlen, hauto⟩ := createNewConnections_links
    (start_chained client password proxytype oscarport 0) news
  have hlen : ns.length = news.length := by simpa using hlen
  refine ⟨s, ns.map Prod.snd, hnews, hc.lists, by rw [List.length_map, hlen], fun k h hk u => ?_⟩
  rw [u.run_iff hc hauto new hk, hlen]

end

end

/-- A block of zeroes, an empty profile, and a network that refuses. -/
def poorSupply : Supply := ⟨zeroBlock, [], refusingNetwork⟩

/-- The second of three connections: it goes, but the loop goes on for ever. -/
theorem unlink_second_of_three :
    ¬ ∀ (s : Session) (hs : List Ptr),
      (List.replicate 3 poorSupply).foldlM (@createNewConnection littleEndianHost)
        (start startClient [] .none 0 0) = .ok s →
      s.Lists hs → ∀ k h, hs[k]? = some h → ∃ fuel s',
        @Session.handleDeleted littleEndianHost fuel s h poorSupply = .ok s' ∧
          s'.Lists (hs.eraseIdx k) := by
  intro hall
  obtain ⟨s, ns, hnews, hc, hlen, hauto⟩ := @createNewConnections_links _ _ littleEndianHost
    (start_chained startClient [] .none 0 0) (List.replicate 3 poorSupply)
  match ns, hc, hlen with
  | [(p, a), (q, b), (r, c)], hc, _ =>
    obtain ⟨fuel, s', hok, -⟩ := hall s [a, b, c] hnews hc.lists 1 b rfl
    have hne : some a ≠ some b := hc.handle_ne List.mem_cons_self
    have hhang :
        (s.deleteBuddylist.setCurrent none).unlinkConnection fuel (some b) = .error .hang :=
      unlinkConnection_hang (hc.sublist (List.Sublist.refl _) rfl hc.linked) hne
        (.inr (List.cons_ne_nil _ _))
    rw [@handleDeleted_eq _ _ _ littleEndianHost hc hauto, hhang] at hok
    cases hok

end Session

end Bsflite
