import Bsflite.Connections

/-!
# Bsflite.AwayState

The away message is kept twice: `conn->awaymsg` in the client, and `away_msg`
in the handle of the current connection.  Commands write both, and a handle
that comes after another gets its copy from the client.

`AwayInv` is what holds between any two commands: the first handle of the list
may have the client's message, the others have none, and the current
connection is the first one.

* `signonFirst_away`, `restoreAway_away` — a connection becomes the current one.
* `step_away` — each command keeps the invariant.
* `away_agrees` — so the copies agree in every run.
-/

namespace Bsflite

open Chain (Ptr Node Linked)

namespace Session

/-! ## runs -/

section
variable [Host]

/-- A command that needs a connection, in a session. -/
def onCurrent (s : Session) (f : World Client → World Client) : Except Fault Session :=
  match s.conn with
  | none => return s
  | some p => do
    let h ← s.handle p
    let w := f ⟨h, s.client, []⟩
    return { s.setHandle p w.handle with client := w.client }

/-- What happens to the connections and to the away state: the commands `g`,
`G` and `R!`, the end of a handle, and a subconnection, which has a handle of
its own. -/
inductive Op where
  | setAway (arg : Str)
  | setPredefaway (arg : Str) (awaymsgs : List Str)
  | reconnect (arg password : Str) (new : Supply)
  | deleted (handle : Ptr) (autoReconnect : Int) (new : Supply)
  | subconnection (block : Imcomm)

/-- One of them; `handle_deleted` is called for a handle that there is, which
is then given back. -/
def step (fuel : Nat) (s : Session) : Op → Except Fault Session
  | .setAway arg => s.onCurrent fun w => inputSetAway w arg
  | .setPredefaway arg awaymsgs =>
    { s with
      client := { s.client with conn := { s.client.conn with awaymsgs := awaymsgs } } }.onCurrent
        fun w => inputSetPredefaway w arg
  | .reconnect arg password new => s.inputReconnect fuel arg password new
  | .deleted handle autoReconnect new => do
    let _ ← s.handle handle
    let s ← { s with autoReconnect := autoReconnect }.handleDeleted fuel handle new
    return s.deleteHandleNow (some handle)
  | .subconnection block =>
    match s.conn with
    | none => return s
    | some p => do
      let h ← s.handle p
      return { s with brk := s.brk + 1 }.setHandle s.brk (imcommCreateChildHandle block h)

/-- The first connection, as `main` makes it, and then any of them. -/
def run (fuel : Nat) (s : Session) (new : Supply) (ops : List Op) : Except Fault Session := do
  let s ← s.createNewConnection new
  let s ← s.signonFirst new.network
  ops.foldlM (step fuel) s

end

/-! ## the invariant -/

/-- A handle has no away message, or the client's. -/
def Echoes (conn : BsfConn) (h : Imcomm) : Prop :=
  ∀ msg, h.awayMsg = some msg → conn.isaway = true ∧ conn.awaymsg = some msg ∧ h.isaway = true

/-- The copies in a session, with the nodes of the list. -/
structure AwayList (s : Session) (ns : List (Ptr × Ptr)) : Prop where
  chained : s.Chained ns
  live : ∀ p ∈ ns.map Prod.snd, ∃ h, s.handles p = some h ∧ Echoes s.client.conn h
  rest : ∀ p ∈ ns.tail.map Prod.snd, ∀ h, s.handles p = some h → h.awayMsg = none
  given : ∀ p, (s.handles p).isSome = true → p < s.brk
  awaymsg : s.client.conn.isaway = true → s.client.conn.awaymsg.isSome = true

/-- The current connection, if any, is the first one, and has the message
whenever there is one. -/
structure Current (s : Session) (ns : List (Ptr × Ptr)) : Prop where
  conn : s.client.conn.conn = s.conn.isSome
  first : ∀ p, s.conn = some p → (ns.map Prod.snd).head? = some p

def Restored (s : Session) : Prop :=
  ∀ p, s.conn = some p → s.client.conn.isaway = true → ∃ h msg,
    s.handles p = some h ∧ h.awayMsg = some msg

/-- The current handle and the client. -/
structure AwayAgrees (w : World Client) : Prop where
  conn : w.client.conn.conn = true
  echoes : Echoes w.client.conn w.handle
  given : w.client.conn.isaway = true →
    w.client.conn.awaymsg.isSome = true ∧ w.handle.awayMsg.isSome = true

/-- Between any two commands. -/
def AwayInv (s : Session) : Prop :=
  ∃ ns, s.AwayList ns ∧ s.Current ns ∧ s.Restored

/-! ## handles -/

section
variable [Host] (h : Imcomm)

theorem snacSetLocationInfo_frame : SendFrame h (snacSetLocationInfo h).1 :=
  (snacSendpkt_frame _ _ _ _ _).trans (snacSendpkt_frame _ _ _ _ _)

omit [Host] in
/-- The location packet changes nothing else. -/
theorem awayMsg_of_frame {h h' : Imcomm} (hf : SendFrame h h') :
    h'.awayMsg = h.awayMsg ∧ h'.isaway = h.isaway := by
  obtain ⟨_, _, _, _, rfl⟩ := hf
  exact ⟨rfl, rfl⟩

theorem imcommSetAway_awayMsg (msg : Str) :
    (imcommSetAway h msg).awayMsg = some msg ∧ (imcommSetAway h msg).isaway = true := by
  simp only [imcommSetAway]
  split
  · exact awayMsg_of_frame (snacSetLocationInfo_frame _)
  · exact ⟨rfl, rfl⟩

theorem imcommSetUnaway_awayMsg (haway : h.isaway = true) :
    (imcommSetUnaway h).awayMsg = none := by
  simp only [imcommSetUnaway, haway, if_true]
  split
  · exact (awayMsg_of_frame (snacSetLocationInfo_frame _)).1
  · rfl

theorem imcommSetProfile_awayMsg (profile : Str) :
    (imcommSetProfile h profile).awayMsg = h.awayMsg := by
  simp only [imcommSetProfile]
  split
  · exact (awayMsg_of_frame (snacSetLocationInfo_frame _)).1
  · rfl

theorem imcommImSignon_awayMsg [Network] (proxymode : ProxyType) (sn pw : Str) :
    (imcommImSignon proxymode h sn pw).1.awayMsg = h.awayMsg ∧
      (imcommImSignon proxymode h sn pw).1.isaway = h.isaway := by
  unfold imcommImSignon
  cases Network.dial (loginServer h proxymode).1 (loginServer h proxymode).2 with
  | none => exact ⟨rfl, rfl⟩
  | some conn =>
      have hsent := awayMsg_of_frame (snacSendpkt_frame (flapSendpkt
        { h with socket := conn.1, link := conn.2, pw := some pw, sn := some sn } 0x01
        (pktAddAll (pktInit 4) [.add32 0x00000001]) 0).1 0x17 0x06
        (pktAddAll (pktInit (12 + sn.length)) (signonFields sn)) 0)
      have hfirst := awayMsg_of_frame (flapSend_frame
        { h with socket := conn.1, link := conn.2, pw := some pw, sn := some sn } 0x01
        (pktAddAll (pktInit 4) [.add32 0x00000001]).data 0)
      exact ⟨hsent.1.trans hfirst.1, hsent.2.trans hfirst.2⟩

end

/-! ## what changes the list -/

section
variable {s s' : Session} {ns : List (Ptr × Ptr)} {p : Ptr}

/-- The first handle and the client are written together; the others have no
message that could be out of date. -/
theorem AwayList.store (hl : s.AwayList ns) (hp : (ns.map Prod.snd).head? = some p) {h : Imcomm}
    {client : Client} (hechoes : Echoes client.conn h)
    (hmsg : client.conn.isaway = true → client.conn.awaymsg.isSome = true) (conn : Option Ptr) :
    ({ s.setHandle p h with client := client, conn := conn } : Session).AwayList ns := by
  have hne : ns ≠ [] := by
    rintro rfl
    simp at hp
  obtain ⟨⟨q, p'⟩, ns, rfl⟩ := List.exists_cons_of_ne_nil hne
  obtain rfl : p' = p := by simpa using hp
  have hother : ∀ r ∈ ns.map Prod.snd, r ≠ p' := by
    rintro r hr rfl
    exact hl.chained.handle_ne hr rfl
  refine ⟨hl.chained.sublist (List.Sublist.refl _) rfl hl.chained.linked, ?_, ?_, ?_, hmsg⟩
  · intro r hr
    by_cases hrp : r = p'
    · exact ⟨h, by simp [setHandle, hrp], hechoes⟩
    · obtain ⟨obj, hobj, -⟩ := hl.live r hr
      have hrest : r ∈ ns.map Prod.snd := by
        simpa [hrp] using hr
      refine ⟨obj, by simp [setHandle, hrp, hobj], fun msg hmsg => ?_⟩
      rw [hl.rest r hrest obj hobj] at hmsg
      cases hmsg
  · intro r hr obj hobj
    have hne := hother r hr
    exact hl.rest r hr obj (by simpa [setHandle, hne] using hobj)
  · intro r hr
    by_cases hrp : r = p'
    · obtain ⟨obj, hobj, -⟩ := hl.live p' (by simp)
      exact hrp ▸ hl.given p' (by rw [hobj]; rfl)
    · exact hl.given r (by simpa [setHandle, hrp] using hr)

/-- The rest of a session has no part in it. -/
theorem AwayList.same (hl : s.AwayList ns) (hnodes : s'.nodes = s.nodes)
    (hclist : s'.clist = s.clist) (hhandles : s'.handles = s.handles) (hbrk : s'.brk = s.brk)
    (haway : s'.client.conn.isaway = s.client.conn.isaway)
    (hmsg : s'.client.conn.awaymsg = s.client.conn.awaymsg) : s'.AwayList ns where
  chained := hl.chained.sublist (List.Sublist.refl _) hbrk (by
    rw [hnodes, hclist]
    exact hl.chained.linked)
  live := fun p hp => by
    obtain ⟨h, hobj, hechoes⟩ := hl.live p hp
    exact ⟨h, by rw [hhandles, hobj], fun msg h => by rw [haway, hmsg]; exact hechoes msg h⟩
  rest := fun p hp h hobj => hl.rest p hp h (hhandles ▸ hobj)
  given := fun p hp => hbrk ▸ hl.given p (hhandles ▸ hp)
  awaymsg := fun h => hmsg ▸ hl.awaymsg (haway ▸ h)

/-- Some connections are gone. -/
theorem AwayList.sublist {ns' : List (Ptr × Ptr)} {clist : Option Ptr} {nodes : Chain.Heap Ptr}
    (hl : s.AwayList ns) (hsub : List.Sublist ns' ns) (htail : List.Sublist ns'.tail ns.tail)
    (hc : ({ s with clist := clist, nodes := nodes } : Session).Chained ns') :
    ({ s with clist := clist, nodes := nodes } : Session).AwayList ns' where
  chained := hc
  live := fun p hp => hl.live p ((hsub.map _).subset hp)
  rest := fun p hp => hl.rest p ((htail.map _).subset hp)
  given := hl.given
  awaymsg := hl.awaymsg

/-- A handle that is not in the list is given back. -/
theorem AwayList.delete (hl : s.AwayList ns) (hp : p ∉ ns.map Prod.snd) :
    (s.deleteHandleNow (some p)).AwayList ns := by
  have hne : ∀ r ∈ ns.map Prod.snd, r ≠ p := fun r hr heq => hp (heq ▸ hr)
  refine ⟨hl.chained.sublist (List.Sublist.refl _) rfl hl.chained.linked, ?_, ?_, ?_, hl.awaymsg⟩
  · intro r hr
    obtain ⟨obj, hobj, hechoes⟩ := hl.live r hr
    exact ⟨obj, by simp [deleteHandleNow, hne r hr, hobj], hechoes⟩
  · intro r hr obj hobj
    have hne := hne r ((ns.tail_sublist.map _).subset hr)
    exact hl.rest r hr obj (by simpa [deleteHandleNow, hne] using hobj)
  · intro r hr
    by_cases hrp : r = p
    · simp [deleteHandleNow, hrp] at hr
    · exact hl.given r (by simpa [deleteHandleNow, hrp] using hr)

/-- A new handle has no away message. -/
theorem AwayList.create [Host] (hl : s.AwayList ns) (new : Supply) {clist : Option Ptr}
    {nodes : Chain.Heap Ptr}
    (hc : (s.withConnection new clist nodes).Chained (ns ++ [(s.brk, s.brk + 1)])) :
    (s.withConnection new clist nodes).AwayList (ns ++ [(s.brk, s.brk + 1)]) := by
  have hnone : (imcommSetProfile (imcommCreateHandle new.block) new.profile).awayMsg = none :=
    imcommSetProfile_awayMsg _ _
  have hold : ∀ r, (s.handles r).isSome = true → r ≠ s.brk + 1 := by
    intro r hr heq
    exact Nat.not_succ_lt_self (heq ▸ hl.given r hr)
  refine ⟨hc, ?_, ?_, ?_, hl.awaymsg⟩
  · intro r hr
    rw [List.map_append, List.mem_append] at hr
    rcases hr with hr | hr
    · obtain ⟨obj, hobj, hechoes⟩ := hl.live r hr
      exact ⟨obj, by simp [withConnection, setHandle, hold r (by rw [hobj]; rfl), hobj], hechoes⟩
    · obtain rfl : r = s.brk + 1 := by simpa using hr
      refine ⟨_, by simp [withConnection, setHandle]; rfl, fun msg hmsg => ?_⟩
      rw [hnone] at hmsg
      cases hmsg
  · intro r hr obj hobj
    by_cases hrp : r = s.brk + 1
    · obtain rfl : obj = _ := by simpa [withConnection, setHandle, hrp] using hobj.symm
      exact hnone
    · have hr : r ∈ ns.tail.map Prod.snd := by
        cases ns with
        | nil => simp at hr
        | cons n ns => simpa [hrp] using hr
      exact hl.rest r hr obj (by simpa [withConnection, setHandle, hrp] using hobj)
  · intro r hr
    by_cases hrp : r = s.brk + 1
    · exact hrp ▸ Nat.lt_succ_self _
    · exact Nat.lt_add_right 2 (hl.given r (by simpa [withConnection, setHandle, hrp] using hr))

/-! ## a new current connection -/

section
variable [Host]

/-- What the first connection sends does not touch the copies. -/
theorem signonFirst_away (hl : s.AwayList ns) {network : Network}
    (hok : s.signonFirst network = .ok s') :
    s'.AwayList ns ∧ s'.Current ns ∧ s'.client.conn.isaway = s.client.conn.isaway := by
  cases ns with
  | nil =>
      have hclist : s.clist = none := hl.chained.linked
      simp [signonFirst, hclist] at hok
  | cons n ns =>
      obtain ⟨q, p⟩ := n
      obtain ⟨hclist, next, hnode, -⟩ := hl.chained.linked
      obtain ⟨h, hobj, hechoes⟩ := hl.live p (by simp)
      simp only [signonFirst, hclist, nodeAt_eq hnode, ok_bind, handle_eq hobj] at hok
      obtain rfl := Except.ok.inj hok
      have hsent := @imcommImSignon_awayMsg _ (if s.oscarport ≠ 0 then
        { h with oscarport := uint16 s.oscarport } else h) network s.proxytype
        s.client.conn.username s.password
      have hport :
          (if s.oscarport ≠ 0 then { h with oscarport := uint16 s.oscarport } else h).awayMsg =
            h.awayMsg ∧
          (if s.oscarport ≠ 0 then { h with oscarport := uint16 s.oscarport } else h).isaway =
            h.isaway := by
        split <;> exact ⟨rfl, rfl⟩
      refine ⟨hl.store (p := p) rfl (fun msg hmsg => ?_) (by exact hl.awaymsg) (some p),
        ⟨rfl, ?_⟩, rfl⟩
      · rw [hsent.1, hport.1] at hmsg
        obtain ⟨haway, hmsg', hisaway⟩ := hechoes msg hmsg
        exact ⟨haway, hmsg', by rw [hsent.2, hport.2, hisaway]⟩
      · rintro r hr
        exact congrArg some (Option.some.inj hr)

/-- The client's message is copied to the current connection. -/
theorem restoreAway_away (hl : s.AwayList ns) (hc : s.Current ns) (hok : s.restoreAway = .ok s') :
    s'.AwayList ns ∧ s'.Current ns ∧ s'.Restored := by
  by_cases haway : s.client.conn.isaway = true
  · cases hconn : s.conn with
    | none => simp [restoreAway, haway, hconn] at hok
    | some p =>
        obtain ⟨msg, hmsg⟩ := Option.isSome_iff_exists.mp (hl.awaymsg haway)
        have hfirst := hc.first p hconn
        obtain ⟨h, hobj, -⟩ := hl.live p (List.mem_of_mem_head? hfirst)
        simp only [restoreAway, haway, if_true, hconn, hmsg, handle_eq hobj, ok_bind] at hok
        obtain rfl := Except.ok.inj hok
        have hset := imcommSetAway_awayMsg h msg
        refine ⟨hl.store hfirst (fun msg' hmsg' => ?_) hl.awaymsg s.conn,
          ⟨hc.conn, hc.first⟩, fun r hr _ => ?_⟩
        · obtain rfl := Option.some.inj (hset.1.symm.trans hmsg')
          exact ⟨haway, hmsg, hset.2⟩
        · obtain rfl := Option.some.inj (hconn.symm.trans hr)
          exact ⟨_, msg, by simp [setHandle], hset.1⟩
  · simp only [restoreAway, haway, Bool.false_eq_true, if_false] at hok
    obtain rfl := Except.ok.inj hok
    exact ⟨hl, hc, fun p _ h => absurd h haway⟩

/-- The end of both ways to reconnect. -/
theorem reconnect_away (hl : s.AwayList ns) {new : Supply} (hok : (do
      let s ← s.createNewConnection new
      let s ← s.signonFirst new.network
      s.restoreAway) = .ok s') :
    s'.AwayList (ns ++ [(s.brk, s.brk + 1)]) ∧ s'.Current (ns ++ [(s.brk, s.brk + 1)]) ∧
      s'.Restored := by
  obtain ⟨clist, nodes, hcreate, hc⟩ := createNewConnection_links hl.chained new
  rw [hcreate, ok_bind] at hok
  obtain ⟨s1, hsignon, hrestore⟩ := bind_eq_ok hok
  obtain ⟨hl1, hc1, -⟩ := signonFirst_away (hl.create new hc) hsignon
  exact restoreAway_away hl1 hc1 hrestore

/-! ## the commands -/

/-- A message for the client is one for the handle. -/
theorem awayAgrees_set {w : World Client} (hw : w.client.conn.conn = true) (msg : Str) :
    AwayAgrees ({ w with handle := imcommSetAway w.handle msg }.setConn
      { w.client.conn with isaway := true, awaymsg := some msg }) := by
  obtain ⟨hset, hisaway⟩ := imcommSetAway_awayMsg w.handle msg
  refine ⟨hw, fun msg' hmsg' => ?_, fun _ => ⟨rfl, by simp [World.setConn, hset]⟩⟩
  obtain rfl := Option.some.inj (hset.symm.trans hmsg')
  exact ⟨rfl, rfl, hisaway⟩

/-- `g` sets both copies, or removes both. -/
theorem inputSetAway_agrees {w : World Client} (hw : AwayAgrees w) (arg : Str) :
    AwayAgrees (inputSetAway w arg) := by
  rw [inputSetAway, if_pos hw.conn]
  split
  · next haway =>
    obtain ⟨msg, hmsg⟩ := Option.isSome_iff_exists.mp (hw.given haway).2
    have hnone := imcommSetUnaway_awayMsg w.handle (hw.echoes msg hmsg).2.2
    refine ⟨hw.conn, fun msg' hmsg' => ?_, fun h => by simp [World.setConn] at h⟩
    exact absurd (hnone.symm.trans hmsg') (Option.some_ne_none msg').symm
  · exact awayAgrees_set hw.conn arg

/-- `G` sets both copies, or does nothing. -/
theorem inputSetPredefaway_agrees {w : World Client} (hw : AwayAgrees w) (arg : Str) :
    AwayAgrees (inputSetPredefaway w arg) := by
  rw [inputSetPredefaway, if_pos hw.conn]
  split
  · exact hw
  · split
    · exact awayAgrees_set hw.conn _
    · exact hw

omit [Host] in
/-- A command that keeps the copies of the current handle keeps all. -/
theorem onCurrent_away {f : World Client → World Client} (hf : ∀ w, AwayAgrees w → AwayAgrees (f w))
    (hi : s.AwayInv) (hok : s.onCurrent f = .ok s') : s'.AwayInv := by
  obtain ⟨ns, hl, hc, hrestored⟩ := hi
  cases hconn : s.conn with
  | none =>
      simp only [onCurrent, hconn] at hok
      obtain rfl := Except.ok.inj hok
      exact ⟨ns, hl, hc, hrestored⟩
  | some p =>
      have hfirst := hc.first p hconn
      obtain ⟨h, hobj, hechoes⟩ := hl.live p (List.mem_of_mem_head? hfirst)
      simp only [onCurrent, hconn, handle_eq hobj, ok_bind] at hok
      obtain rfl := Except.ok.inj hok
      have hw : AwayAgrees (f ⟨h, s.client, []⟩) := by
        refine hf _ ⟨by rw [hc.conn, hconn]; rfl, hechoes, fun haway => ⟨hl.awaymsg haway, ?_⟩⟩
        obtain ⟨h', msg, hobj', hmsg⟩ := hrestored p hconn haway
        obtain rfl := Option.some.inj (hobj.symm.trans hobj')
        exact Option.isSome_iff_exists.mpr ⟨msg, hmsg⟩
      refine ⟨ns, hl.store hfirst hw.echoes (fun haway => (hw.given haway).1) s.conn,
        ⟨hw.conn.trans (Option.isSome_iff_exists.mpr ⟨p, hconn⟩).symm, hc.first⟩,
        fun r hr haway => ?_⟩
      obtain rfl := Option.some.inj (hconn.symm.trans hr)
      obtain ⟨msg, hmsg⟩ := Option.isSome_iff_exists.mp (hw.given haway).2
      exact ⟨_, msg, by simp [setHandle], hmsg⟩

omit [Host] in
/-- What the unlinking code leaves has no node for the handle. -/
theorem unlinkConnection_away {fuel : Nat} {h : Ptr} (hl : s.AwayList ns)
    (hok : s.unlinkConnection fuel (some h) = .ok s') :
    ∃ ns', s'.AwayList ns' ∧ h ∉ ns'.map Prod.snd ∧ s'.conn = s.conn ∧ s'.brk = s.brk ∧
      s'.client = s.client := by
  obtain ⟨clist, nodes, ns', rfl, hc, hcases⟩ := unlinkConnection_cases hl.chained hok
  rcases hcases with ⟨p, h', hh, rfl⟩ | ⟨p, a, rfl, hne, hns⟩
  · obtain rfl := Option.some.inj hh
    exact ⟨ns', hl.sublist (List.sublist_cons_self _ _) (List.tail_sublist _) hc,
      (List.nodup_cons.mp hl.chained.handlesNodup).1, rfl, rfl, rfl⟩
  · refine ⟨[(p, a)], hl.sublist ?_ (List.nil_sublist _) hc, ?_, rfl, rfl, rfl⟩
    · obtain rfl | ⟨q, h', -, rfl⟩ := hns
      · exact List.Sublist.refl _
      · simp
    · simpa [eq_comm] using hne

omit [Host] in
/-- The current connection is dropped. -/
theorem dropCurrent_away {fuel : Nat} (hl : s.AwayList ns) (hconn : s.conn = some p)
    (hok : s.dropCurrent fuel = .ok s') : ∃ ns', s'.AwayList ns' := by
  have hbuddies : s.deleteBuddylist.AwayList ns := hl.same rfl rfl rfl rfl rfl rfl
  obtain ⟨t, hunlink, hdrop⟩ := bind_eq_ok hok
  obtain rfl := Except.ok.inj hdrop
  rw [hconn] at hunlink
  obtain ⟨ns', hl', hnot, hsame, -⟩ := unlinkConnection_away hbuddies hunlink
  rw [hsame, show s.deleteBuddylist.conn = some p from hconn]
  exact ⟨ns', (hl'.delete hnot).same rfl rfl rfl rfl rfl rfl⟩

/-- `R!` -/
theorem inputReconnect_away {fuel : Nat} {arg password : Str} {new : Supply} (hi : s.AwayInv)
    (hok : s.inputReconnect fuel arg password new = .ok s') : s'.AwayInv := by
  obtain ⟨ns, hl, -, -⟩ := hi
  have hl' : (s.setUser arg password).AwayList ns := by
    unfold setUser
    split
    · exact hl
    · exact hl.same rfl rfl rfl rfl rfl rfl
  obtain ⟨t, hdrop, hrest⟩ := bind_eq_ok hok
  have ht : ∃ ns', t.AwayList ns' := by
    cases hconn : (s.setUser arg password).conn with
    | none =>
        rw [hconn] at hdrop
        obtain rfl := Except.ok.inj hdrop
        exact ⟨ns, hl'⟩
    | some p =>
        rw [hconn] at hdrop
        exact dropCurrent_away hl' hconn hdrop
  obtain ⟨ns', ht⟩ := ht
  exact ⟨_, reconnect_away ht hrest⟩

/-- The end of a handle. -/
theorem deleted_away {fuel : Nat} {handle : Ptr} {autoReconnect : Int} {new : Supply}
    (hi : s.AwayInv) (hok : s.step fuel (.deleted handle autoReconnect new) = .ok s') :
    s'.AwayInv := by
  obtain ⟨ns, hl, -, -⟩ := hi
  obtain ⟨h, hobj, hok⟩ := bind_eq_ok hok
  have hgiven : handle < s.brk := by
    refine hl.given handle ?_
    cases hsome : s.handles handle with
    | none => simp [Session.handle, hsome] at hobj
    | some obj => rfl
  obtain ⟨t, hdeleted, hok⟩ := bind_eq_ok hok
  obtain rfl := Except.ok.inj hok
  obtain ⟨u, hunlink, hdeleted⟩ := bind_eq_ok hdeleted
  have hstart : ({ s with autoReconnect := autoReconnect }.deleteBuddylist.setCurrent none).AwayList
      ns := hl.same rfl rfl rfl rfl rfl rfl
  obtain ⟨ns', hl', hnot, hconn, hbrk, hclient⟩ := unlinkConnection_away hstart hunlink
  by_cases hauto : u.autoReconnect ≠ 0
  · rw [if_pos hauto] at hdeleted
    obtain ⟨ht, hcurrent, hrestored⟩ := reconnect_away hl' hdeleted
    have hnew : handle ∉ (ns' ++ [(u.brk, u.brk + 1)]).map Prod.snd := by
      rw [List.map_append, List.mem_append, not_or]
      refine ⟨hnot, ?_⟩
      rw [List.map_singleton, List.mem_singleton, hbrk]
      exact Nat.ne_of_lt (Nat.lt_succ_of_lt hgiven)
    refine ⟨_, ht.delete hnew, ⟨hcurrent.conn, hcurrent.first⟩, fun p hp haway => ?_⟩
    obtain ⟨obj, msg, hobj, hmsg⟩ := hrestored p hp haway
    have hne : p ≠ handle := fun heq => hnew (heq ▸ List.mem_of_mem_head? (hcurrent.first p hp))
    exact ⟨obj, msg, by simp [deleteHandleNow, hne, hobj], hmsg⟩
  · rw [if_neg hauto] at hdeleted
    obtain rfl := Except.ok.inj hdeleted
    have hnone : ∀ p, u.conn ≠ some p := fun p => hconn ▸ (Option.some_ne_none p).symm
    refine ⟨ns', hl'.delete hnot, ⟨?_, fun p hp => absurd hp (hnone p)⟩,
      fun p hp => absurd hp (hnone p)⟩
    change u.client.conn.conn = u.conn.isSome
    rw [hclient, hconn]
    rfl

/-- A subconnection is in nobody's list. -/
theorem subconnection_away {fuel : Nat} {block : Imcomm} (hi : s.AwayInv)
    (hok : s.step fuel (.subconnection block) = .ok s') : s'.AwayInv := by
  obtain ⟨ns, hl, hc, hrestored⟩ := hi
  cases hconn : s.conn with
  | none =>
      simp only [step, hconn] at hok
      obtain rfl := Except.ok.inj hok
      exact ⟨ns, hl, hc, hrestored⟩
  | some p =>
      obtain ⟨h, hobj, hechoes⟩ := hl.live p (List.mem_of_mem_head? (hc.first p hconn))
      simp only [step, hconn, handle_eq hobj, ok_bind] at hok
      obtain rfl := Except.ok.inj hok
      have hold : ∀ r, (s.handles r).isSome = true → r ≠ s.brk :=
        fun r hr => Nat.ne_of_lt (hl.given r hr)
      have hkept : ∀ r ∈ ns.map Prod.snd, r ≠ s.brk := by
        intro r hr
        obtain ⟨obj, hobj, -⟩ := hl.live r hr
        exact hold r (by rw [hobj]; rfl)
      refine ⟨ns, ⟨⟨hl.chained.linked, hl.chained.nodup, ?_, hl.chained.handlesNodup, ?_⟩,
        ?_, ?_, ?_, hl.awaymsg⟩,
        ⟨hc.conn.trans (by rw [hconn]; rfl), fun r hr => hc.first r (hconn.trans hr)⟩, ?_⟩
      · exact fun r hr => Nat.lt_succ_of_lt (hl.chained.below r hr)
      · exact fun r hr => Nat.lt_succ_of_lt (hl.chained.handlesBelow r hr)
      · intro r hr
        obtain ⟨obj, hobj, hechoes⟩ := hl.live r hr
        exact ⟨obj, by simp [setHandle, hkept r hr, hobj], hechoes⟩
      · intro r hr obj hobj
        have hne := hkept r ((ns.tail_sublist.map _).subset hr)
        exact hl.rest r hr obj (by simpa [setHandle, hne] using hobj)
      · intro r hr
        by_cases hrp : r = s.brk
        · exact hrp ▸ Nat.lt_succ_self _
        · exact Nat.lt_succ_of_lt (hl.given r (by simpa [setHandle, hrp] using hr))
      · intro r hr haway
        obtain ⟨obj, msg, hobj, hmsg⟩ := hrestored r (hconn.trans hr) haway
        have hne := hkept r (List.mem_of_mem_head? (hc.first r (hconn.trans hr)))
        exact ⟨obj, msg, by simp [setHandle, hne, hobj], hmsg⟩

/-- **Each command** keeps the copies. -/
theorem step_away {fuel : Nat} {op : Op} (hi : s.AwayInv) (hok : s.step fuel op = .ok s') :
    s'.AwayInv := by
  cases op with
  | setAway arg => exact onCurrent_away (fun w hw => inputSetAway_agrees hw arg) hi hok
  | setPredefaway arg awaymsgs =>
      obtain ⟨ns, hl, hc, hrestored⟩ := hi
      refine onCurrent_away (fun w hw => inputSetPredefaway_agrees hw arg) ?_ hok
      exact ⟨ns, hl.same rfl rfl rfl rfl rfl rfl, ⟨hc.conn, hc.first⟩, hrestored⟩
  | reconnect arg password new => exact inputReconnect_away hi hok
  | deleted handle autoReconnect new => exact deleted_away hi hok
  | subconnection block => exact subconnection_away hi hok

theorem foldlM_away {fuel : Nat} {ops : List Op} (hi : s.AwayInv)
    (hok : ops.foldlM (step fuel) s = .ok s') : s'.AwayInv := by
  induction ops generalizing s with
  | nil =>
      obtain rfl := Except.ok.inj hok
      exact hi
  | cons op ops ih =>
      rw [List.foldlM_cons] at hok
      obtain ⟨t, hstep, hrest⟩ := bind_eq_ok hok
      exact ih (step_away hi hstep) hrest

omit [Host] in
theorem start_away (client : Client) (password : Str) (proxytype : ProxyType)
    (oscarport autoReconnect : Int) :
    (start client password proxytype oscarport autoReconnect).AwayList [] where
  chained := start_chained client password proxytype oscarport autoReconnect
  live := by simp
  rest := by simp
  given := by simp [start]
  awaymsg := by simp [start]

/-- **The away state** agrees on both levels after any commands: the client is
away exactly when the current handle has an away message, and then it is the
client's. -/
theorem away_agrees {client : Client} {password : Str} {proxytype : ProxyType}
    {oscarport autoReconnect : Int} {fuel : Nat} {new : Supply} {ops : List Op}
    (hok : (start client password proxytype oscarport autoReconnect).run fuel new ops = .ok s) :
    (s.client.conn.isaway = true → s.client.conn.awaymsg.isSome = true) ∧
    ∀ p, s.conn = some p → ∃ h, s.handles p = some h ∧
      (s.client.conn.isaway = true ↔ h.awayMsg.isSome = true) ∧
      (h.awayMsg.isSome = true → s.client.conn.awaymsg = h.awayMsg ∧ h.isaway = true) := by
  obtain ⟨t, hcreate, hok⟩ := bind_eq_ok hok
  obtain ⟨u, hsignon, hops⟩ := bind_eq_ok hok
  have hstart := start_away client password proxytype oscarport autoReconnect
  obtain ⟨clist, nodes, hcreate', hc⟩ := createNewConnection_links hstart.chained new
  obtain rfl := Except.ok.inj (hcreate'.symm.trans hcreate)
  obtain ⟨hl, hcurrent, haway⟩ := signonFirst_away (hstart.create new hc) hsignon
  have hback : u.client.conn.isaway = false := haway
  obtain ⟨ns, hl, hcurrent, hrestored⟩ :=
    foldlM_away ⟨_, hl, hcurrent, fun p _ h => absurd (hback.symm.trans h) Bool.false_ne_true⟩ hops
  refine ⟨hl.awaymsg, fun p hp => ?_⟩
  obtain ⟨h, hobj, hechoes⟩ := hl.live p (List.mem_of_mem_head? (hcurrent.first p hp))
  have hmsg : h.awayMsg.isSome = true → s.client.conn.isaway = true ∧
      s.client.conn.awaymsg = h.awayMsg ∧ h.isaway = true := by
    intro hsome
    obtain ⟨msg, hmsg⟩ := Option.isSome_iff_exists.mp hsome
    rw [hmsg]
    exact hechoes msg hmsg
  refine ⟨h, hobj, ⟨fun haway => ?_, fun hsome => (hmsg hsome).1⟩, fun hsome => (hmsg hsome).2⟩
  obtain ⟨h', msg, hobj', hmsg'⟩ := hrestored p hp haway
  obtain rfl := Option.some.inj (hobj.symm.trans hobj')
  exact Option.isSome_iff_exists.mpr ⟨msg, hmsg'⟩

end

end

/-- Going away, and coming back after the handle was deleted. -/
theorem away_agrees_reconnect : ∃ s p h,
    @run littleEndianHost 2 (start startClient [] .none 0 5) poorSupply
      [.setAway (ascii "brb"), .deleted 1 5 poorSupply] = .ok s ∧
    s.conn = some p ∧ s.handles p = some h ∧ s.client.conn.awaymsg = h.awayMsg ∧
    h.awayMsg = some (ascii "brb") := by
  have hrun : ∃ s, @run littleEndianHost 2 (start startClient [] .none 0 5) poorSupply
      [.setAway (ascii "brb"), .deleted 1 5 poorSupply] = .ok s ∧ s.conn = some 3 ∧
      s.client.conn.isaway = true ∧ s.client.conn.awaymsg = some (ascii "brb") :=
    ⟨_, rfl, rfl, rfl, rfl⟩
  obtain ⟨s, hok, hconn, haway, hmsg⟩ := hrun
  obtain ⟨h, hobj, hiff, hagrees⟩ := (@away_agrees s littleEndianHost _ _ _ _ _ _ _ _ hok).2 3 hconn
  have hsame := (hagrees (hiff.mp haway)).1
  exact ⟨s, 3, h, hok, hconn, hobj, hsame, hsame.symm.trans hmsg⟩

end Session

end Bsflite
