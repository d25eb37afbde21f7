import Bsflite.ServerList

/-!
# Bsflite.InStep

Runs of `imcomm_im_add_buddy` and `imcomm_im_remove_buddy` against the
server's list.

* `Roster.Coupled` — the two lists name the same buddies in the same order
  and spelling, with the same ids.
* `coupled_add`, `coupled_remove` — a step keeps them coupled; an add needs
  the block of the new node to hold 1 where the group id is not written.
* `roster_in_step` — so does a run.
-/

namespace Bsflite

/-! ## a client and its server -/

/-- A handle and the list that its server keeps for it. -/
structure Roster where
  handle : Imcomm
  items : List SsiItem

/-- What the two lists are compared by. -/
def RosterBuddy.entry (b : RosterBuddy) : Str × UInt16 × UInt16 := (b.sn, b.groupId, b.ssiId)

/-- What the handle sends to have a buddy deleted. -/
def RosterBuddy.key (b : RosterBuddy) : Str × UInt16 × UInt16 := (b.formattedsn, b.groupId, b.ssiId)

/-- The buddies on the server and in the handle are the same. -/
def Roster.InStep (r : Roster) : Prop :=
  ∀ e, e ∈ (buddies r.items).map SsiItem.entry ↔ e ∈ r.handle.buddylist.map RosterBuddy.entry

/-- A change of the list by the user of the handle; a new node takes over
what its block held. -/
inductive RosterOp where
  | add (garbage : UInt16) (sn : Str)
  | remove (sn : Str)

section
variable [Host]

/-- The handle after a change; `none` when it does not return. -/
def RosterOp.run (h : Imcomm) : RosterOp → Option Imcomm
  | add garbage sn => imcommImAddBuddy garbage h sn
  | remove sn => some (imcommImRemoveBuddy h sn)

/-- A change, and the server's reaction to what it put on the wire. -/
def Roster.step (r : Roster) (op : RosterOp) : Option Roster :=
  (op.run r.handle).map fun h =>
    ⟨h, react r.items (h.link.wire.drop r.handle.link.wire.length)⟩

omit [Host] in
/-- The condition for a change to keep the lists in step: an add of a new
name gets a block that holds 1, the group it names to the server, and the
name fits into a frame. -/
def RosterOp.Clean (h : Imcomm) : RosterOp → Prop
  | add garbage sn => imcommSimplifySn sn ∈ h.buddylist.map RosterBuddy.sn ∨
      garbage = 0x0001 ∧ (imcommSimplifySn sn).length ≤ 65515
  | remove _ => True

/-- The states that runs of clean changes reach. -/
inductive Roster.CleanRun (r : Roster) : Roster → Prop where
  | refl : CleanRun r r
  | step {r' r'' : Roster} {op : RosterOp} (run : CleanRun r r') (clean : op.Clean r'.handle)
      (step : r'.step op = some r'') : CleanRun r r''

/-! ## the batch around a change -/

/-- The three SNACs of a change. -/
def changeBodies (subtype : UInt16) (i : SsiItem) : List SnacBody :=
  [⟨0x13, 0x11, []⟩, ⟨0x13, subtype, i.bytes⟩, ⟨0x13, 0x12, []⟩]

/-- The packet of a change is the item of a buddy without data. -/
theorem ssiPacket_data (name : Str) (groupId id : UInt16) :
    (ssiPacket name groupId id).data = (SsiItem.mk name groupId id 0x0000 []).bytes := by
  have hlen : (fieldBytes [.add16 (uint16 name.length), .addraw name, .add16 groupId, .add16 id,
      .add16 0x0000, .add16 0x0000]).length = 10 + name.length := by
    simp [PktAdd.bytes]
    omega
  rw [ssiPacket, pktAddAll_eq _ hlen]
  simp [PktAdd.bytes, SsiItem.bytes]
  rfl

/-- The batch puts the three SNACs on the wire. -/
theorem ssiChange_sent {h : Imcomm} (ha : h.link.Accepting) (hp : h.srvPause = false)
    (subtype : UInt16) {name : Str} (hname : name.length ≤ 65515) (groupId id : UInt16) :
    Sent h (changeBodies subtype ⟨name, groupId, id, 0x0000, []⟩) h.isidle
      (ssiChange h subtype (ssiPacket name groupId id)) := by
  have hsent := (sendBatch_sent h [⟨⟨0x13, 0x11, []⟩, 0⟩,
    ⟨⟨0x13, subtype, (ssiPacket name groupId id).data⟩, 0⟩, ⟨⟨0x13, 0x12, []⟩, 0⟩] ha hp
    (List.cons_ne_nil _ _) (by
      intro c hc
      rw [ssiPacket_data] at hc
      simp only [List.mem_cons, List.not_mem_nil, or_false] at hc
      rcases hc with rfl | rfl | rfl
      · simp
      · simp
        omega
      · simp)).2
  simpa [changeBodies, ssiChange, ssiPacket_data] using hsent

omit [Host] in
/-- The server makes the change once. -/
theorem react_changeBodies (items : List SsiItem) (seqnum : UInt16) (reqid : UInt32)
    (subtype : UInt16) (i : SsiItem) (hfit : i.bytes.length ≤ 65525) :
    react items (numberBytes seqnum reqid (changeBodies subtype i)) =
      changeItems items subtype i := by
  have hread := receive_numberBytes seqnum reqid (changeBodies subtype i) (by
    intro b hb
    simp only [changeBodies, List.mem_cons, List.not_mem_nil, or_false] at hb
    rcases hb with rfl | rfl | rfl
    · simp
    · exact hfit
    · simp)
  rw [SsiItem.length_bytes] at hfit
  have hitem := parseSsiItem_bytes i (by omega) (by omega)
  have hnil : parseSsiItem [] = none := rfl
  rw [react, hread]
  simp [changeBodies, number, reactSnac, hitem, hnil]

/-- A change of the handle's own list and the batch for the server. -/
theorem step_change {r : Roster} {o : RosterOp} {h : Imcomm} (ha : h.link.Accepting)
    (hp : h.srvPause = false) (hwire : h.link.wire = r.handle.link.wire) {subtype : UInt16}
    {name : Str} (hname : name.length ≤ 65515) {groupId id : UInt16}
    (hrun : o.run r.handle = some (ssiChange h subtype (ssiPacket name groupId id))) :
    ∃ r', r.step o = some r' ∧
      r'.items = changeItems r.items subtype ⟨name, groupId, id, 0x0000, []⟩ ∧
      r'.handle.buddylist = h.buddylist ∧ r'.handle.link.Accepting ∧
      r'.handle.srvPause = false := by
  have hsent := ssiChange_sent ha hp subtype hname groupId id
  have hafter := hsent
  obtain ⟨writes, hafter⟩ := hafter
  refine ⟨⟨_, _⟩, by rw [Roster.step, hrun]; rfl, ?_, ?_, hsent.accepting ha, ?_⟩
  · show react r.items (List.drop _ (ssiChange h subtype (ssiPacket name groupId id)).link.wire) = _
    rw [hafter]
    simp only
    rw [hwire, List.drop_left, react_changeBodies]
    simp
    omega
  · show (ssiChange h subtype (ssiPacket name groupId id)).buddylist = _
    rw [hafter]
  · exact hsent.srvPause.trans hp

/-! ## what a run preserves -/

omit [Host] in
/-- The two lists are copies of each other, over a transport that delivers
what is sent. -/
structure Roster.Coupled (r : Roster) : Prop where
  accepting : r.handle.link.Accepting
  srv_pause : r.handle.srvPause = false
  keys : (buddies r.items).map SsiItem.key = r.handle.buddylist.map RosterBuddy.key
  simplified : ∀ b ∈ r.handle.buddylist,
    b.sn = imcommSimplifySn b.formattedsn ∧ b.formattedsn.length ≤ 65515
  nodup : (r.handle.buddylist.map RosterBuddy.sn).Nodup

omit [Host] in
/-- Coupled lists are in step. -/
theorem Roster.Coupled.inStep {r : Roster} (h : r.Coupled) : r.InStep := by
  have hitems : (buddies r.items).map SsiItem.entry =
      ((buddies r.items).map SsiItem.key).map fun k => (imcommSimplifySn k.1, k.2) := by
    rw [List.map_map]
    rfl
  have hlist : r.handle.buddylist.map RosterBuddy.entry =
      (r.handle.buddylist.map RosterBuddy.key).map fun k => (imcommSimplifySn k.1, k.2) := by
    rw [List.map_map]
    apply List.map_congr_left
    intro b hb
    rw [RosterBuddy.entry, (h.simplified b hb).1]
    rfl
  intro e
  rw [hitems, hlist, h.keys]

omit [Host] in
/-- A name that is on the list is not added again. -/
theorem imcommImAddBuddy_known [Host] {h : Imcomm} {sn : Str} (garbage : UInt16)
    (hmem : imcommSimplifySn sn ∈ h.buddylist.map RosterBuddy.sn) :
    imcommImAddBuddy garbage h sn = some h := by
  obtain ⟨b, hb, heq⟩ := List.mem_map.mp hmem
  rw [imcommImAddBuddy]
  exact if_pos (List.any_eq_true.mpr ⟨b, hb, decide_eq_true heq.symm⟩)

/-- A new name is added to both lists, if the call returns. -/
theorem imcommImAddBuddy_new {h : Imcomm} {sn : Str} (garbage : UInt16)
    (hnew : imcommSimplifySn sn ∉ h.buddylist.map RosterBuddy.sn) :
    imcommImAddBuddy garbage h sn = (imcommGetNextId h).map fun nextid =>
      ssiChange { h with buddylist := h.buddylist ++
          [⟨imcommSimplifySn sn, imcommSimplifySn sn, nextid, garbage⟩] }
        0x08 (ssiPacket (imcommSimplifySn sn) 0x0001 nextid) := by
  rw [imcommImAddBuddy, if_neg]
  · cases imcommGetNextId h <;> rfl
  · intro hany
    obtain ⟨b, hb, heq⟩ := List.any_eq_true.mp hany
    exact hnew (List.mem_map.mpr ⟨b, hb, (of_decide_eq_true heq).symm⟩)

/-- A step that puts nothing on the wire leaves the server's list alone. -/
theorem step_silent {r r' : Roster} {op : RosterOp} {h : Imcomm}
    (hrun : op.run r.handle = some h) (hwire : h.link.wire = r.handle.link.wire)
    (hstep : r.step op = some r') : r' = ⟨h, r.items⟩ := by
  rw [Roster.step, hrun, Option.map_some, hwire, List.drop_length] at hstep
  exact (Option.some.inj hstep).symm

omit [Host] in
@[simp] theorem buddies_changeItems_add (items : List SsiItem) (name : Str) (groupId id : UInt16) :
    buddies (changeItems items 0x08 ⟨name, groupId, id, 0x0000, []⟩) =
      buddies items ++ [⟨name, groupId, id, 0x0000, []⟩] := by
  rw [changeItems, if_pos rfl, buddies_append, buddies_singleton, if_pos rfl]

omit [Host] in
/-- The buddies that are left after an item was deleted. -/
theorem keys_changeItems_remove (items : List SsiItem) (i : SsiItem) :
    (buddies (changeItems items 0x0a i)).map SsiItem.key =
      ((buddies items).map SsiItem.key).filter (· ≠ i.key) := by
  rw [changeItems, if_neg (by decide), if_pos rfl, buddies, List.filter_comm, ← buddies,
    List.filter_map]
  rfl

/-- **An add** of a new name: both lists get the name with the new id, the
server's under group 1, the handle's under what the block held. -/
theorem step_add {r r' : Roster} (hr : r.Coupled) {garbage : UInt16} {sn : Str}
    (hnew : imcommSimplifySn sn ∉ r.handle.buddylist.map RosterBuddy.sn)
    (hlen : (imcommSimplifySn sn).length ≤ 65515) (hstep : r.step (.add garbage sn) = some r') :
    ∃ nextid, r'.handle.buddylist = r.handle.buddylist ++
        [⟨imcommSimplifySn sn, imcommSimplifySn sn, nextid, garbage⟩] ∧
      buddies r'.items = buddies r.items ++ [⟨imcommSimplifySn sn, 0x0001, nextid, 0x0000, []⟩] ∧
      r'.handle.link.Accepting ∧ r'.handle.srvPause = false := by
  have hadd := imcommImAddBuddy_new garbage hnew
  cases hid : imcommGetNextId r.handle with
  | none =>
      rw [hid] at hadd
      rw [Roster.step, RosterOp.run, hadd] at hstep
      cases hstep
  | some nextid =>
      rw [hid, Option.map_some] at hadd
      obtain ⟨r'', hstep', hitems, hlist, haccepting, hpause⟩ := step_change
        (o := RosterOp.add garbage sn) (h := { r.handle with buddylist := r.handle.buddylist ++
          [⟨imcommSimplifySn sn, imcommSimplifySn sn, nextid, garbage⟩] })
        hr.accepting hr.srv_pause rfl hlen hadd
      rw [hstep'] at hstep
      cases hstep
      refine ⟨nextid, hlist, ?_, haccepting, hpause⟩
      rw [hitems, buddies_changeItems_add]

/-- An add keeps the lists coupled when it is clean. -/
theorem coupled_add {r r' : Roster} (hr : r.Coupled) {garbage : UInt16} {sn : Str}
    (hclean : RosterOp.Clean r.handle (.add garbage sn))
    (hstep : r.step (.add garbage sn) = some r') : r'.Coupled := by
  by_cases hnew : imcommSimplifySn sn ∈ r.handle.buddylist.map RosterBuddy.sn
  · have hrun : RosterOp.run r.handle (.add garbage sn) = some r.handle :=
      imcommImAddBuddy_known garbage hnew
    rw [step_silent hrun rfl hstep]
    exact ⟨hr.accepting, hr.srv_pause, hr.keys, hr.simplified, hr.nodup⟩
  · obtain ⟨hgarbage, hlen⟩ := Or.resolve_left hclean hnew
    obtain ⟨nextid, hlist, hitems, haccepting, hpause⟩ := step_add hr hnew hlen hstep
    constructor
    · exact haccepting
    · exact hpause
    · rw [hlist, hitems, List.map_append, List.map_append, hr.keys, hgarbage]
      rfl
    · rw [hlist]
      intro b hb
      rcases List.mem_append.mp hb with hb | hb
      · exact hr.simplified b hb
      · rw [List.mem_singleton.mp hb]
        exact ⟨(imcommSimplifySn_idem sn).symm, hlen⟩
    · rw [hlist, List.map_append]
      refine List.nodup_append.mpr ⟨hr.nodup, List.nodup_singleton _, ?_⟩
      intro a ha b hb hab
      rw [hab, List.mem_singleton.mp hb] at ha
      exact hnew ha

/-- After an add of a new name the lists are in step only if the block
held 1. -/
theorem add_inStep_iff {r r' : Roster} (hr : r.Coupled) {garbage : UInt16} {sn : Str}
    (hnew : imcommSimplifySn sn ∉ r.handle.buddylist.map RosterBuddy.sn)
    (hlen : (imcommSimplifySn sn).length ≤ 65515) (hstep : r.step (.add garbage sn) = some r') :
    r'.InStep ↔ garbage = 0x0001 := by
  constructor
  · intro h
    obtain ⟨nextid, hlist, hitems, -, -⟩ := step_add hr hnew hlen hstep
    have hserver : (imcommSimplifySn sn, 0x0001, nextid) ∈
        (buddies r'.items).map SsiItem.entry := by
      rw [hitems, List.map_append]
      refine List.mem_append_right _ (List.mem_singleton.mpr ?_)
      rw [SsiItem.entry, imcommSimplifySn_idem]
    have hclient := (h _).mp hserver
    rw [hlist, List.map_append] at hclient
    rcases List.mem_append.mp hclient with hold | hadded
    · obtain ⟨b, hb, heq⟩ := List.mem_map.mp hold
      exact absurd (List.mem_map.mpr ⟨b, hb, congrArg Prod.fst heq⟩) hnew
    · have heq := List.mem_singleton.mp hadded
      exact (congrArg (fun e => e.2.1) heq).symm
  · intro h
    exact (coupled_add hr (.inr ⟨h, hlen⟩) hstep).inStep

/-- A removal keeps the lists coupled: the item that was sent is the one
that both sides have. -/
theorem coupled_remove {r r' : Roster} (hr : r.Coupled) {sn : Str}
    (hstep : r.step (.remove sn) = some r') : r'.Coupled := by
  cases hfind : r.handle.buddylist.find? (fun trav => trav.sn = imcommSimplifySn sn) with
  | none =>
      have hnone := List.find?_eq_none.mp hfind
      have hrun : RosterOp.run r.handle (.remove sn) =
          some (imcommInternalDeleteBuddy r.handle sn) := by
        rw [RosterOp.run, imcommImRemoveBuddy, hfind, List.eraseP_of_forall_not hnone]
      rw [step_silent hrun rfl hstep]
      exact ⟨hr.accepting, hr.srv_pause, hr.keys, hr.simplified, hr.nodup⟩
  | some temp =>
      obtain ⟨htemp, front, back, hsplit, hfront⟩ := List.find?_eq_some_iff_append.mp hfind
      have hname : temp.sn = imcommSimplifySn sn := of_decide_eq_true htemp
      have herase : r.handle.buddylist.eraseP (fun trav => trav.sn = imcommSimplifySn sn) =
          front ++ back := by
        rw [hsplit, List.eraseP_append_right _ (by simpa using hfront), List.eraseP_cons,
          decide_eq_true hname]
        rfl
      have hmem : temp ∈ r.handle.buddylist := by simp [hsplit]
      have hrun : RosterOp.run r.handle (.remove sn) = some (ssiChange
          (imcommInternalDeleteBuddy { r.handle with buddylist := front ++ back } sn) 0x0a
          (ssiPacket temp.formattedsn temp.groupId temp.ssiId)) := by
        rw [RosterOp.run, imcommImRemoveBuddy, hfind, herase]
      obtain ⟨r'', hstep', hitems, hlist, haccepting, hpause⟩ := step_change
        (h := imcommInternalDeleteBuddy { r.handle with buddylist := front ++ back } sn)
        hr.accepting hr.srv_pause rfl (hr.simplified temp hmem).2 hrun
      rw [hstep'] at hstep
      cases hstep
      have hlist' : r'.handle.buddylist = front ++ back := hlist
      have hperm : r.handle.buddylist.Perm (temp :: (front ++ back)) := by
        rw [hsplit]
        exact List.perm_middle
      have hrest : ∀ b ∈ front ++ back, b ∈ r.handle.buddylist :=
        fun b hb => hperm.mem_iff.mpr (List.mem_cons_of_mem temp hb)
      have hnodup := (hperm.map RosterBuddy.sn).nodup_iff.mp hr.nodup
      rw [List.map_cons, List.nodup_cons] at hnodup
      -- no other buddy has the name, so none has the key
      have hother : ∀ b ∈ front ++ back, b.key ≠ temp.key := by
        intro b hb heq
        have hsn : b.sn = temp.sn := by
          rw [(hr.simplified b (hrest b hb)).1, (hr.simplified temp hmem).1]
          exact congrArg (fun k => imcommSimplifySn k.1) heq
        exact hnodup.1 (List.mem_map.mpr ⟨b, hb, hsn⟩)
      constructor
      · exact haccepting
      · exact hpause
      · have hkeep : ∀ k ∈ (front ++ back).map RosterBuddy.key, decide (k ≠ temp.key) = true := by
          intro k hk
          obtain ⟨b, hb, rfl⟩ := List.mem_map.mp hk
          exact decide_eq_true (hother b hb)
        rw [hitems, keys_changeItems_remove, hr.keys, hsplit, hlist',
          ← List.filter_eq_self.mpr hkeep, List.map_append, List.map_append, List.map_cons,
          List.filter_append, List.filter_append]
        congr 1
        exact List.filter_cons_of_neg (by simp [RosterBuddy.key, SsiItem.key])
      · rw [hlist']
        exact fun b hb => hr.simplified b (hrest b hb)
      · rw [hlist']
        exact hnodup.2

/-- A clean change keeps the lists coupled. -/
theorem coupled_step {r r' : Roster} (hr : r.Coupled) {op : RosterOp} (hclean : op.Clean r.handle)
    (hstep : r.step op = some r') : r'.Coupled := by
  cases op with
  | add garbage sn => exact coupled_add hr hclean hstep
  | remove sn => exact coupled_remove hr hstep

theorem coupled_run {r r' : Roster} (hr : r.Coupled) (hrun : r.CleanRun r') : r'.Coupled := by
  induction hrun with
  | refl => exact hr
  | step run clean step ih => exact coupled_step ih clean step

/-- **The rosters stay in step.**  The server's list, of buddies with
pairwise different names, is loaded into a handle whose list is empty.  In
every state that a run of changes then reaches, server and handle have the
same buddies under the same ids, as long as each add of a new name gets a
block that holds 1 where the group id is not written, and the name fits
into a frame. -/
theorem roster_in_step {h : Imcomm} (ha : h.link.Accepting) (hp : h.srvPause = false)
    (hempty : h.buddylist = []) {header timestamp : List UInt8} (hheader : header.length = 10)
    (version : UInt8) {items : List SsiItem} (len : Nat)
    (hlen : (listPayload header version items timestamp).length ≤ 65535)
    (hnamed : ∀ i ∈ items, i.Named)
    (hnodup : ((buddies items).map fun i => imcommSimplifySn i.name).Nodup) :
    ∃ h', snacSsiGetList h (listPayload header version items timestamp) len = .ok h' ∧
      ∀ r', Roster.CleanRun ⟨h', items⟩ r' → r'.InStep := by
  refine ⟨_, snacSsiGetList_eq hempty hheader version len hlen hnamed hnodup, fun r' hrun => ?_⟩
  refine (coupled_run ⟨ha, hp, ?_, ?_, ?_⟩ hrun).inStep
  · rw [List.map_map]
    rfl
  · intro b hb
    obtain ⟨i, hi, rfl⟩ := List.mem_map.mp hb
    refine ⟨rfl, ?_⟩
    have hle := length_le_listPayload header version timestamp (List.mem_of_mem_filter hi)
    rw [SsiItem.length_bytes] at hle
    show i.name.length ≤ 65515
    omega
  · rw [List.map_map]
    exact hnodup

end

/-- A group "B" and a buddy "Al" in it. -/
def groupOfAl : List SsiItem := [⟨[0x42], 1, 0, 1, []⟩, ⟨[0x41, 0x6C], 1, 7, 0, []⟩]

/-- The handle that they are loaded into. -/
def handleOfAl : Imcomm :=
  { imcommCreateHandle zeroBlock with buddylist := [⟨[0x61, 0x6C], [0x41, 0x6C], 7, 1⟩] }

/-- The list is loaded, "bob" is added in a block that holds 1, and "Al" is
removed: server and handle are left with bob, in group 1 under id 1. -/
theorem roster_in_step_one_buddy :
    ∃ r', @snacSsiGetList littleEndianHost (imcommCreateHandle zeroBlock)
        (listPayload (List.replicate 10 0) 0 groupOfAl []) 36 = .ok handleOfAl ∧
      @Roster.CleanRun littleEndianHost ⟨handleOfAl, groupOfAl⟩ r' ∧ r'.InStep ∧
      (buddies r'.items).map SsiItem.entry = [([0x62, 0x6F, 0x62], 1, 1)] ∧
      r'.handle.buddylist.map RosterBuddy.entry = [([0x62, 0x6F, 0x62], 1, 1)] := by
  obtain ⟨h', hload, hrun⟩ := @roster_in_step littleEndianHost (imcommCreateHandle zeroBlock)
    (fun _ _ => rfl) rfl rfl (List.replicate 10 0) [] rfl 0 groupOfAl 36
    (by decide) (by simp only [SsiItem.Named]; decide) (by decide)
  have hloaded : @snacSsiGetList littleEndianHost (imcommCreateHandle zeroBlock)
      (listPayload (List.replicate 10 0) 0 groupOfAl []) 36 = .ok handleOfAl := rfl
  rw [hloaded] at hload
  cases hload
  have hends : ((@Roster.step littleEndianHost ⟨handleOfAl, groupOfAl⟩
      (.add 0x0001 [0x62, 0x6F, 0x62])).bind
        fun r => @Roster.step littleEndianHost r (.remove [0x41, 0x6C])).map
          (fun r => ((buddies r.items).map SsiItem.entry,
            r.handle.buddylist.map RosterBuddy.entry)) =
        some ([([0x62, 0x6F, 0x62], 1, 1)], [([0x62, 0x6F, 0x62], 1, 1)]) := by decide +kernel
  obtain ⟨r', hstepped, hlists⟩ := Option.map_eq_some_iff.mp hends
  obtain ⟨r, hadd, hremove⟩ := Option.bind_eq_some_iff.mp hstepped
  have hbob : RosterOp.Clean handleOfAl (.add 0x0001 [0x62, 0x6F, 0x62]) :=
    Or.inr ⟨rfl, by decide⟩
  have hal : RosterOp.Clean r.handle (.remove [0x41, 0x6C]) := trivial
  have hclean : @Roster.CleanRun littleEndianHost ⟨handleOfAl, groupOfAl⟩ r' :=
    @Roster.CleanRun.step littleEndianHost _ _ _ _
      (@Roster.CleanRun.step littleEndianHost _ _ _ _ (@Roster.CleanRun.refl littleEndianHost _)
        hbob hadd) hal hremove
  exact ⟨r', hloaded, hclean, hrun r' hclean, congrArg Prod.fst hlists, congrArg Prod.snd hlists⟩

/-- An empty list is loaded and "bob" added to it, in a block of zeroes: the
server has him in group 1 and the handle in group 0. -/
theorem roster_out_of_step_bob :
    ∃ h' r', @snacSsiGetList littleEndianHost (imcommCreateHandle zeroBlock)
        (listPayload (List.replicate 10 0) 0 [] []) 13 = .ok h' ∧
      @Roster.step littleEndianHost ⟨h', []⟩ (.add 0 [0x62, 0x6F, 0x62]) = some r' ∧
      ¬ r'.InStep := by
  have hcoupled : Roster.Coupled ⟨imcommCreateHandle zeroBlock, []⟩ :=
    ⟨fun _ _ => rfl, rfl, rfl, by simp [imcommCreateHandle], List.nodup_nil⟩
  have hload : @snacSsiGetList littleEndianHost (imcommCreateHandle zeroBlock)
      (listPayload (List.replicate 10 0) 0 [] []) 13 = .ok (imcommCreateHandle zeroBlock) := rfl
  have hid : imcommGetNextId (imcommCreateHandle zeroBlock) = some 1 := by decide
  have hnew : imcommSimplifySn [0x62, 0x6F, 0x62] ∉
      (imcommCreateHandle zeroBlock).buddylist.map RosterBuddy.sn := List.not_mem_nil
  have hadd := @imcommImAddBuddy_new littleEndianHost _ _ 0 hnew
  rw [hid, Option.map_some] at hadd
  obtain ⟨r', hstep⟩ : ∃ r', @Roster.step littleEndianHost ⟨imcommCreateHandle zeroBlock, []⟩
      (.add 0 [0x62, 0x6F, 0x62]) = some r' :=
    ⟨_, congrArg (Option.map fun h => Roster.mk h (react [] (h.link.wire.drop 0))) hadd⟩
  refine ⟨_, r', hload, hstep, ?_⟩
  rw [@add_inStep_iff littleEndianHost _ _ hcoupled _ _ hnew (by decide) hstep]
  decide

end Bsflite
