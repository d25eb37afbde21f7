import Bsflite.InStep
import Bsflite.Sends
import Mathlib.Data.List.AList

/-!
# Bsflite.RosterMap

The handle's list of buddies as a map that keeps the order of insertion.  The
keys are simplified names; the list behind the handle is the map's list of
entries.

* `RosterMap.Change` — what a call does to the map, and what it sends.
* `nextIdLoop_eq_none_iff` — when `imcomm_get_next_id` finds no id.
* `next_id_fresh` — otherwise it finds the first one that is free.
* `refines_of_fits`, `fits_of_refines` — a call of the library is such a change
  exactly when there is an id and the name fits into a frame.
* `roster_map` — so is every call of a run.
-/

namespace Bsflite

/-! ## the map -/

section
variable {α : Type} {β : α → Type} [DecidableEq α]

/-- Add an entry behind the others, unless its key is there. -/
def addLast (m : AList β) (a : α) (b : β a) : AList β := m ∪ AList.singleton a b

theorem kunion_singleton {l : List (Sigma β)} {a : α} (b : β a) (h : a ∉ l.keys) :
    l.kunion [⟨a, b⟩] = l ++ [⟨a, b⟩] := by
  induction l with
  | nil => rfl
  | cons s l ih =>
      rw [List.keys_cons, List.mem_cons, not_or] at h
      rw [List.kunion_cons, List.kerase_of_notMem_keys (by simpa using Ne.symm h.1), ih h.2,
        List.cons_append]

theorem entries_addLast {m : AList β} {a : α} (b : β a) (h : a ∉ m) :
    (addLast m a b).entries = m.entries ++ [⟨a, b⟩] :=
  kunion_singleton b h

end

/-- What the handle keeps of a buddy beside the key. -/
structure RosterEntry where
  formattedsn : Str
  groupId : UInt16
  ssiId : UInt16
deriving DecidableEq, Repr

/-- The roster of a handle. -/
abbrev RosterMap := AList fun _ : Str => RosterEntry

/-- A call that changes the roster; a new node takes over what its block
held. -/
inductive BuddyCall where
  | addto (sn : Str) (id groupId : UInt16)
  | add (garbage : UInt16) (sn : Str)
  | remove (sn : Str)
deriving DecidableEq, Repr

/-- What a call does to the map, and the change of the server's list that it
sends: a new key goes behind the others, a known one goes nowhere, and what is
sent of a removed one is what was stored. -/
inductive RosterMap.Change (m : RosterMap) :
    BuddyCall → RosterMap → Option (UInt16 × SsiItem) → Prop where
  | addto_known {sn : Str} (id groupId : UInt16) (known : imcommSimplifySn sn ∈ m) :
      Change m (.addto sn id groupId) m none
  | addto_new {sn : Str} (id groupId : UInt16) (new : imcommSimplifySn sn ∉ m) :
      Change m (.addto sn id groupId) (addLast m (imcommSimplifySn sn) ⟨sn, groupId, id⟩) none
  | add_known {sn : Str} (garbage : UInt16) (known : imcommSimplifySn sn ∈ m) :
      Change m (.add garbage sn) m none
  | add_new {sn : Str} (garbage : UInt16) {id : UInt16} (new : imcommSimplifySn sn ∉ m)
      (fresh : ∀ s ∈ m.entries, s.2.ssiId ≠ id) :
      Change m (.add garbage sn)
        (addLast m (imcommSimplifySn sn) ⟨imcommSimplifySn sn, garbage, id⟩)
        (some (0x08, ⟨imcommSimplifySn sn, 0x0001, id, 0x0000, []⟩))
  | remove_absent {sn : Str} (absent : imcommSimplifySn sn ∉ m) : Change m (.remove sn) m none
  | remove_present {sn : Str} {e : RosterEntry}
      (present : m.lookup (imcommSimplifySn sn) = some e) :
      Change m (.remove sn) (m.erase (imcommSimplifySn sn))
        (some (0x0a, ⟨e.formattedsn, e.groupId, e.ssiId, 0x0000, []⟩))

/-- A node of the list as an entry of the map. -/
def RosterBuddy.toEntry (b : RosterBuddy) : Sigma fun _ : Str => RosterEntry :=
  ⟨b.sn, b.formattedsn, b.groupId, b.ssiId⟩

/-- A handle with a new buddy behind the others. -/
def Imcomm.withBuddy (h : Imcomm) (b : RosterBuddy) : Imcomm :=
  { h with buddylist := h.buddylist ++ [b] }

/-- A handle without the first buddy of a name. -/
def Imcomm.withoutBuddy (h : Imcomm) (sn : Str) : Imcomm :=
  imcommInternalDeleteBuddy { h with
    buddylist := h.buddylist.eraseP fun trav => trav.sn = imcommSimplifySn sn } sn

/-- The map is the list of the handle. -/
def Imcomm.HasRoster (h : Imcomm) (m : RosterMap) : Prop :=
  m.entries = h.buddylist.map RosterBuddy.toEntry

section
variable [Host]

/-- The handle after a call; `none` when it does not return. -/
def BuddyCall.run (h : Imcomm) : BuddyCall → Option Imcomm
  | addto sn id groupId => some (imcommAddtobuddylist h sn id groupId)
  | add garbage sn => imcommImAddBuddy garbage h sn
  | remove sn => some (imcommImRemoveBuddy h sn)

omit [Host] in
/-- What a call sends: nothing, or one batch in one write, which a receiver
reads as the three SNACs of the change. -/
def Sends (h h' : Imcomm) : Option (UInt16 × SsiItem) → Prop
  | none => h'.link = h.link ∧ h'.seqnum = h.seqnum ∧ h'.snacreq = h.snacreq
  | some (subtype, item) => parseSsiItem item.bytes = some item ∧ ∃ bytes,
      receive bytes = some (number h.seqnum h.snacreq (changeBodies subtype item)) ∧
        h'.link = (h.link.write bytes).1

omit [Host] in
/-- The call can be made as it is meant: there is an id for a new key, and
the name that goes out fits into a frame. -/
def BuddyCall.Fits (h : Imcomm) : BuddyCall → Prop
  | addto _ _ _ => True
  | add _ sn => imcommSimplifySn sn ∈ h.buddylist.map RosterBuddy.sn ∨
      (∃ id, id ∉ h.buddylist.map RosterBuddy.ssiId) ∧ (imcommSimplifySn sn).length ≤ 65515
  | remove sn => ∀ b ∈ h.buddylist, b.sn = imcommSimplifySn sn → b.formattedsn.length ≤ 65515

/-! ## the next id -/

omit [Host] in
/-- Candidates are counted from the first one, or from the one behind it. -/
theorem candidate_succ (firstid : UInt16) (k : Nat) :
    firstid + UInt16.ofNat (k + 1) = firstid + 1 + UInt16.ofNat k := by
  rw [UInt16.ofNat_add, UInt16.add_comm (UInt16.ofNat k), ← UInt16.add_assoc]
  rfl

omit [Host] in
/-- No id is found exactly when all the candidates are taken. -/
theorem nextIdLoop_eq_none_iff {ids : List UInt16} {fuel : Nat} {firstid : UInt16} :
    nextIdLoop ids fuel firstid = none ↔ ∀ k < fuel, firstid + UInt16.ofNat k ∈ ids := by
  induction fuel generalizing firstid with
  | zero => simp [nextIdLoop]
  | succ fuel ih =>
      rw [nextIdLoop]
      by_cases hmem : firstid ∈ ids
      · rw [if_pos hmem, ih, Nat.forall_lt_succ_left]
        simp only [candidate_succ]
        exact ⟨fun h => ⟨by simpa using hmem, h⟩, fun h => h.2⟩
      · rw [if_neg hmem]
        refine ⟨nofun, fun h => absurd ?_ hmem⟩
        simpa using h 0 (Nat.succ_pos fuel)

omit [Host] in
/-- The id that is found is not taken. -/
theorem nextIdLoop_some {ids : List UInt16} {fuel : Nat} {firstid id : UInt16}
    (h : nextIdLoop ids fuel firstid = some id) : id ∉ ids := by
  induction fuel generalizing firstid with
  | zero => exact absurd h nofun
  | succ fuel ih =>
      rw [nextIdLoop] at h
      split at h
      · exact ih h
      · next hmem =>
        rw [← Option.some.inj h]
        exact hmem

omit [Host] in
/-- `imcomm_get_next_id` does not return exactly when all ids are taken. -/
theorem imcommGetNextId_eq_none_iff {h : Imcomm} :
    imcommGetNextId h = none ↔ ∀ id, id ∈ h.buddylist.map RosterBuddy.ssiId := by
  rw [imcommGetNextId, nextIdLoop_eq_none_iff]
  refine ⟨fun hall id => ?_, fun hall k _ => hall _⟩
  have hid := hall (id - 1).toNat (UInt16.toNat_lt _)
  rwa [UInt16.ofNat_toNat, UInt16.add_comm, UInt16.sub_add_cancel] at hid

omit [Host] in
/-- The candidates in front of the id that is found are taken. -/
theorem nextIdLoop_passed {ids : List UInt16} {fuel : Nat} {firstid id : UInt16}
    (h : nextIdLoop ids fuel firstid = some id) :
    ∃ k < fuel, id = firstid + UInt16.ofNat k ∧ ∀ j < k, firstid + UInt16.ofNat j ∈ ids := by
  induction fuel generalizing firstid with
  | zero => exact absurd h nofun
  | succ fuel ih =>
      rw [nextIdLoop] at h
      by_cases hmem : firstid ∈ ids
      · rw [if_pos hmem] at h
        obtain ⟨k, hk, hid, hpassed⟩ := ih h
        refine ⟨k + 1, by omega, by rw [hid, candidate_succ], fun j hj => ?_⟩
        cases j with
        | zero => simpa using hmem
        | succ j =>
            rw [candidate_succ]
            exact hpassed j (by omega)
      · rw [if_neg hmem] at h
        exact ⟨0, by omega, by simpa using (Option.some.inj h).symm, fun j hj => by omega⟩

omit [Host] in
/-- The loop asks only which ids are taken. -/
theorem nextIdLoop_congr {ids ids' : List UInt16} (h : ∀ id, id ∈ ids ↔ id ∈ ids') (fuel : Nat)
    (firstid : UInt16) : nextIdLoop ids fuel firstid = nextIdLoop ids' fuel firstid := by
  induction fuel generalizing firstid with
  | zero => rfl
  | succ fuel ih =>
      unfold nextIdLoop
      simp only [h, ih]

omit [Host] in
/-- The candidates from 1 on, by their value: 0 comes last. -/
theorem taken_below {ids : List UInt16} {id : UInt16}
    (h : nextIdLoop ids 65536 0x0001 = some id) {k : UInt16} (hk : 1 ≤ k) (hlt : k < id ∨ id = 0) :
    k ∈ ids := by
  obtain ⟨n, hn, hid, hpassed⟩ := nextIdLoop_passed h
  rw [UInt16.le_iff_toNat_le] at hk
  have hk : 1 ≤ k.toNat := hk
  have hidn : id.toNat = (1 + n) % 65536 := by
    rw [hid, UInt16.toNat_add, UInt16.toNat_ofNat']
    show (1 + n % 65536) % 65536 = _
    omega
  have hbefore : k.toNat - 1 < n := by
    have hk16 := k.toNat_lt
    rcases hlt with hlt | rfl
    · rw [UInt16.lt_iff_toNat_lt] at hlt
      omega
    · have hzero : (0 : UInt16).toNat = 0 := rfl
      omega
  have hmem := hpassed (k.toNat - 1) hbefore
  have hsame : 0x0001 + UInt16.ofNat (k.toNat - 1) = k := by
    apply UInt16.toNat_inj.mp
    rw [UInt16.toNat_add, UInt16.toNat_ofNat']
    show (1 + (k.toNat - 1) % 65536) % 65536 = _
    have hk16 := k.toNat_lt
    omega
  rwa [hsame] at hmem

omit [Host] in
/-- **Fresh ids**: unless all ids are taken, `imcomm_get_next_id` returns one
that is not, all the ids from 1 up to it are taken (all from 1 to 65535, when
it is 0), and the order of the list does not matter. -/
theorem next_id_fresh {h : Imcomm} (hfree : ∃ id, id ∉ h.buddylist.map RosterBuddy.ssiId) :
    ∃ id, imcommGetNextId h = some id ∧ id ∉ h.buddylist.map RosterBuddy.ssiId ∧
      (∀ k : UInt16, 1 ≤ k → k < id ∨ id = 0 → k ∈ h.buddylist.map RosterBuddy.ssiId) ∧
      ∀ h' : Imcomm, h'.buddylist.Perm h.buddylist → imcommGetNextId h' = some id := by
  obtain ⟨free, hfree⟩ := hfree
  have hsome : imcommGetNextId h ≠ none := fun hnone =>
    hfree (imcommGetNextId_eq_none_iff.mp hnone free)
  obtain ⟨id, hid⟩ := Option.ne_none_iff_exists'.mp hsome
  refine ⟨id, hid, nextIdLoop_some hid, fun k hk hlt => taken_below hid hk hlt, fun h' hperm => ?_⟩
  have hids := hperm.map RosterBuddy.ssiId
  rw [← hid]
  exact nextIdLoop_congr (fun _ => hids.mem_iff) _ _

/-- A handle whose buddies have the ids 4, 1 and 2. -/
def threeBuddies : Imcomm :=
  { imcommCreateHandle zeroBlock with
    buddylist := [⟨[97], [97], 4, 1⟩, ⟨[98], [98], 1, 1⟩, ⟨[99], [99], 2, 1⟩] }

omit [Host] in
/-- The next id is 3, in whatever order they are. -/
theorem next_id_fresh_three :
    imcommGetNextId threeBuddies = some 3 ∧
      ∀ h' : Imcomm, h'.buddylist.Perm threeBuddies.buddylist → imcommGetNextId h' = some 3 := by
  obtain ⟨id, hid, -, -, horder⟩ := @next_id_fresh threeBuddies ⟨3, by decide⟩
  have hthree : imcommGetNextId threeBuddies = some 3 := by decide
  obtain rfl : id = 3 := Option.some.inj (hid.symm.trans hthree)
  exact ⟨hthree, horder⟩

/-! ## the list and the map -/

omit [Host] in
theorem Imcomm.HasRoster.keys {m : RosterMap} {h : Imcomm} (hm : h.HasRoster m) :
    m.keys = h.buddylist.map RosterBuddy.sn := by
  rw [AList.keys, hm, List.keys, List.map_map]
  rfl

omit [Host] in
theorem Imcomm.HasRoster.mem_iff {m : RosterMap} {h : Imcomm} (hm : h.HasRoster m) {k : Str} :
    k ∈ m ↔ k ∈ h.buddylist.map RosterBuddy.sn := by
  rw [AList.mem_keys, hm.keys]

omit [Host] in
/-- The map of a list without its first node of a name. -/
theorem Imcomm.HasRoster.withoutBuddy {m : RosterMap} {h : Imcomm} (hm : h.HasRoster m)
    {sn : Str} : (h.withoutBuddy sn).HasRoster (m.erase (imcommSimplifySn sn)) := by
  show List.kerase _ m.entries = (h.buddylist.eraseP _).map _
  rw [hm, List.kerase, List.eraseP_map]
  congr 2
  funext trav
  exact decide_eq_decide.mpr eq_comm

omit [Host] in
/-- The map of a list with a new node behind it. -/
theorem Imcomm.HasRoster.withBuddy {m : RosterMap} {h : Imcomm} (hm : h.HasRoster m)
    {b : RosterBuddy} (hnew : b.sn ∉ m) :
    (h.withBuddy b).HasRoster (addLast m b.sn ⟨b.formattedsn, b.groupId, b.ssiId⟩) := by
  rw [HasRoster, Bsflite.entries_addLast _ hnew, hm, Imcomm.withBuddy, List.map_append]
  rfl

omit [Host] in
/-- Sending leaves the list. -/
theorem Imcomm.HasRoster.of_frame {m : RosterMap} {h h' : Imcomm} (hm : h.HasRoster m)
    (hframe : SendFrame h h') : h'.HasRoster m := by
  obtain ⟨link, seqnum, snacreq, isidle, rfl⟩ := hframe
  exact hm

omit [Host] in
/-- The map has every node. -/
theorem Imcomm.HasRoster.lookup_of_mem {m : RosterMap} {h : Imcomm} (hm : h.HasRoster m)
    {b : RosterBuddy} (hb : b ∈ h.buddylist) :
    m.lookup b.sn = some ⟨b.formattedsn, b.groupId, b.ssiId⟩ := by
  rw [← Option.mem_def, AList.mem_lookup_iff, hm]
  exact List.mem_map_of_mem hb

omit [Host] in
theorem Imcomm.HasRoster.absent_of_find {m : RosterMap} {h : Imcomm} (hm : h.HasRoster m) {k : Str}
    (hfind : h.buddylist.find? (fun trav => trav.sn = k) = none) : k ∉ m := by
  rw [hm.mem_iff, List.mem_map]
  rintro ⟨b, hb, heq⟩
  exact List.find?_eq_none.mp hfind b hb (decide_eq_true heq)

/-! ## what is sent -/

omit [Host] in
theorem length_of_parseSnac {payload : List UInt8} {s : Snac} (h : parseSnac payload = some s) :
    payload.length = 10 + s.data.length := by
  unfold parseSnac at h
  split at h
  · rw [← Option.some.inj h]
    simp only [List.length_cons]
    omega
  · exact absurd h nofun

omit [Host] in
/-- A SNAC that a receiver reads fits into its frame. -/
theorem receive_data_le {bytes : List UInt8} {rs : List Received} (h : receive bytes = some rs) :
    ∀ r ∈ rs, r.snac.data.length ≤ 65525 := by
  obtain ⟨fs, -, hmap⟩ := Option.bind_eq_some_iff.mp h
  clear h
  induction fs generalizing rs with
  | nil =>
      rw [List.mapM_nil] at hmap
      rw [← Option.some.inj hmap]
      exact nofun
  | cons f fs ih =>
      rw [List.mapM_cons] at hmap
      obtain ⟨r, hr, hmap⟩ := Option.bind_eq_some_iff.mp hmap
      obtain ⟨rs', hrs, hmap⟩ := Option.bind_eq_some_iff.mp hmap
      obtain ⟨s, hs, rfl⟩ := Option.map_eq_some_iff.mp hr
      rw [← Option.some.inj hmap]
      refine List.forall_mem_cons.mpr ⟨?_, ih hrs⟩
      have hlen := length_of_parseSnac hs
      have hpayload := f.payload.property
      show s.data.length ≤ 65525
      omega

omit [Host] in
theorem length_le_of_mem_changeBodies (subtype : UInt16) {name : Str} (hname : name.length ≤ 65515)
    (groupId id : UInt16) :
    ∀ b ∈ changeBodies subtype ⟨name, groupId, id, 0x0000, []⟩, b.data.length ≤ 65525 := by
  have hitem : (SsiItem.bytes ⟨name, groupId, id, 0x0000, []⟩).length ≤ 65525 := by
    rw [SsiItem.length_bytes]
    show 10 + name.length + 0 ≤ 65525
    omega
  rw [changeBodies, List.forall_mem_cons, List.forall_mem_cons, List.forall_mem_singleton]
  exact ⟨Nat.zero_le _, hitem, Nat.zero_le _⟩

/-- The batch of a change, over any transport: one write. -/
theorem ssiChange_eq (h : Imcomm) (subtype : UInt16) {name : Str} (hname : name.length ≤ 65515)
    (groupId id : UInt16) :
    ssiChange h subtype (ssiPacket name groupId id) =
      afterWrite { h with snacreq := h.snacreq + 3 } (numberBytes h.seqnum h.snacreq
        (changeBodies subtype ⟨name, groupId, id, 0x0000, []⟩)) 3 := by
  have hlen := length_le_of_mem_changeBodies subtype hname groupId id
  rw [ssiChange, ssiPacket_data, sendBatch, snacAddAllToMulti_eq]
  · simp only [multiPktInit, List.nil_append]
    rw [flapSendMulti_plain _ (by rw [queued_updateidle]; rfl), multiBytes_queued]
    rfl
  · intro c hc
    exact hlen c.body (List.mem_map_of_mem (f := SnacCall.body) hc)

/-- A change of the list and the batch for the server. -/
theorem sends_ssiChange (h h' : Imcomm) (hlink : h'.link = h.link) (hseq : h'.seqnum = h.seqnum)
    (hreq : h'.snacreq = h.snacreq) (subtype : UInt16) {name : Str} (hname : name.length ≤ 65515)
    (groupId id : UInt16) :
    Sends h (ssiChange h' subtype (ssiPacket name groupId id))
      (some (subtype, ⟨name, groupId, id, 0x0000, []⟩)) := by
  refine ⟨parseSsiItem_bytes _ (by simp; omega) (by simp), _, receive_numberBytes _ _ _
    (length_le_of_mem_changeBodies subtype hname groupId id), ?_⟩
  · rw [ssiChange_eq h' subtype hname groupId id, afterWrite]
    simp only [hlink, hseq, hreq]

omit [Host] in
/-- What is sent of a buddy fits into a frame. -/
theorem Sends.length_le {h h' : Imcomm} {subtype : UInt16} {i : SsiItem}
    (hsends : Sends h h' (some (subtype, i))) : 10 + i.name.length ≤ 65525 := by
  obtain ⟨-, bytes, hread, -⟩ := hsends
  have hdata := receive_data_le hread
    ⟨0x02, h.seqnum + 1, ⟨0x13, subtype, 0, h.snacreq + 1, i.bytes⟩⟩ (by
      rw [changeBodies, number, number]
      exact List.mem_cons_of_mem _ List.mem_cons_self)
  rw [SsiItem.length_bytes] at hdata
  exact Nat.le_trans (Nat.le_add_right _ _) hdata

/-! ## one call -/

omit [Host] in
theorem imcommAddtobuddylist_known {h : Imcomm} {sn : Str} (id groupId : UInt16)
    (hmem : imcommSimplifySn sn ∈ h.buddylist.map RosterBuddy.sn) :
    imcommAddtobuddylist h sn id groupId = h := by
  obtain ⟨b, hb, heq⟩ := List.mem_map.mp hmem
  exact if_pos (List.any_eq_true.mpr ⟨b, hb, decide_eq_true heq.symm⟩)

omit [Host] in
theorem imcommAddtobuddylist_new {h : Imcomm} {sn : Str} (id groupId : UInt16)
    (hnew : imcommSimplifySn sn ∉ h.buddylist.map RosterBuddy.sn) :
    imcommAddtobuddylist h sn id groupId = h.withBuddy ⟨imcommSimplifySn sn, sn, id, groupId⟩ := by
  refine if_neg fun hany => ?_
  obtain ⟨b, hb, heq⟩ := List.any_eq_true.mp hany
  exact hnew (List.mem_map.mpr ⟨b, hb, (of_decide_eq_true heq).symm⟩)

/-- The call is a change of the map, and sends what the change says. -/
def BuddyCall.Refines (h : Imcomm) (m : RosterMap) (c : BuddyCall) : Prop :=
  ∃ h' m' sent, c.run h = some h' ∧ m.Change c m' sent ∧ h'.HasRoster m' ∧ Sends h h' sent

theorem addto_refines {h : Imcomm} {m : RosterMap} (hm : h.HasRoster m) (sn : Str)
    (id groupId : UInt16) : BuddyCall.Refines h m (.addto sn id groupId) := by
  by_cases hmem : imcommSimplifySn sn ∈ m
  · refine ⟨h, m, none, ?_, .addto_known id groupId hmem, hm, rfl, rfl, rfl⟩
    rw [BuddyCall.run, imcommAddtobuddylist_known id groupId (hm.mem_iff.mp hmem)]
  · refine ⟨_, _, none, ?_, .addto_new id groupId hmem,
      hm.withBuddy (b := ⟨imcommSimplifySn sn, sn, id, groupId⟩) hmem, rfl, rfl, rfl⟩
    rw [BuddyCall.run,
      imcommAddtobuddylist_new id groupId fun hlist => hmem (hm.mem_iff.mpr hlist)]

theorem add_refines {h : Imcomm} {m : RosterMap} (hm : h.HasRoster m) {garbage : UInt16} {sn : Str}
    (hfits : (BuddyCall.add garbage sn).Fits h) : BuddyCall.Refines h m (.add garbage sn) := by
  by_cases hmem : imcommSimplifySn sn ∈ m
  · refine ⟨h, m, none, ?_, .add_known garbage hmem, hm, rfl, rfl, rfl⟩
    exact imcommImAddBuddy_known garbage (hm.mem_iff.mp hmem)
  · have hnew : imcommSimplifySn sn ∉ h.buddylist.map RosterBuddy.sn :=
      fun hlist => hmem (hm.mem_iff.mpr hlist)
    obtain ⟨⟨free, hfree⟩, hlen⟩ := hfits.resolve_left hnew
    obtain ⟨id, hid⟩ : ∃ id, imcommGetNextId h = some id := by
      refine Option.ne_none_iff_exists'.mp fun hnone => ?_
      exact hfree (imcommGetNextId_eq_none_iff.mp hnone free)
    have hfresh : ∀ s ∈ m.entries, s.2.ssiId ≠ id := by
      intro s hs heq
      rw [hm] at hs
      obtain ⟨b, hb, rfl⟩ := List.mem_map.mp hs
      exact nextIdLoop_some hid (List.mem_map.mpr ⟨b, hb, heq⟩)
    have hsends := sends_ssiChange h
      (h.withBuddy ⟨imcommSimplifySn sn, imcommSimplifySn sn, id, garbage⟩) rfl rfl rfl 0x08 hlen
      0x0001 id
    refine ⟨_, _, _, ?_, .add_new garbage hmem hfresh, ?_, hsends⟩
    · exact (imcommImAddBuddy_new garbage hnew).trans (by rw [hid]; rfl)
    · exact (hm.withBuddy (b := ⟨imcommSimplifySn sn, imcommSimplifySn sn, id, garbage⟩)
        hmem).of_frame (sendBatch_frame _ _)

theorem remove_refines {h : Imcomm} {m : RosterMap} (hm : h.HasRoster m) {sn : Str}
    (hfits : (BuddyCall.remove sn).Fits h) : BuddyCall.Refines h m (.remove sn) := by
  cases hfind : h.buddylist.find? (fun trav => trav.sn = imcommSimplifySn sn) with
  | none =>
      have hlist := List.eraseP_of_forall_not (List.find?_eq_none.mp hfind)
      refine ⟨imcommInternalDeleteBuddy h sn, m, none, ?_,
        .remove_absent (hm.absent_of_find hfind), hm, rfl, rfl, rfl⟩
      rw [BuddyCall.run, imcommImRemoveBuddy, hfind, hlist]
  | some temp =>
      have htemp := List.find?_some hfind
      have hname : temp.sn = imcommSimplifySn sn := of_decide_eq_true htemp
      have hmem := List.mem_of_find?_eq_some hfind
      have hlen : temp.formattedsn.length ≤ 65515 := hfits temp hmem hname
      have hsends := sends_ssiChange h (h.withoutBuddy sn) rfl rfl rfl 0x0a hlen temp.groupId
        temp.ssiId
      have hlookup := hm.lookup_of_mem hmem
      rw [hname] at hlookup
      refine ⟨_, _, _, ?_, .remove_present hlookup, ?_, hsends⟩
      · rw [BuddyCall.run, imcommImRemoveBuddy, hfind]
        rfl
      · exact hm.withoutBuddy.of_frame (sendBatch_frame _ _)

/-- A call that fits is a change of the map. -/
theorem refines_of_fits {h : Imcomm} {m : RosterMap} (hm : h.HasRoster m) {c : BuddyCall}
    (hfits : c.Fits h) : c.Refines h m := by
  cases c with
  | addto sn id groupId => exact addto_refines hm sn id groupId
  | add garbage sn => exact add_refines hm hfits
  | remove sn => exact remove_refines hm hfits

/-- A call that is a change of the map fits. -/
theorem fits_of_refines {h : Imcomm} {m : RosterMap} (hm : h.HasRoster m) {c : BuddyCall}
    (hc : c.Refines h m) : c.Fits h := by
  obtain ⟨h', m', sent, hrun, hchange, -, hsends⟩ := hc
  cases hchange with
  | addto_known | addto_new => trivial
  | add_known garbage known => exact Or.inl (hm.mem_iff.mp known)
  | add_new garbage new fresh =>
      have hlen := hsends.length_le
      refine Or.inr ⟨?_, by simp only at hlen; omega⟩
      by_contra hall
      push Not at hall
      have hnew := imcommImAddBuddy_new garbage fun hlist => new (hm.mem_iff.mpr hlist)
      rw [imcommGetNextId_eq_none_iff.mpr hall] at hnew
      exact absurd (hnew.symm.trans hrun) nofun
  | remove_absent absent =>
      exact fun b hb heq => absurd (hm.mem_iff.mpr (List.mem_map.mpr ⟨b, hb, heq⟩)) absent
  | remove_present present =>
      have hlen := hsends.length_le
      intro b hb heq
      have hentry := hm.lookup_of_mem hb
      rw [heq, present] at hentry
      rw [Option.some.inj hentry] at hlen
      show b.formattedsn.length ≤ 65515
      simp only at hlen
      omega

/-- The handles that runs of calls that fit reach from a fresh one. -/
inductive RosterReached (block : Imcomm) : Imcomm → Prop where
  | create : RosterReached block (imcommCreateHandle block)
  | call {h h' : Imcomm} {c : BuddyCall} (reached : RosterReached block h) (fits : c.Fits h)
      (run : c.run h = some h') : RosterReached block h'

/-- **The roster is a map** in order of insertion after every run of calls
that fit; and the next call is a change of the map exactly when it fits. -/
theorem roster_map (block : Imcomm) {h : Imcomm} (hr : RosterReached block h) :
    ∃ m : RosterMap, h.HasRoster m ∧ ∀ c : BuddyCall, c.Refines h m ↔ c.Fits h := by
  suffices hmap : ∃ m : RosterMap, h.HasRoster m by
    obtain ⟨m, hm⟩ := hmap
    exact ⟨m, hm, fun c => ⟨fits_of_refines hm, refines_of_fits hm⟩⟩
  induction hr with
  | create => exact ⟨∅, rfl⟩
  | call reached fits run ih =>
      obtain ⟨m, hm⟩ := ih
      obtain ⟨h'', m', sent, hrun, -, hm', -⟩ := refines_of_fits hm fits
      rw [run] at hrun
      exact ⟨m', Option.some.inj hrun ▸ hm'⟩

end

/-- "z" is added to a fresh handle. -/
theorem roster_map_z :
    ∃ m : RosterMap, (imcommCreateHandle zeroBlock).HasRoster m ∧
      @BuddyCall.Refines littleEndianHost (imcommCreateHandle zeroBlock) m (.add 1 [122]) := by
  obtain ⟨m, hm, hc⟩ := @roster_map littleEndianHost zeroBlock _
    (@RosterReached.create littleEndianHost zeroBlock)
  exact ⟨m, hm, (hc (.add 1 [122])).mpr (Or.inr ⟨⟨1, List.not_mem_nil⟩, by decide⟩)⟩

/-! ## a full roster -/

/-- A letter for a digit in base 16. -/
def letter (digit : Nat) : UInt8 := UInt8.ofNat (97 + digit % 16)

theorem letter_ne_blank (a : Nat) : letter a ≠ 32 := by
  have hall : ∀ d < 16, UInt8.ofNat (97 + d) ≠ 32 := by decide
  exact hall (a % 16) (Nat.mod_lt _ (by decide))

theorem tolower_letter (a : Nat) : tolower (letter a) = letter a := by
  have hall : ∀ d < 16, tolower (UInt8.ofNat (97 + d)) = UInt8.ofNat (97 + d) := by decide
  exact hall (a % 16) (Nat.mod_lt _ (by decide))

theorem letter_inj {a b : Nat} (h : letter a = letter b) : a % 16 = b % 16 := by
  have hall : ∀ d < 16, ∀ e < 16, UInt8.ofNat (97 + d) = UInt8.ofNat (97 + e) → d = e := by decide
  exact hall _ (Nat.mod_lt _ (by decide)) _ (Nat.mod_lt _ (by decide)) h

/-- A name for every id. -/
def idName (i : Nat) : Str := [letter (i / 4096), letter (i / 256), letter (i / 16), letter i]

theorem idName_inj {i j : Nat} (hi : i < 65536) (hj : j < 65536) (h : idName i = idName j) :
    i = j := by
  simp only [idName, List.cons.injEq] at h
  have h3 := letter_inj h.1
  have h2 := letter_inj h.2.1
  have h1 := letter_inj h.2.2.1
  have h0 := letter_inj h.2.2.2.1
  omega

theorem imcommSimplifySn_idName (i : Nat) : imcommSimplifySn (idName i) = idName i := by
  simp [imcommSimplifySn, idName, letter_ne_blank, tolower_letter]

/-- The server's list may have a buddy for every id. -/
theorem exists_roster [Host] (n : Nat) (hn : n ≤ 65536) :
    ∃ h, RosterReached zeroBlock h ∧ h.buddylist =
      (List.range n).map fun i => ⟨idName i, idName i, UInt16.ofNat i, 0x0001⟩ := by
  induction n with
  | zero => exact ⟨imcommCreateHandle zeroBlock, .create, rfl⟩
  | succ n ih =>
      obtain ⟨h, hreached, hlist⟩ := ih (by omega)
      have hnew : imcommSimplifySn (idName n) ∉ h.buddylist.map RosterBuddy.sn := by
        rw [imcommSimplifySn_idName, hlist, List.map_map, List.mem_map]
        rintro ⟨i, hi, heq⟩
        rw [List.mem_range] at hi
        have := idName_inj (by omega) (by omega) heq
        omega
      have hstep := imcommAddtobuddylist_new (UInt16.ofNat n) 0x0001 hnew
      refine ⟨_, .call (c := .addto (idName n) (UInt16.ofNat n) 0x0001) hreached trivial rfl, ?_⟩
      rw [hstep, Imcomm.withBuddy, imcommSimplifySn_idName]
      simp only [hlist, List.range_succ, List.map_append, List.map_cons, List.map_nil]

/-- With a buddy for every id, `imcomm_im_add_buddy` of another one does not
return. -/
theorem roster_map_full :
    ∃ h, @RosterReached littleEndianHost zeroBlock h ∧
      imcommSimplifySn [122] ∉ h.buddylist.map RosterBuddy.sn ∧
      @imcommImAddBuddy littleEndianHost 1 h [122] = none := by
  obtain ⟨h, hreached, hlist⟩ := @exists_roster littleEndianHost 65536 (Nat.le_refl _)
  have hnew : imcommSimplifySn [122] ∉ h.buddylist.map RosterBuddy.sn := by
    rw [hlist, List.map_map, List.mem_map]
    rintro ⟨i, -, heq⟩
    have hlen : 4 = 1 := congrArg List.length heq
    exact absurd hlen (by decide)
  have hnone : imcommGetNextId h = none := by
    rw [imcommGetNextId_eq_none_iff]
    intro id
    rw [hlist, List.map_map, List.mem_map]
    exact ⟨id.toNat, List.mem_range.mpr id.toNat_lt, UInt16.ofNat_toNat⟩
  refine ⟨h, hreached, hnew, ?_⟩
  rw [@imcommImAddBuddy_new littleEndianHost _ _ 1 hnew, hnone]
  rfl

end Bsflite
