import Bsflite.Flap

/-!
# Bsflite.Roster

The list of buddies that the server stores for a user, as `snac.c` keeps a
copy of it in the handle: `snac_ssi_get_list` loads it, `imcomm_im_add_buddy`
and `imcomm_im_remove_buddy` change both copies.

An item on the wire is

```
ITEM = namelen(2)  name  groupid(2)  itemid(2)  type(2)  datalen(2)  data
```

and type 0 is a buddy.
-/

namespace Bsflite

section
variable [Host]

/-! ## loading the list -/

/-- `imcomm_addtobuddylist`: a name that is already there is left alone. -/
def imcommAddtobuddylist (h : Imcomm) (sn : Str) (id groupId : UInt16) : Imcomm :=
  let sname := imcommSimplifySn sn
  if h.buddylist.any (fun trav => sname = trav.sn) then h
  else { h with buddylist := h.buddylist ++ [⟨sname, sn, id, groupId⟩] }

/-- The name of an item; an empty one is `NULL`. -/
def ssiName (pkt : Pkt) (length : UInt16) : Except Fault (Option Str × Pkt) :=
  if 0 < length then do
    let (name, pkt) ← pktGetstr pkt length.toNat
    return (some (cstr name), pkt)
  else return (none, pkt)

/-- What `snac_ssi_get_list` does with an item it has read. -/
def ssiItem (h : Imcomm) (name : Option Str) (groupId id type : UInt16) : Imcomm :=
  match name with
  | some name => if type = 0x0000 then imcommAddtobuddylist h name id groupId else h
  | none => h

/-- The loop of `snac_ssi_get_list`, for the number of items left. -/
def ssiListLoop : Nat → Pkt → Imcomm → Except Fault Imcomm
  | 0, _, h => return h
  | n + 1, pkt, h => do
    let (length, pkt) ← pktGet16 pkt
    let (name, pkt) ← ssiName pkt length
    let (groupId, pkt) ← pktGet16 pkt
    let (id, pkt) ← pktGet16 pkt
    let (type, pkt) ← pktGet16 pkt
    let (tlvlen, pkt) ← pktGet16 pkt
    ssiListLoop n (pktSkip pkt tlvlen.toNat) (ssiItem h name groupId id type)

/-- `snac_ssi_get_list` -/
def snacSsiGetList (h : Imcomm) (data : List UInt8) (len : Nat) : Except Fault Imcomm := do
  let pkt := pktInitP (data.drop 10) (uint16 (len - 10))
  let (_version, pkt) ← pktGet8 pkt
  let (count, pkt) ← pktGet16 pkt
  ssiListLoop count.toNat pkt h

/-! ## changing the list -/

/-- The loop of `imcomm_get_next_id`: the candidates wrap at 2^16, and when
all of them are taken the loop does not end. -/
def nextIdLoop (ids : List UInt16) : Nat → UInt16 → Option UInt16
  | 0, _ => none
  | fuel + 1, firstid =>
    if firstid ∈ ids then nextIdLoop ids fuel (firstid + 1) else some firstid

/-- `imcomm_get_next_id` -/
def imcommGetNextId (h : Imcomm) : Option UInt16 :=
  nextIdLoop (h.buddylist.map RosterBuddy.ssiId) 65536 0x0001

/-- The packet that names an item to the server. -/
def ssiPacket (name : Str) (groupId id : UInt16) : Pkt :=
  pktAddAll (pktInit (10 + name.length))
    [.add16 (uint16 name.length), .addraw name, .add16 groupId, .add16 id, .add16 0x0000,
      .add16 0x0000]

/-- The batch around a change: begin (13,11), the change, end (13,12). -/
def ssiChange (h : Imcomm) (subtype : UInt16) (packet : Pkt) : Imcomm :=
  (sendBatch h [⟨⟨0x13, 0x11, []⟩, 0⟩, ⟨⟨0x13, subtype, packet.data⟩, 0⟩,
    ⟨⟨0x13, 0x12, []⟩, 0⟩]).1

/-- `imcomm_im_add_buddy`; `none` when it does not return.  The new node is
a block from `malloc`, and its `group_id` is not written: `garbage` is what
the block held there. -/
def imcommImAddBuddy (garbage : UInt16) (h : Imcomm) (sn : Str) : Option Imcomm :=
  let sname := imcommSimplifySn sn
  if h.buddylist.any (fun trav => sname = trav.sn) then some h
  else
    match imcommGetNextId h with
    | none => none
    | some nextid =>
      let h := { h with buddylist := h.buddylist ++ [⟨sname, sname, nextid, garbage⟩] }
      some (ssiChange h 0x08 (ssiPacket sname 0x0001 nextid))

/-- `imcomm_im_remove_buddy` -/
def imcommImRemoveBuddy (h : Imcomm) (sn : Str) : Imcomm :=
  let sname := imcommSimplifySn sn
  let removed := h.buddylist.find? (fun trav => trav.sn = sname)
  let h := { h with buddylist := h.buddylist.eraseP (fun trav => trav.sn = sname) }
  let h := imcommInternalDeleteBuddy h sn
  match removed with
  | none => h
  | some temp => ssiChange h 0x0a (ssiPacket temp.formattedsn temp.groupId temp.ssiId)

end

end Bsflite
