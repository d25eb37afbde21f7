import Bsflite.Outgoing
import Bsflite.Roster

/-!
# Bsflite.ServerList

The server's list of items, and what the handle makes of it.  The server knows
the client only by the SNACs on the wire: (13,08) appends an item, (13,0A)
deletes the item with that name and those ids, and (13,06) sends the whole
list.

* `react` — what the server makes of a stream of bytes.
* `snacSsiGetList_load` — loading a list goes through its items.
* `snacSsiGetList_eq` — the list that is loaded.
-/

namespace Bsflite

/-! ## items -/

/-- An item of the server's list. -/
structure SsiItem where
  name : Str
  groupId : UInt16
  id : UInt16
  type : UInt16
  data : List UInt8
deriving DecidableEq, Repr

namespace SsiItem

/-- The item on the wire. -/
def bytes (i : SsiItem) : List UInt8 :=
  be16 (uint16 i.name.length) ++ i.name ++ be16 i.groupId ++ be16 i.id ++ be16 i.type ++
    be16 (uint16 i.data.length) ++ i.data

@[simp] theorem length_bytes (i : SsiItem) :
    i.bytes.length = 10 + i.name.length + i.data.length := by
  simp [bytes]
  omega

/-- What (13,0A) compares. -/
def key (i : SsiItem) : Str × UInt16 × UInt16 := (i.name, i.groupId, i.id)

/-- What the two lists are compared by. -/
def entry (i : SsiItem) : Str × UInt16 × UInt16 := (imcommSimplifySn i.name, i.groupId, i.id)

end SsiItem

/-- Read an item off the front of a buffer. -/
def parseSsiItem : List UInt8 → Option SsiItem
  | a :: b :: rest =>
    let n := (ofBe16 a b).toNat
    if n ≤ rest.length then
      match rest.drop n with
      | c :: d :: e :: f :: g :: h :: i :: j :: tail =>
        let m := (ofBe16 i j).toNat
        if m ≤ tail.length then
          some ⟨rest.take n, ofBe16 c d, ofBe16 e f, ofBe16 g h, tail.take m⟩
        else none
      | _ => none
    else none
  | _ => none

/-- An item is read back. -/
theorem parseSsiItem_bytes (i : SsiItem) (hname : i.name.length < 65536)
    (hdata : i.data.length < 65536) : parseSsiItem i.bytes = some i := by
  obtain ⟨n1, n0, hn, hname'⟩ := exists_be16 (uint16 i.name.length)
  obtain ⟨g1, g0, hg, hgroup⟩ := exists_be16 i.groupId
  obtain ⟨i1, i0, hi, hid⟩ := exists_be16 i.id
  obtain ⟨t1, t0, ht, htype⟩ := exists_be16 i.type
  obtain ⟨d1, d0, hd, hdata'⟩ := exists_be16 (uint16 i.data.length)
  have hn' : (ofBe16 n1 n0).toNat = i.name.length := by rw [hname', toNat_uint16_of_lt hname]
  have hd' : (ofBe16 d1 d0).toNat = i.data.length := by rw [hdata', toNat_uint16_of_lt hdata]
  simp only [SsiItem.bytes, hn, hg, hi, ht, hd, List.append_assoc, List.cons_append,
    List.nil_append]
  rw [parseSsiItem]
  simp only [hn']
  rw [if_pos (by simp), List.drop_left' rfl, List.take_left' rfl]
  simp only [hd', hgroup, hid, htype]
  simp

/-! ## the server -/

/-- A change of the server's list by an item. -/
def changeItems (items : List SsiItem) (subtype : UInt16) (i : SsiItem) : List SsiItem :=
  if subtype = 0x08 then items ++ [i]
  else if subtype = 0x0a then items.filter (fun j => j.key ≠ i.key)
  else items

/-- The server's reaction to a SNAC. -/
def reactSnac (items : List SsiItem) (s : Snac) : List SsiItem :=
  if s.family = 0x13 then
    match parseSsiItem s.data with
    | some i => changeItems items s.subtype i
    | none => items
  else items

/-- The server's reaction to bytes on the wire. -/
def react (items : List SsiItem) (bytes : List UInt8) : List SsiItem :=
  match receive bytes with
  | some rs => rs.foldl (fun items r => reactSnac items r.snac) items
  | none => items

/-- The payload of (13,06): a SNAC header, a version, the number of items,
the items, and a timestamp. -/
def listPayload (header : List UInt8) (version : UInt8) (items : List SsiItem)
    (timestamp : List UInt8) : List UInt8 :=
  header ++
    ([version] ++ (be16 (uint16 items.length) ++ (items.flatMap SsiItem.bytes ++ timestamp)))

theorem length_le_listPayload (header : List UInt8) (version : UInt8) {items : List SsiItem}
    (timestamp : List UInt8) {i : SsiItem} (hi : i ∈ items) :
    header.length + 3 + i.bytes.length ≤ (listPayload header version items timestamp).length := by
  have hle : i.bytes.length ≤ (items.flatMap SsiItem.bytes).length := by
    rw [List.length_flatMap]
    exact List.le_sum_of_mem (List.mem_map.mpr ⟨i, hi, rfl⟩)
  simp only [listPayload, List.length_append, List.length_cons, List.length_nil, length_be16]
  omega

/-- The items that are buddies. -/
def buddies (items : List SsiItem) : List SsiItem := items.filter (·.type = 0x0000)

theorem buddies_singleton (i : SsiItem) : buddies [i] = if i.type = 0x0000 then [i] else [] := by
  by_cases h : i.type = 0x0000 <;> simp [buddies, h]

theorem buddies_append (items items' : List SsiItem) :
    buddies (items ++ items') = buddies items ++ buddies items' :=
  List.filter_append items items'

/-- The copy of a buddy that the client makes. -/
def SsiItem.roster (i : SsiItem) : RosterBuddy :=
  ⟨imcommSimplifySn i.name, i.name, i.id, i.groupId⟩

section
variable [Host]

/-! ## loading -/

/-- An item that is a buddy has a name, without a NUL. -/
def SsiItem.Named (i : SsiItem) : Prop :=
  i.type = 0x0000 → 0 ∉ i.name ∧ imcommSimplifySn i.name ≠ []

omit [Host] in
/-- The name of an item, read off the packet. -/
theorem ssiName_at {pkt : Pkt} {name rest : List UInt8} (h : pkt.At (name ++ rest))
    (hname : name.length < 65536) :
    ∃ pkt', ssiName pkt (uint16 name.length) =
        .ok (if name = [] then none else some (cstr name), pkt') ∧ pkt'.At rest := by
  have hlen : (uint16 name.length).toNat = name.length := toNat_uint16_of_lt hname
  by_cases hempty : name = []
  · subst hempty
    exact ⟨pkt, rfl, h⟩
  · obtain ⟨pkt', hread, hrest⟩ := pktGetstr_at h hname
    have hpos : 0 < uint16 name.length := by
      rw [UInt16.lt_iff_toNat_lt, hlen]
      exact List.length_pos_iff.mpr hempty
    refine ⟨pkt', ?_, hrest⟩
    rw [ssiName, if_pos hpos, hlen, hread, if_neg hempty]
    rfl

/-- What an item does to the list: a buddy whose name is new is copied. -/
def SsiItem.load (buddylist : List RosterBuddy) (i : SsiItem) : List RosterBuddy :=
  if i.type = 0x0000 ∧ i.name ≠ [] ∧ imcommSimplifySn i.name ∉ buddylist.map RosterBuddy.sn then
    buddylist ++ [i.roster]
  else buddylist

/-- The items that have a new name. -/
def newTo (buddylist : List RosterBuddy) (items : List SsiItem) : List SsiItem :=
  items.filter fun i => imcommSimplifySn i.name ∉ buddylist.map RosterBuddy.sn

omit [Host] in
theorem imcommAddtobuddylist_eq (h : Imcomm) {i : SsiItem} (htype : i.type = 0x0000)
    (hname : i.name ≠ []) :
    imcommAddtobuddylist h i.name i.id i.groupId = { h with buddylist := i.load h.buddylist } := by
  have hany : h.buddylist.any (fun trav => imcommSimplifySn i.name = trav.sn) = true ↔
      imcommSimplifySn i.name ∈ h.buddylist.map RosterBuddy.sn := by
    rw [List.any_eq_true, List.mem_map]
    constructor
    · rintro ⟨b, hb, heq⟩
      exact ⟨b, hb, (of_decide_eq_true heq).symm⟩
    · rintro ⟨b, hb, heq⟩
      exact ⟨b, hb, decide_eq_true heq.symm⟩
  rw [imcommAddtobuddylist, SsiItem.load]
  by_cases hold : imcommSimplifySn i.name ∈ h.buddylist.map RosterBuddy.sn
  · rw [if_pos (hany.mpr hold), if_neg fun hnew => hnew.2.2 hold]
  · rw [if_neg (mt hany.mp hold), if_pos ⟨htype, hname, hold⟩]
    rfl

omit [Host] in
theorem ssiItem_eq (h : Imcomm) {i : SsiItem} (hnul : i.type = 0x0000 → 0 ∉ i.name) :
    ssiItem h (if i.name = [] then none else some (cstr i.name)) i.groupId i.id i.type =
      { h with buddylist := i.load h.buddylist } := by
  by_cases hname : i.name = []
  · rw [if_pos hname, SsiItem.load, if_neg fun hload => hload.2.1 hname]
    rfl
  · rw [if_neg hname, ssiItem]
    by_cases htype : i.type = 0x0000
    · rw [if_pos htype, cstr_of_no_nul (hnul htype), imcommAddtobuddylist_eq h htype hname]
    · rw [if_neg htype, SsiItem.load, if_neg fun hload => htype hload.1]

/-- The loop loads the items it reads. -/
theorem ssiListLoop_eq (items : List SsiItem) {rest : List UInt8} {pkt : Pkt} {h : Imcomm}
    (hat : pkt.At (items.flatMap SsiItem.bytes ++ rest))
    (hfit : ∀ i ∈ items, i.name.length < 65536 ∧ i.data.length < 65536)
    (hnul : ∀ i ∈ items, i.type = 0x0000 → 0 ∉ i.name) :
    ssiListLoop items.length pkt h =
      .ok { h with buddylist := items.foldl SsiItem.load h.buddylist } := by
  induction items generalizing pkt h with
  | nil => rfl
  | cons i items ih =>
      obtain ⟨hname, hdata⟩ := hfit i List.mem_cons_self
      rw [List.flatMap_cons, SsiItem.bytes] at hat
      simp only [List.append_assoc] at hat
      obtain ⟨pkt1, hlen, hat⟩ := pktGet16_at hat
      obtain ⟨pkt2, hread, hat⟩ := ssiName_at hat hname
      obtain ⟨pkt3, hgroup, hat⟩ := pktGet16_at hat
      obtain ⟨pkt4, hid, hat⟩ := pktGet16_at hat
      obtain ⟨pkt5, htype, hat⟩ := pktGet16_at hat
      obtain ⟨pkt6, htlv, hat⟩ := pktGet16_at hat
      have hat := pktSkip_at hat (toNat_uint16_of_lt hdata).symm
      rw [List.length_cons, ssiListLoop]
      simp only [hlen, hread, hgroup, hid, htype, htlv, ok_bind]
      rw [ssiItem_eq h (hnul i List.mem_cons_self),
        ih hat (fun j hj => hfit j (List.mem_cons_of_mem i hj))
          (fun j hj => hnul j (List.mem_cons_of_mem i hj)), List.foldl_cons]

/-- A payload of (13,06) is loaded item by item. -/
theorem snacSsiGetList_load (h : Imcomm) {header timestamp : List UInt8}
    (hheader : header.length = 10) (version : UInt8) {items : List SsiItem} (len : Nat)
    (hlen : (listPayload header version items timestamp).length ≤ 65535)
    (hnul : ∀ i ∈ items, i.type = 0x0000 → 0 ∉ i.name) :
    snacSsiGetList h (listPayload header version items timestamp) len =
      .ok { h with buddylist := items.foldl SsiItem.load h.buddylist } := by
  have hcount : items.length ≤ (items.flatMap SsiItem.bytes).length := by
    rw [List.length_flatMap]
    calc items.length = (items.map fun _ => 1).sum := by simp
      _ ≤ (items.map fun i => i.bytes.length).sum :=
          List.sum_le_sum fun i _ => by rw [SsiItem.length_bytes]; omega
  have hsize : items.length ≤ 65535 := by
    simp only [listPayload, List.length_append] at hlen
    omega
  have hat : (pktInitP ((listPayload header version items timestamp).drop 10)
      (uint16 (len - 10))).At ([version] ++ (be16 (uint16 items.length) ++
        (items.flatMap SsiItem.bytes ++ timestamp))) := by
    rw [Pkt.At, pktInitP, listPayload, List.drop_left' hheader]
    rfl
  obtain ⟨pkt1, hversion, hat⟩ := pktGet8_at hat
  obtain ⟨pkt2, hread, hat⟩ := pktGet16_at hat
  have hloop := ssiListLoop_eq (h := h) items hat
    (fun i hi => by
      have hle := length_le_listPayload header version timestamp hi
      rw [SsiItem.length_bytes] at hle
      omega)
    hnul
  rw [snacSsiGetList]
  simp only [hversion, hread, ok_bind]
  rw [toNat_uint16_of_lt (by omega), hloop]

omit [Host] in
/-- Buddies with different names are all copied. -/
theorem foldl_load_of_nodup {items : List SsiItem} {buddylist : List RosterBuddy}
    (hnamed : ∀ i ∈ items, i.Named)
    (hnodup : (buddylist.map RosterBuddy.sn ++
      (buddies items).map fun i => imcommSimplifySn i.name).Nodup) :
    items.foldl SsiItem.load buddylist = buddylist ++ (buddies items).map SsiItem.roster := by
  induction items generalizing buddylist with
  | nil => exact (List.append_nil _).symm
  | cons i items ih =>
      have hsplit : buddies (i :: items) = buddies [i] ++ buddies items := buddies_append [i] items
      have hload : i.load buddylist = buddylist ++ (buddies [i]).map SsiItem.roster := by
        rw [buddies_singleton, SsiItem.load]
        by_cases htype : i.type = 0x0000
        · have hne : i.name ≠ [] := by
            intro hnil
            exact (hnamed i List.mem_cons_self htype).2 (by rw [hnil]; rfl)
          have hnew : imcommSimplifySn i.name ∉ buddylist.map RosterBuddy.sn := by
            rw [hsplit, buddies_singleton, if_pos htype, List.map_append, ← List.append_assoc]
              at hnodup
            have hfirst := (List.nodup_append.mp (List.nodup_append.mp hnodup).1).2.2
            exact fun hmem => hfirst _ hmem _ (List.mem_singleton.mpr rfl) rfl
          rw [if_pos ⟨htype, hne, hnew⟩, if_pos htype]
          rfl
        · rw [if_neg fun hload => htype hload.1, if_neg htype]
          exact (List.append_nil _).symm
      have hnames : (i.load buddylist).map RosterBuddy.sn ++
          (buddies items).map (fun i => imcommSimplifySn i.name) =
          buddylist.map RosterBuddy.sn ++
            (buddies (i :: items)).map fun i => imcommSimplifySn i.name := by
        rw [hload, hsplit, List.map_append, List.map_map, List.map_append, List.append_assoc]
        rfl
      rw [List.foldl_cons, ih (fun j hj => hnamed j (List.mem_cons_of_mem i hj)) (hnames ▸ hnodup),
        hload, hsplit, List.map_append, List.append_assoc]

/-- **Loading** a list makes a copy of its buddies. -/
theorem snacSsiGetList_eq {h : Imcomm} (hempty : h.buddylist = []) {header timestamp : List UInt8}
    (hheader : header.length = 10) (version : UInt8) {items : List SsiItem} (len : Nat)
    (hlen : (listPayload header version items timestamp).length ≤ 65535)
    (hnamed : ∀ i ∈ items, i.Named)
    (hnodup : ((buddies items).map fun i => imcommSimplifySn i.name).Nodup) :
    snacSsiGetList h (listPayload header version items timestamp) len =
      .ok { h with buddylist := (buddies items).map SsiItem.roster } := by
  have hfold : items.foldl SsiItem.load [] = (buddies items).map SsiItem.roster :=
    foldl_load_of_nodup hnamed hnodup
  rw [snacSsiGetList_load h hheader version len hlen fun i hi htype => (hnamed i hi htype).1,
    hempty, hfold]

end

end Bsflite
