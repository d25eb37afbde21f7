import Bsflite.Replies
import Bsflite.ServerList

/-!
# Bsflite.Loading

Loading the server's list at sign-on.  The server sends it in one or more
SNACs (13,06); `snac_decode` adds what each of them brings, and the first one
activates the session.

* `foldl_load_eq` — what the items leave is `firstOccurrences` of them.
* `snacDecode_list` — one SNAC.
* `list_loaded` — however the items are split into SNACs, their first
  occurrences are loaded, and the session is activated once.
-/

namespace Bsflite

/-! ## what is loaded -/

/-- The buddies among the items, each name the first time that it occurs. -/
def firstOccurrences (items : List SsiItem) : List SsiItem :=
  (items.filter fun i => i.type = 0x0000 ∧ i.name ≠ []).eraseDupsBy fun i j =>
    imcommCompareNicks i.name j.name

example : firstOccurrences [⟨ascii "Al", 1, 7, 0, []⟩, ⟨ascii "Friends", 1, 0, 1, []⟩,
    ⟨[], 1, 8, 0, []⟩, ⟨ascii "a L", 2, 9, 0, [1]⟩] = [⟨ascii "Al", 1, 7, 0, []⟩] := by decide

theorem firstOccurrences_cons {i : SsiItem} (htype : i.type = 0x0000) (hname : i.name ≠ [])
    (items : List SsiItem) :
    firstOccurrences (i :: items) =
      i :: firstOccurrences (items.filter fun j => imcommCompareNicks j.name i.name = false) := by
  rw [firstOccurrences, List.filter_cons_of_pos (by simp [htype, hname]), List.eraseDupsBy_cons,
    firstOccurrences, List.filter_filter, List.filter_filter]
  congr 2
  exact List.filter_congr fun j _ => Bool.and_comm _ _

theorem firstOccurrences_skip {i : SsiItem} (hskip : ¬ (i.type = 0x0000 ∧ i.name ≠ []))
    (items : List SsiItem) : firstOccurrences (i :: items) = firstOccurrences items := by
  rw [firstOccurrences, List.filter_cons_of_neg (by simpa using hskip), firstOccurrences]

/-- The items go to the end of a list, but for the names that it has. -/
theorem foldl_load_append (buddylist : List RosterBuddy) (items : List SsiItem) :
    items.foldl SsiItem.load buddylist =
      buddylist ++ (firstOccurrences (newTo buddylist items)).map SsiItem.roster := by
  induction items generalizing buddylist with
  | nil => exact (List.append_nil _).symm
  | cons i items ih =>
      rw [List.foldl_cons, ih, SsiItem.load]
      by_cases hload : i.type = 0x0000 ∧ i.name ≠ [] ∧
          imcommSimplifySn i.name ∉ buddylist.map RosterBuddy.sn
      · obtain ⟨htype, hname, hnew⟩ := hload
        have hkeep : newTo buddylist (i :: items) = i :: newTo buddylist items :=
          List.filter_cons_of_pos (by simpa using hnew)
        have hrest : newTo (buddylist ++ [i.roster]) items =
            (newTo buddylist items).filter fun j => imcommCompareNicks j.name i.name = false := by
          rw [newTo, newTo, List.filter_filter]
          refine List.filter_congr fun j _ => ?_
          rw [← Bool.decide_and, decide_eq_decide, List.map_append, List.mem_append, not_or,
            and_comm]
          simp [imcommCompareNicks, SsiItem.roster]
        rw [if_pos ⟨htype, hname, hnew⟩, hkeep, firstOccurrences_cons htype hname, hrest,
          List.append_assoc]
        rfl
      · rw [if_neg hload]
        by_cases hnew : imcommSimplifySn i.name ∉ buddylist.map RosterBuddy.sn
        · have hkeep : newTo buddylist (i :: items) = i :: newTo buddylist items :=
            List.filter_cons_of_pos (by simpa using hnew)
          have hskip : ¬ (i.type = 0x0000 ∧ i.name ≠ []) := fun h => hload ⟨h.1, h.2, hnew⟩
          rw [hkeep, firstOccurrences_skip hskip]
        · have hdrop : newTo buddylist (i :: items) = newTo buddylist items :=
            List.filter_cons_of_neg (by simpa using hnew)
          rw [hdrop]

/-- What the items leave in an empty list. -/
theorem foldl_load_eq (items : List SsiItem) :
    items.foldl SsiItem.load [] = (firstOccurrences items).map SsiItem.roster := by
  have hall : newTo [] items = items := List.filter_eq_self.mpr (by simp)
  rw [foldl_load_append, hall, List.nil_append]

/-! ## one SNAC -/

/-- A payload of (13,06): names without a NUL, in a frame. -/
structure SsiPayload where
  flags : UInt16
  reqid : UInt32
  version : UInt8
  items : List SsiItem
  timestamp : List UInt8
  no_nul : ∀ i ∈ items, 0 ∉ i.name
  fits : (listPayload (be16 0x13 ++ be16 0x06 ++ be16 flags ++ be32 reqid) version items
    timestamp).length ≤ 65535

def SsiPayload.bytes (p : SsiPayload) : List UInt8 :=
  listPayload (be16 0x13 ++ be16 0x06 ++ be16 p.flags ++ be32 p.reqid) p.version p.items p.timestamp

section
variable [Host] [Network] {σ : Type}

/-- The world with another list in the handle. -/
def World.withList (w : World σ) (buddylist : List RosterBuddy) : World σ :=
  { w with handle := { w.handle with buddylist := buddylist } }

/-- The world with a list in the handle, which is connected. -/
def World.connect (w : World σ) (buddylist : List RosterBuddy) : World σ :=
  { w with handle := { w.handle with buddylist := buddylist, connected := true } }

/-- **One SNAC** is loaded, and activates the session if it is the first. -/
theorem snacDecode_list (cbs : Callbacks σ) {w : World σ} (hchild : w.handle.ischild = false)
    (p : SsiPayload) :
    snacDecode cbs w p.bytes (uint16 p.bytes.length) =
      .ok (snacSsiActivate cbs (w.withList (p.items.foldl SsiItem.load w.handle.buddylist))) := by
  have hlen : (uint16 p.bytes.length).toNat = p.bytes.length :=
    toNat_uint16_of_lt (Nat.lt_succ_of_le p.fits)
  have hload : snacSsiGetList w.handle p.bytes p.bytes.length = .ok _ :=
    snacSsiGetList_load w.handle rfl p.version p.bytes.length p.fits fun i hi _ => p.no_nul i hi
  obtain ⟨rest, hrest⟩ : ∃ rest, p.bytes = be16 0x13 ++ (be16 0x06 ++ (be16 p.flags ++ rest)) :=
    ⟨be32 p.reqid ++ ([p.version] ++ (be16 (uint16 p.items.length) ++
      (p.items.flatMap SsiItem.bytes ++ p.timestamp))),
      by simp only [SsiPayload.bytes, listPayload, List.append_assoc]⟩
  have hlong : ¬ uint16 p.bytes.length ≤ 4 := by
    rw [UInt16.le_iff_toNat_le, hlen, hrest, List.length_append, List.length_append,
      List.length_append, length_be16, length_be16, length_be16, Nat.not_le]
    show 4 < 2 + (2 + (2 + rest.length))
    omega
  have hfamily : twoTo16 p.bytes = .ok 0x13 := by rw [hrest, twoTo16_be16_append]
  have hsubfamily : twoTo16 (p.bytes.drop 2) = .ok 0x06 := by
    rw [hrest, List.drop_left' (length_be16 _), twoTo16_be16_append]
  have hflags : twoTo16 (p.bytes.drop 4) = .ok p.flags := by
    have hdrop : p.bytes.drop 4 = be16 p.flags ++ rest := by rw [hrest]; rfl
    rw [hdrop, twoTo16_be16_append]
  rw [snacDecode, if_neg hlong, hfamily, ok_bind, hsubfamily, ok_bind, hflags, ok_bind,
    if_neg (by simp [hchild])]
  simp only [hlen, hload, ok_bind]
  rfl

/-! ## all of them -/

/-- The payloads, one after the other. -/
def loadPayloads (cbs : Callbacks σ) (w : World σ) (payloads : List SsiPayload) :
    Except Fault (World σ) :=
  payloads.foldlM (fun w p => do
    let (w, _) ← snacDecode cbs w p.bytes (uint16 p.bytes.length)
    return w) w

/-- The `IMCOMM_ERROR` callback leaves the list alone; nor can it reach the
two flags of the handle, which only a new connection and a lost one set. -/
def Callbacks.LeavesList (cbs : Callbacks σ) : Prop :=
  ∀ (w : World σ) (event : ErrorEvent) (data : Option UInt8),
    let w' := cbs.call (.error event data) w
    w'.handle.buddylist = w.handle.buddylist ∧ w'.handle.connected = w.handle.connected ∧
      w'.handle.ischild = w.handle.ischild

variable {cbs : Callbacks σ} {w : World σ}

/-- A handle that is connected only loads. -/
theorem loadPayloads_connected (cbs : Callbacks σ) (hconn : w.handle.connected = true)
    (hchild : w.handle.ischild = false) (payloads : List SsiPayload) :
    loadPayloads cbs w payloads =
      .ok (w.withList
        ((payloads.flatMap SsiPayload.items).foldl SsiItem.load w.handle.buddylist)) := by
  induction payloads generalizing w with
  | nil => rfl
  | cons p payloads ih =>
      have hactivate : snacSsiActivate cbs
          (w.withList (p.items.foldl SsiItem.load w.handle.buddylist)) = (_, .ok) := if_pos hconn
      have hrest :=
        ih (w := w.withList (p.items.foldl SsiItem.load w.handle.buddylist)) hconn hchild
      rw [loadPayloads, List.foldlM_cons, snacDecode_list cbs hchild, hactivate, List.flatMap_cons,
        List.foldl_append]
      exact hrest

omit [Network] in
/-- The activation leaves the list alone. -/
theorem multiSsiactCliready_fields (hcbs : cbs.LeavesList) (w : World σ) :
    (multiSsiactCliready cbs w).1.handle.buddylist = w.handle.buddylist ∧
      (multiSsiactCliready cbs w).1.handle.connected = w.handle.connected ∧
        (multiSsiactCliready cbs w).1.handle.ischild = w.handle.ischild := by
  obtain ⟨link, seqnum, snacreq, isidle, hsent⟩ := sendBatch_frame w.handle
    [⟨⟨0x01, 0x1e, (pktAddAll (pktInit 12) [.add16 0x001d, .add16 0x0008, .add32 0x00020404,
      .add32 0x00000000]).data⟩, 0⟩, ⟨⟨0x01, 0x02, cliReadyPacket⟩, 0⟩, ⟨⟨0x13, 0x07, []⟩, 0⟩]
  rw [multiSsiactCliready]
  simp only [hsent, World.fire]
  split
  · exact hcbs _ _ _
  · exact ⟨rfl, rfl, rfl⟩

omit [Network] in
/-- The activation puts its batch on the wire and tells the client. -/
theorem multiSsiactCliready_sent (cbs : Callbacks σ) {w : World σ} (hf : w.handle.Flowing) :
    ∃ h', Sent w.handle readyBodies w.handle.isidle h' ∧ (multiSsiactCliready cbs w).1 =
      World.fire { w with handle := h' } cbs (.error .statusConnected none) :=
  ⟨_, ready_sent w.handle hf, rfl⟩

/-- **Loading the list**: however its items are split into payloads, the
handle has the first occurrence of each buddy, and all else is as the one
activation leaves it that follows the first payload: its batch is on the
wire, once. -/
theorem list_loaded (hcbs : cbs.LeavesList) (hlist : w.handle.buddylist = [])
    (hconn : w.handle.connected = false) (hchild : w.handle.ischild = false)
    (payloads : List SsiPayload) :
    ∃ w', loadPayloads cbs w payloads = .ok w' ∧
      w'.handle.buddylist =
        (firstOccurrences (payloads.flatMap SsiPayload.items)).map SsiItem.roster ∧
      ∀ p rest, payloads = p :: rest →
        w' = (multiSsiactCliready cbs (w.connect
          ((firstOccurrences p.items).map SsiItem.roster))).1.withList w'.handle.buddylist ∧
        (w.handle.Flowing → ∃ h',
          Sent (w.connect ((firstOccurrences p.items).map SsiItem.roster)).handle readyBodies
            w.handle.isidle h' ∧
          w' = (World.fire { w with handle := h' } cbs
            (.error .statusConnected none)).withList w'.handle.buddylist) := by
  cases payloads with
  | nil => exact ⟨w, rfl, hlist, nofun⟩
  | cons p payloads =>
      have hfirst : p.items.foldl SsiItem.load w.handle.buddylist =
          (firstOccurrences p.items).map SsiItem.roster := by
        rw [hlist, foldl_load_eq]
      have hactivate :
          snacSsiActivate cbs (w.withList ((firstOccurrences p.items).map SsiItem.roster)) =
            multiSsiactCliready cbs (w.connect ((firstOccurrences p.items).map SsiItem.roster)) :=
        if_neg (by simp [World.withList, hconn])
      obtain ⟨hlist₁, hconn₁, hchild₁⟩ := multiSsiactCliready_fields hcbs
        (w.connect ((firstOccurrences p.items).map SsiItem.roster))
      have hlist₁' := hlist₁.trans (foldl_load_eq p.items).symm
      have hrest := loadPayloads_connected cbs hconn₁ (hchild₁.trans hchild) payloads
      rw [hlist₁', ← List.foldl_append, ← List.flatMap_cons, foldl_load_eq] at hrest
      have hrun : loadPayloads cbs w (p :: payloads) = .ok ((multiSsiactCliready cbs
          (w.connect ((firstOccurrences p.items).map SsiItem.roster))).1.withList
            ((firstOccurrences ((p :: payloads).flatMap SsiPayload.items)).map
              SsiItem.roster)) := by
        rw [loadPayloads, List.foldlM_cons, snacDecode_list cbs hchild, hfirst, hactivate]
        exact hrest
      refine ⟨_, hrun, rfl, ?_⟩
      rintro p' rest ⟨⟩
      refine ⟨rfl, fun hf => ?_⟩
      obtain ⟨h', hsent, hfire⟩ := multiSsiactCliready_sent cbs
        (w := w.connect ((firstOccurrences p.items).map SsiItem.roster))
        ⟨hf.accepting, hf.srvPause⟩
      refine ⟨h', hsent, ?_⟩
      rw [hfire]
      rfl

end

/-- A group and "Al", then "a L" again, an item without a name and "Bob", before
a client that writes down its calls. -/
theorem list_loaded_al :
    ∃ w', @loadPayloads littleEndianHost refusingNetwork _ recorder
        ⟨imcommCreateHandle zeroBlock, [], []⟩
        [⟨0, 0, 0, [⟨ascii "Friends", 1, 0, 1, []⟩, ⟨ascii "Al", 1, 7, 0, [1, 2]⟩], [],
            by decide, by decide⟩,
          ⟨0, 1, 0, [⟨ascii "a L", 2, 9, 0, []⟩, ⟨[], 1, 4, 0, []⟩, ⟨ascii "Bob", 1, 8, 0, []⟩], [],
            by decide, by decide⟩] = .ok w' ∧
      w'.handle.buddylist = [⟨ascii "al", ascii "Al", 7, 1⟩, ⟨ascii "bob", ascii "Bob", 8, 1⟩] ∧
      w'.handle.link.wire = numberBytes 0x1000 0 readyBodies ∧
      w'.client = [.error .statusConnected none] := by
  obtain ⟨w', hload, hlist, hrest⟩ := @list_loaded littleEndianHost refusingNetwork _ recorder
    ⟨imcommCreateHandle zeroBlock, [], []⟩ (fun _ _ _ => ⟨rfl, rfl, rfl⟩) rfl rfl rfl
    [⟨0, 0, 0, [⟨ascii "Friends", 1, 0, 1, []⟩, ⟨ascii "Al", 1, 7, 0, [1, 2]⟩], [],
        by decide, by decide⟩,
      ⟨0, 1, 0, [⟨ascii "a L", 2, 9, 0, []⟩, ⟨[], 1, 4, 0, []⟩, ⟨ascii "Bob", 1, 8, 0, []⟩], [],
        by decide, by decide⟩]
  obtain ⟨-, hbatch⟩ := hrest _ _ rfl
  obtain ⟨h', ⟨writes, hsent⟩, hw'⟩ := hbatch ⟨fun _ _ => rfl, rfl⟩
  refine ⟨w', hload, hlist.trans (by decide), ?_, ?_⟩
  · rw [hw', hsent]
    rfl
  · rw [hw']
    rfl

end Bsflite
