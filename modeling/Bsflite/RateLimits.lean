import Bsflite.Inbound
import Bsflite.Outgoing

/-!
# Bsflite.RateLimits

The answer to the server's rate classes: `snac_ack_limits` takes the id out of
every class, at a cursor of 16 bits, and sends the ids back.

* `ackLimitsLoop_cursor`, `toNat_ackCursor` — where the ids are read.
* `ackLimitsLoop_classes` — they are those of the classes.
* `snacMultireq_sent` — the batch of requests behind the answer.
* `ack_limits` — what is sent for a response that fits into a frame.
-/

namespace Bsflite

/-! ## rate responses -/

/-- A rate class: its id, and its limits and its state. -/
structure RateClass where
  id : UInt16
  limits : { l : List UInt8 // l.length = 33 }
deriving DecidableEq

/-- The bytes of a class. -/
def RateClass.bytes (c : RateClass) : List UInt8 := be16 c.id ++ c.limits.val

@[simp] theorem RateClass.length_bytes (c : RateClass) : c.bytes.length = 35 := by
  rw [bytes, List.length_append, length_be16, c.limits.property]

/-- The data of SNAC (01,07): the number of classes, the classes, and
whatever follows. -/
def rateResponse (classes : List RateClass) (trailing : List UInt8) : List UInt8 :=
  be16 (uint16 classes.length) ++ (classes.flatMap RateClass.bytes ++ trailing)

/-- SNAC (01,08): the ids. -/
def rateAck (classes : List RateClass) : SnacBody :=
  ⟨0x01, 0x08, classes.flatMap fun c => be16 c.id⟩

theorem length_classes (classes : List RateClass) :
    (classes.flatMap RateClass.bytes).length = 35 * classes.length := by
  induction classes with
  | nil => rfl
  | cons c classes ih => simp [ih]; omega

theorem length_rateResponse (classes : List RateClass) (trailing : List UInt8) :
    (rateResponse classes trailing).length = 2 + 35 * classes.length + trailing.length := by
  rw [rateResponse, List.length_append, List.length_append, length_be16, length_classes]
  omega

theorem length_rateAck (classes : List RateClass) :
    (rateAck classes).data.length = classes.length * 2 := by
  induction classes with
  | nil => rfl
  | cons c classes ih =>
      rw [rateAck] at ih ⊢
      simp [ih]
      omega

/-- A class stands behind the ones in front of it. -/
theorem drop_classes (classes : List RateClass) (y : Nat) :
    (classes.flatMap RateClass.bytes).drop (35 * y) =
      (classes.drop y).flatMap RateClass.bytes := by
  induction classes generalizing y with
  | nil => simp
  | cons c classes ih =>
      cases y with
      | zero => rfl
      | succ y =>
          rw [List.flatMap_cons, List.drop_succ_cons, ← ih y, Nat.mul_succ, Nat.add_comm,
            ← List.drop_drop, drop_append_of_length c.length_bytes]

/-- The bytes of a class in the response. -/
theorem drop_rateResponse (classes : List RateClass) (trailing : List UInt8) {y : Nat}
    (hy : y < classes.length) :
    ∃ rest, (rateResponse classes trailing).drop (2 + 35 * y) = classes[y].bytes ++ rest := by
  refine ⟨(classes.drop (y + 1)).flatMap RateClass.bytes ++ trailing, ?_⟩
  have hlen := length_classes classes
  rw [rateResponse, ← List.drop_drop, drop_append_of_length (length_be16 _),
    List.drop_append_of_le_length (by omega), drop_classes, List.drop_eq_getElem_cons hy,
    List.flatMap_cons, List.append_assoc]

/-! ## the ids are read -/

/-- The cursor `x` of the first loop, at each turn. -/
def ackCursor : Nat → UInt16
  | 0 => 2
  | y + 1 => ackCursor y + 35

/-- It does not wrap as long as it stays in a frame. -/
theorem toNat_ackCursor {y : Nat} (h : 2 + 35 * y ≤ 65535) : (ackCursor y).toNat = 2 + 35 * y := by
  induction y with
  | zero => rfl
  | succ y ih =>
      have hstep : (35 : UInt16).toNat = 35 := rfl
      rw [ackCursor, UInt16.toNat_add, ih (by omega), hstep]
      omega

section
variable [Host]

/-- The loop reads a word at each place of its cursor. -/
theorem ackLimitsLoop_cursor (data : List UInt8) (n y : Nat) :
    ackLimitsLoop data n (ackCursor y) =
      (List.range' y n).mapM fun y => twoTo16 (data.drop (ackCursor y).toNat) := by
  induction n generalizing y with
  | zero => rfl
  | succ n ih =>
      rw [ackLimitsLoop, List.range'_succ, List.mapM_cons, ← ih (y + 1)]
      rfl

/-- The id at the front of a class. -/
theorem twoTo16_class (c : RateClass) (rest : List UInt8) :
    twoTo16 (c.bytes ++ rest) = .ok c.id := by
  rw [RateClass.bytes, List.append_assoc, twoTo16_be16_append]

/-- The loop in front of classes reads their ids. -/
theorem ackLimitsLoop_classes (pre : List UInt8) (classes : List RateClass)
    (trailing : List UInt8) (x : UInt16) (hx : x.toNat = pre.length)
    (hlen : pre.length + 35 * classes.length ≤ 65535) :
    ackLimitsLoop (pre ++ (classes.flatMap RateClass.bytes ++ trailing)) classes.length x =
      .ok (classes.map RateClass.id) := by
  induction classes generalizing pre x with
  | nil => rfl
  | cons c classes ih =>
      rw [List.length_cons] at hlen
      have hx' : (x + 35).toNat = (pre ++ c.bytes).length := by
        have hstep : (35 : UInt16).toNat = 35 := rfl
        rw [UInt16.toNat_add, hx, hstep, List.length_append, c.length_bytes]
        omega
      have hrec := ih (pre ++ c.bytes) (x + 35) hx'
        (by rw [List.length_append, c.length_bytes]; omega)
      rw [List.append_assoc] at hrec
      rw [List.length_cons, ackLimitsLoop, List.flatMap_cons, List.append_assoc,
        drop_append_of_length hx.symm, twoTo16_class, ok_bind, hrec]
      rfl

/-! ## the answer is sent -/

/-- What follows a send: the requests, if it was successful. -/
def thenMultireq (sent : Imcomm × ImcommRet) : Imcomm × ImcommRet :=
  if sent.2 = .ok then snacMultireq sent.1 else (sent.1, .error)

omit [Host] in
/-- The requests of `snac_multireq`. -/
def multireqBodies : List SnacBody :=
  [⟨0x01, 0x0e, []⟩, ⟨0x13, 0x02, []⟩, ⟨0x13, 0x04, []⟩, ⟨0x02, 0x02, []⟩, ⟨0x03, 0x02, []⟩,
    ⟨0x04, 0x04, []⟩, ⟨0x09, 0x02, []⟩]

/-- They go out as one batch. -/
theorem snacMultireq_sent (h : Imcomm) (ha : h.link.Accepting) (hp : h.srvPause = false) :
    (snacMultireq h).2 = .ok ∧ Sent h multireqBodies h.isidle (snacMultireq h).1 := by
  refine ⟨rfl, ?_⟩
  have hsent := (sendBatch_sent h
    [⟨⟨0x01, 0x0e, []⟩, 0⟩, ⟨⟨0x13, 0x02, []⟩, 0⟩, ⟨⟨0x13, 0x04, []⟩, 0⟩, ⟨⟨0x02, 0x02, []⟩, 0⟩,
      ⟨⟨0x03, 0x02, []⟩, 0⟩, ⟨⟨0x04, 0x04, []⟩, 0⟩, ⟨⟨0x09, 0x02, []⟩, 0⟩] ha hp
    (List.cons_ne_nil _ _) (by decide)).2
  simpa [multireqBodies, snacMultireq] using hsent

/-- The packet of the answer. -/
theorem rateAck_packet (classes : List RateClass) :
    pktAddAll (pktInit (classes.length * 2)) ((classes.map RateClass.id).map PktAdd.add16) =
      ⟨(rateAck classes).data, classes.length * 2, classes.length * 2⟩ := by
  have hbytes : fieldBytes ((classes.map RateClass.id).map PktAdd.add16) =
      (rateAck classes).data := by
    rw [rateAck, fieldBytes, List.map_map, List.map_map]
    rfl
  rw [pktAddAll_eq _ (by rw [hbytes, length_rateAck]), hbytes]

/-- `snac_ack_limits` sends the answer, and then the requests. -/
theorem snacAckLimits_eq (h : Imcomm) (classes : List RateClass) (trailing : List UInt8) (len : Nat)
    (hfit : 10 + (rateResponse classes trailing).length ≤ 65535) :
    snacAckLimits h (rateResponse classes trailing) len =
      .ok (thenMultireq (snacSend h 0x01 0x08 (rateAck classes).data
        (uint16 (rateAck classes).data.length) 0)) := by
  rw [length_rateResponse] at hfit
  have hcount : (uint16 classes.length).toNat = classes.length := toNat_uint16_of_lt (by omega)
  have hids : ackLimitsLoop (rateResponse classes trailing) classes.length 2 =
      .ok (classes.map RateClass.id) :=
    ackLimitsLoop_classes _ classes trailing 2 rfl (by rw [length_be16]; omega)
  rw [snacAckLimits, rateResponse, twoTo16_be16_append, ok_bind, hcount, ← rateResponse, hids,
    ok_bind, rateAck_packet, thenMultireq, length_rateAck]
  have hfamily : snacSendpkt h 0x01 0x08
      ⟨(rateAck classes).data, classes.length * 2, classes.length * 2⟩ 0 =
    snacSend h 0x01 0x08 (rateAck classes).data (uint16 (classes.length * 2 : Nat)) 0 := rfl
  simp only [hfamily]
  generalize
    snacSend h 0x01 0x08 (rateAck classes).data (uint16 (classes.length * 2 : Nat)) 0 = sent
  obtain ⟨h', ret⟩ := sent
  cases ret <;> rfl

/-- `snac_send` of data that fits into a frame, over any transport: one write
of its frame, and what becomes of the counters. -/
theorem snacSend_write (h : Imcomm) (b : SnacBody) (hp : h.srvPause = false)
    (hlen : b.data.length ≤ 65525) :
    snacSend h b.family b.subtype b.data (uint16 b.data.length) 0 =
      if (h.link.write (numberBytes h.seqnum h.snacreq [b])).2 < 0 then
        ({ h with link := (h.link.write (numberBytes h.seqnum h.snacreq [b])).1
                  snacreq := h.snacreq + 1 }, .error)
      else
        ({ h with link := (h.link.write (numberBytes h.seqnum h.snacreq [b])).1
                  seqnum := h.seqnum + 1
                  snacreq := h.snacreq + 1 }, .ok) := by
  rw [snacSend, if_neg (by simp [hp])]
  simp only [snacPacket_data _ _ _ _ hlen]
  rw [flapSend]
  simp only [flapPacket_data, numberBytes_cons, numberBytes_nil, List.append_nil, next_seqnum]
  rfl

/-- **Rate classes**: for a response that fits into a frame the loop reads, at
a cursor that does not wrap, the id of each class in its own 35 bytes; what is
sent is one SNAC (01,08) with the ids in order, and when that send succeeds
the requests of `snac_multireq`. -/
theorem ack_limits (classes : List RateClass) (trailing : List UInt8)
    (hfit : 10 + (rateResponse classes trailing).length ≤ 65535) :
    (ackLimitsLoop (rateResponse classes trailing) classes.length 2 =
        (List.range classes.length).mapM fun y =>
          twoTo16 ((rateResponse classes trailing).drop (ackCursor y).toNat)) ∧
    (∀ (y : Nat) (hy : y < classes.length), (ackCursor y).toNat = 2 + 35 * y ∧
      ((rateResponse classes trailing).drop (ackCursor y).toNat).take 35 = classes[y].bytes ∧
      twoTo16 ((rateResponse classes trailing).drop (ackCursor y).toNat) = .ok classes[y].id) ∧
    (∀ (h : Imcomm) (len : Nat), snacAckLimits h (rateResponse classes trailing) len =
      .ok (thenMultireq (snacSend h 0x01 0x08 (rateAck classes).data
        (uint16 (rateAck classes).data.length) 0))) ∧
    (∀ (h : Imcomm) (len : Nat), h.srvPause = false →
      (h.link.write (numberBytes h.seqnum h.snacreq [rateAck classes])).2 < 0 →
      snacAckLimits h (rateResponse classes trailing) len =
        .ok ({ h with link := (h.link.write (numberBytes h.seqnum h.snacreq [rateAck classes])).1
                      snacreq := h.snacreq + 1 }, .error)) ∧
    ∀ (h : Imcomm) (len : Nat), h.srvPause = false → h.link.Accepting →
      ∃ h', snacAckLimits h (rateResponse classes trailing) len = .ok (h', .ok) ∧
        Sent h (rateAck classes :: multireqBodies) h.isidle h' := by
  have hlen := length_rateResponse classes trailing
  have hbody := length_rateAck classes
  have hshort : (rateAck classes).data.length ≤ 65525 := by omega
  refine ⟨?_, fun y hy => ?_, fun h len => snacAckLimits_eq h classes trailing len hfit,
    fun h len hp hfails => ?_, fun h len hp ha => ?_⟩
  · rw [List.range_eq_range']
    exact ackLimitsLoop_cursor _ _ 0
  · have hcursor := toNat_ackCursor (y := y) (by omega)
    obtain ⟨rest, hdrop⟩ := drop_rateResponse classes trailing hy
    refine ⟨hcursor, ?_, ?_⟩
    · rw [hcursor, hdrop, take_append_of_length (RateClass.length_bytes _)]
    · rw [hcursor, hdrop, twoTo16_class]
  · rw [snacAckLimits_eq h classes trailing len hfit]
    have hsend : snacSend h 0x01 0x08 (rateAck classes).data _ 0 = _ :=
      (snacSend_write h (rateAck classes) hp hshort).trans (if_pos hfails)
    rw [hsend]
    rfl
  · have hplain : snacSend h 0x01 0x08 (rateAck classes).data _ 0 = _ :=
      snacSend_plain h (rateAck classes) ha hp hshort
    have hack := wrote_sent h [rateAck classes]
    obtain ⟨hok, hbatch⟩ := snacMultireq_sent (wrote h [rateAck classes]) (hack.accepting ha)
      (hack.srvPause.trans hp)
    refine ⟨(snacMultireq (wrote h [rateAck classes])).1, ?_, hack.trans hbatch⟩
    rw [snacAckLimits_eq h classes trailing len hfit, hplain]
    rfl

end

/-- Two classes, and a byte behind them. -/
def twoClasses : List RateClass :=
  [⟨1, List.replicate 33 0, by decide⟩, ⟨2, List.replicate 33 7, by decide⟩]

/-- A fresh handle acknowledges them. -/
theorem ack_limits_two :
    (∃ h', @snacAckLimits littleEndianHost (imcommCreateHandle zeroBlock)
        (rateResponse twoClasses [9]) 73 = .ok (h', .ok) ∧
      Sent (imcommCreateHandle zeroBlock) (⟨0x01, 0x08, [0, 1, 0, 2]⟩ :: multireqBodies) false h') ∧
      @twoTo16 littleEndianHost ((rateResponse twoClasses [9]).drop 37) = .ok 2 := by
  obtain ⟨-, hread, -, -, hsent⟩ := @ack_limits littleEndianHost twoClasses [9] (by decide)
  exact ⟨hsent (imcommCreateHandle zeroBlock) 73 rfl fun _ _ => rfl, (hread 1 (by decide)).2.2⟩

end Bsflite
