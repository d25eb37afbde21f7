import Bsflite.Frame
import Bsflite.Handle

/-!
# Bsflite.Flap

The outgoing side of the library: `flap_send`, the batches of `flap.c`, and
`snac_send`, `snac_addToMulti` of `snac.c`.

A send with `updateidle` set ends an idle period: `imcomm_set_idle_time`
then sends another SNAC, so the three senders call one another.  The inner
send never carries `updateidle`, which is the measure below.

A `SnacCall` is what a caller gives to a sender; `sendBatch` is the shape
of every batch in the library: queue some calls, send the queue.
-/

namespace Bsflite

section
variable [Host]

/-! ## single sends -/

mutual
/-- `flap_send` -/
def flapSend (h : Imcomm) (channel : UInt8) (packet : List UInt8) (updateidle : Int) :
    Imcomm × ImcommRet :=
  let totallen := packet.length + 6
  let outpacket := pktAddAll (pktInit totallen)
    [.add8 0x2A, .add8 channel, .add16 h.seqnum, .add16 (uint16 packet.length), .addraw packet]
  let (link, written) := h.link.write outpacket.data
  let h := { h with link := link }
  if written < 0 then (h, .error)
  else
    let h := { h with seqnum := if h.seqnum < 0xFFFF then h.seqnum + 1 else 0 }
    if updateidle = 1 then
      if h.isidle then (imcommSetIdleTime h 0, .ok) else (h, .ok)
    else (h, .ok)
termination_by if updateidle = 1 then 3 else 0
decreasing_by all_goals (split <;> omega)

/-- `snac_send` -/
def snacSend (h : Imcomm) (family subtype : UInt16) (data : List UInt8) (len : UInt16)
    (updateidle : Int) : Imcomm × ImcommRet :=
  if h.srvPause then (h, .ok)
  else
    let snacPacket := pktAddAll (pktInit (len.toNat + 10))
      [.add16 family, .add16 subtype, .add16 0, .add32 h.snacreq, .addraw (data.take len.toNat)]
    let h := { h with snacreq := h.snacreq + 1 }
    flapSend h 0x02 snacPacket.data updateidle
termination_by if updateidle = 1 then 4 else 1
decreasing_by all_goals (split <;> omega)

/-- `imcomm_set_idle_time`: 600 seconds and less are not reported, except
the 0 that ends an idle period. -/
def imcommSetIdleTime (h : Imcomm) (idlesecs : UInt32) : Imcomm :=
  let packet := pktAddAll (pktInit 4) [.add32 idlesecs]
  if 600 < idlesecs then
    if h.isidle then h
    else (snacSend { h with isidle := true } 0x01 0x11 packet.data (uint16 packet.len) 0).1
  else if h.isidle ∧ idlesecs = 0 then
    (snacSend { h with isidle := false } 0x01 0x11 packet.data (uint16 packet.len) 0).1
  else h
termination_by 2
decreasing_by all_goals decide
end

/-- `flap_sendpkt` -/
def flapSendpkt (h : Imcomm) (channel : UInt8) (pkt : Pkt) (updateidle : Int) :
    Imcomm × ImcommRet :=
  flapSend h channel pkt.data updateidle

/-- `snac_sendpkt`: the family and the subtype are bytes here. -/
def snacSendpkt (h : Imcomm) (family subtype : UInt8) (pkt : Pkt) (updateidle : Int) :
    Imcomm × ImcommRet :=
  snacSend h family.toUInt16 subtype.toUInt16 pkt.data (uint16 pkt.len) updateidle

/-! ## batches -/

/-- `struct MultiPacket`, one queued frame. -/
structure MultiPacket where
  channel : UInt8
  packet : List UInt8
  updateidle : Int
deriving DecidableEq, Repr

/-- `MultiPktInit`: a list whose first node is still free. -/
def multiPktInit : List MultiPacket := []

/-- `flap_addToMulti` -/
def flapAddToMulti (mpkt : List MultiPacket) (channel : UInt8) (packet : List UInt8)
    (updateidle : Int) : List MultiPacket :=
  mpkt ++ [⟨channel, packet, updateidle⟩]

/-- `snac_addToMulti`: the request id is taken when the SNAC is queued. -/
def snacAddToMulti (h : Imcomm) (mpkt : List MultiPacket) (family subtype : UInt16)
    (data : List UInt8) (len : UInt16) (updateidle : Int) : Imcomm × List MultiPacket :=
  let snacPacket := pktAddAll (pktInit (len.toNat + 10))
    [.add16 family, .add16 subtype, .add16 0, .add32 h.snacreq, .addraw (data.take len.toNat)]
  ({ h with snacreq := h.snacreq + 1 }, flapAddToMulti mpkt 0x02 snacPacket.data updateidle)

/-- The second loop of `flap_sendMulti`: the sequence numbers are taken when
the batch is sent. -/
def flapSendMultiLoop (pktlist : List MultiPacket) (outpacket : Pkt) (seqnum : UInt16) :
    Pkt × UInt16 :=
  match pktlist with
  | [] => (outpacket, seqnum)
  | trav :: next =>
    let outpacket := pktAddAll outpacket
      [.add8 0x2A, .add8 trav.channel, .add16 seqnum, .add16 (uint16 trav.packet.length),
        .addraw trav.packet]
    flapSendMultiLoop next outpacket (if seqnum < 0xFFFF then seqnum + 1 else 0)

/-- `flap_sendMulti`, for a batch in which something was queued.  A write
over SSL fails with 0 as well. -/
def flapSendMulti (h : Imcomm) (pktlist : List MultiPacket) : Imcomm × ImcommRet :=
  let totallen := (pktlist.map fun trav => 6 + trav.packet.length).sum
  let updateidle : Int := if pktlist.any (fun trav => trav.updateidle = 1) then 1 else 0
  let (outpacket, seqnum) := flapSendMultiLoop pktlist (pktInit totallen) h.seqnum
  let h := { h with seqnum := seqnum }
  let (link, written) := h.link.write outpacket.data
  let h := { h with link := link }
  if (if h.useSsl then written ≤ 0 else written < 0) then (h, .error)
  else if updateidle = 1 then
    if h.isidle then (imcommSetIdleTime h 0, .ok) else (h, .ok)
  else (h, .ok)

/-! ## calls -/

/-- What a caller gives to a sender: a SNAC without its request id. -/
structure SnacBody where
  family : UInt16
  subtype : UInt16
  data : List UInt8
deriving DecidableEq, Repr

/-- A call of `snac_send` or `snac_addToMulti`. -/
structure SnacCall where
  body : SnacBody
  updateidle : Int
deriving DecidableEq, Repr

/-- `snac_addToMulti` for a list of calls. -/
def snacAddAllToMulti (h : Imcomm) (mpkt : List MultiPacket) (calls : List SnacCall) :
    Imcomm × List MultiPacket :=
  calls.foldl (fun s c => snacAddToMulti s.1 s.2 c.body.family c.body.subtype c.body.data
    (uint16 c.body.data.length) c.updateidle) (h, mpkt)

/-- A complete batch: `MultiPktInit`, the calls, `flap_sendMulti`. -/
def sendBatch (h : Imcomm) (calls : List SnacCall) : Imcomm × ImcommRet :=
  let (h, mpkt) := snacAddAllToMulti h multiPktInit calls
  flapSendMulti h mpkt

/-! ## what a send changes -/

omit [Host] in
/-- `h'` is `h` but for the transport, the counters and the idle flag. -/
def SendFrame (h h' : Imcomm) : Prop :=
  ∃ link seqnum snacreq isidle,
    h' = { h with link := link, seqnum := seqnum, snacreq := snacreq, isidle := isidle }

omit [Host] in
theorem SendFrame.trans {h h' h'' : Imcomm} (h1 : SendFrame h h') (h2 : SendFrame h' h'') :
    SendFrame h h'' := by
  obtain ⟨_, _, _, _, rfl⟩ := h1
  obtain ⟨link, seqnum, snacreq, isidle, rfl⟩ := h2
  exact ⟨link, seqnum, snacreq, isidle, rfl⟩

omit [Host] in
theorem SendFrame.ite {h : Imcomm} {p : Prop} [Decidable p] {a b : Imcomm × ImcommRet}
    (ha : SendFrame h a.1) (hb : SendFrame h b.1) : SendFrame h (if p then a else b).1 := by
  split
  · exact ha
  · exact hb

theorem flapSend_frame_plain (h : Imcomm) (channel : UInt8) (packet : List UInt8) :
    SendFrame h (flapSend h channel packet 0).1 := by
  rw [flapSend]
  apply SendFrame.ite
  · exact ⟨_, _, _, _, rfl⟩
  · rw [if_neg (by decide)]
    exact ⟨_, _, _, _, rfl⟩

theorem snacSend_frame_plain (h : Imcomm) (family subtype : UInt16) (data : List UInt8)
    (len : UInt16) : SendFrame h (snacSend h family subtype data len 0).1 := by
  rw [snacSend]
  split
  · exact ⟨_, _, _, _, rfl⟩
  · have hreq : SendFrame h { h with snacreq := h.snacreq + 1 } := ⟨_, _, _, _, rfl⟩
    exact hreq.trans (flapSend_frame_plain _ _ _)

theorem imcommSetIdleTime_frame (h : Imcomm) (idlesecs : UInt32) :
    SendFrame h (imcommSetIdleTime h idlesecs) := by
  have hidle (b : Bool) : SendFrame h { h with isidle := b } := ⟨_, _, _, _, rfl⟩
  rw [imcommSetIdleTime]
  split
  · split
    · exact hidle h.isidle
    · exact (hidle true).trans (snacSend_frame_plain _ _ _ _ _)
  · split
    · exact (hidle false).trans (snacSend_frame_plain _ _ _ _ _)
    · exact hidle h.isidle

/-- The end of both senders: the idle time is reset, or not. -/
theorem SendFrame.reset {h h' : Imcomm} (hs : SendFrame h h') (p : Prop) [Decidable p] :
    SendFrame h (if p then if h'.isidle then (imcommSetIdleTime h' 0, ImcommRet.ok) else (h', .ok)
      else (h', .ok)).1 := by
  apply SendFrame.ite
  · apply SendFrame.ite
    · exact hs.trans (imcommSetIdleTime_frame h' 0)
    · exact hs
  · exact hs

theorem flapSend_frame (h : Imcomm) (channel : UInt8) (packet : List UInt8) (updateidle : Int) :
    SendFrame h (flapSend h channel packet updateidle).1 := by
  rw [flapSend]
  apply SendFrame.ite
  · exact ⟨_, _, _, _, rfl⟩
  · exact SendFrame.reset ⟨_, _, _, _, rfl⟩ _

theorem snacSend_frame (h : Imcomm) (family subtype : UInt16) (data : List UInt8) (len : UInt16)
    (updateidle : Int) : SendFrame h (snacSend h family subtype data len updateidle).1 := by
  rw [snacSend]
  split
  · exact ⟨_, _, _, _, rfl⟩
  · exact SendFrame.trans ⟨_, _, _, _, rfl⟩ (flapSend_frame _ _ _ _)

theorem snacSendpkt_frame (h : Imcomm) (family subtype : UInt8) (pkt : Pkt) (updateidle : Int) :
    SendFrame h (snacSendpkt h family subtype pkt updateidle).1 :=
  snacSend_frame _ _ _ _ _ _

theorem flapSendMulti_frame (h : Imcomm) (pktlist : List MultiPacket) :
    SendFrame h (flapSendMulti h pktlist).1 := by
  rw [flapSendMulti]
  apply SendFrame.ite
  · exact ⟨_, _, _, _, rfl⟩
  · exact SendFrame.reset ⟨_, _, _, _, rfl⟩ _

theorem snacAddAllToMulti_frame (h : Imcomm) (mpkt : List MultiPacket) (calls : List SnacCall) :
    SendFrame h (snacAddAllToMulti h mpkt calls).1 := by
  induction calls generalizing h mpkt with
  | nil => exact ⟨_, _, _, _, rfl⟩
  | cons c calls ih => exact SendFrame.trans ⟨_, _, _, _, rfl⟩ (ih _ _)

theorem sendBatch_frame (h : Imcomm) (calls : List SnacCall) :
    SendFrame h (sendBatch h calls).1 :=
  (snacAddAllToMulti_frame h multiPktInit calls).trans (flapSendMulti_frame _ _)

end

end Bsflite
