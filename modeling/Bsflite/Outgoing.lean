import Bsflite.Flap

/-!
# Bsflite.Outgoing

What the senders put on the wire.  `Sent h out idle h'` says that `h'` is
`h` after the SNACs `out` went out in order: one frame each on channel 2,
numbered on from the two counters of `h`, and nothing else changed but the
idle flag.

* `Sent.trans` — two runs of sends are one run.
* `snacSend_sent`, `sendBatch_sent` — a single send and a batch, with
  the un-idle SNAC that a send with `updateidle` may add.
* `outgoing_framing` — any mix of both, read back by a receiver.
-/

namespace Bsflite

/-! ## numbered SNACs -/

/-- The SNACs `out`, numbered on from a sequence number and a request id. -/
def number (seqnum : UInt16) (reqid : UInt32) : List SnacBody → List Received
  | [] => []
  | b :: out =>
    ⟨0x02, seqnum, ⟨b.family, b.subtype, 0, reqid, b.data⟩⟩ :: number (seqnum + 1) (reqid + 1) out

/-- The bytes of numbered SNACs. -/
def numberBytes (seqnum : UInt16) (reqid : UInt32) (out : List SnacBody) : List UInt8 :=
  ((number seqnum reqid out).map Received.bytes).flatten

@[simp] theorem numberBytes_nil (seqnum : UInt16) (reqid : UInt32) :
    numberBytes seqnum reqid [] = [] := rfl

theorem numberBytes_cons (seqnum : UInt16) (reqid : UInt32) (b : SnacBody) (out : List SnacBody) :
    numberBytes seqnum reqid (b :: out) =
      Received.bytes ⟨0x02, seqnum, ⟨b.family, b.subtype, 0, reqid, b.data⟩⟩ ++
        numberBytes (seqnum + 1) (reqid + 1) out := rfl

theorem number_append (seqnum : UInt16) (reqid : UInt32) (out out' : List SnacBody) :
    number seqnum reqid (out ++ out') = number seqnum reqid out ++
      number (seqnum + UInt16.ofNat out.length) (reqid + UInt32.ofNat out.length) out' := by
  induction out generalizing seqnum reqid with
  | nil => simp [number]
  | cons b out ih =>
      rw [List.cons_append, number, number, ih, List.cons_append, List.length_cons]
      have hs : seqnum + 1 + UInt16.ofNat out.length = seqnum + UInt16.ofNat (out.length + 1) := by
        rw [UInt16.ofNat_add, UInt16.add_assoc, UInt16.add_comm 1]
        rfl
      have hr : reqid + 1 + UInt32.ofNat out.length = reqid + UInt32.ofNat (out.length + 1) := by
        rw [UInt32.ofNat_add, UInt32.add_assoc, UInt32.add_comm 1]
        rfl
      rw [hs, hr]

theorem numberBytes_append (seqnum : UInt16) (reqid : UInt32) (out out' : List SnacBody) :
    numberBytes seqnum reqid (out ++ out') = numberBytes seqnum reqid out ++
      numberBytes (seqnum + UInt16.ofNat out.length) (reqid + UInt32.ofNat out.length) out' := by
  rw [numberBytes, number_append, List.map_append, List.flatten_append]
  rfl

theorem data_mem_number {seqnum : UInt16} {reqid : UInt32} {out : List SnacBody} {n : Nat}
    (h : ∀ b ∈ out, b.data.length ≤ n) :
    ∀ r ∈ number seqnum reqid out, r.snac.data.length ≤ n := by
  induction out generalizing seqnum reqid with
  | nil => simp [number]
  | cons b out ih =>
      intro r hr
      rw [number] at hr
      rcases List.mem_cons.mp hr with rfl | hr
      · exact h b List.mem_cons_self
      · exact ih (fun c hc => h c (List.mem_cons_of_mem b hc)) r hr

/-- A receiver reads numbered SNACs back. -/
theorem receive_numberBytes (seqnum : UInt16) (reqid : UInt32) (out : List SnacBody)
    (h : ∀ b ∈ out, b.data.length ≤ 65525) :
    receive (numberBytes seqnum reqid out) = some (number seqnum reqid out) :=
  receive_flatten _ (data_mem_number h)

/-! ## runs of sends -/

/-- Every write takes the whole buffer. -/
def Link.Accepting (l : Link) : Prop := ∀ n k, l.result n k = k

/-- `h'` is `h` after the SNACs `out` went out. -/
def Sent (h : Imcomm) (out : List SnacBody) (idle : Bool) (h' : Imcomm) : Prop :=
  ∃ writes, h' = { h with
    link := { h.link with writes := writes
                          wire := h.link.wire ++ numberBytes h.seqnum h.snacreq out }
    seqnum := h.seqnum + UInt16.ofNat out.length
    snacreq := h.snacreq + UInt32.ofNat out.length
    isidle := idle }

theorem Sent.refl (h : Imcomm) : Sent h [] h.isidle h :=
  ⟨h.link.writes, by simp⟩

/-- Two runs of sends are one. -/
theorem Sent.trans {h h' h'' : Imcomm} {out out' : List SnacBody} {idle idle' : Bool}
    (h1 : Sent h out idle h') (h2 : Sent h' out' idle' h'') :
    Sent h (out ++ out') idle' h'' := by
  obtain ⟨w1, rfl⟩ := h1
  obtain ⟨w2, rfl⟩ := h2
  refine ⟨w2, ?_⟩
  simp only [numberBytes_append, List.append_assoc, List.length_append, UInt16.ofNat_add,
    UInt32.ofNat_add, UInt16.add_assoc, UInt32.add_assoc]

theorem Sent.accepting {h h' : Imcomm} {out : List SnacBody} {idle : Bool}
    (hs : Sent h out idle h') (ha : h.link.Accepting) : h'.link.Accepting := by
  obtain ⟨w, rfl⟩ := hs
  exact ha

theorem Sent.srvPause {h h' : Imcomm} {out : List SnacBody} {idle : Bool}
    (hs : Sent h out idle h') : h'.srvPause = h.srvPause := by
  obtain ⟨w, rfl⟩ := hs
  rfl

theorem Sent.isidle {h h' : Imcomm} {out : List SnacBody} {idle : Bool}
    (hs : Sent h out idle h') : h'.isidle = idle := by
  obtain ⟨w, rfl⟩ := hs
  rfl

/-- The explicit branch of the senders is addition modulo 2^16. -/
theorem next_seqnum (s : UInt16) : (if s < 0xFFFF then s + 1 else 0) = s + 1 := by
  split
  · rfl
  · next h =>
    have hs : s = 0xFFFF := by
      have h1 := s.toNat_lt
      have h2 : ¬ s.toNat < 65535 := fun hlt => h (UInt16.lt_iff_toNat_lt.mpr hlt)
      apply UInt16.toNat_inj.mp
      show s.toNat = 65535
      omega
    subst hs
    rfl

/-- A write of a whole buffer by an accepting transport. -/
theorem Link.write_accepting {l : Link} (ha : l.Accepting) (buf : List UInt8) :
    l.write buf =
      ({ l with writes := l.writes + 1, wire := l.wire ++ buf }, (buf.length : Int)) := by
  simp [Link.write, ha l.writes buf.length]

section
variable [Host]

/-! ## single sends -/

omit [Host] in
/-- A length modulo 2^16 is no longer than the data. -/
theorem toNat_uint16_le (data : List UInt8) : (uint16 data.length).toNat ≤ data.length := by
  rw [toNat_uint16]
  omega

/-- The bytes of the packet that `snac_send` builds, of data of any length. -/
theorem snacPacket_cut (family subtype : UInt16) (reqid : UInt32) (data : List UInt8) :
    (pktAddAll (pktInit ((uint16 data.length).toNat + 10))
      [.add16 family, .add16 subtype, .add16 0, .add32 reqid,
        .addraw (data.take (uint16 data.length).toNat)]).data =
      (Snac.mk family subtype 0 reqid (data.take (uint16 data.length).toNat)).bytes := by
  have hle := toNat_uint16_le data
  rw [pktAddAll_eq _ (by simp [PktAdd.bytes]; omega)]
  simp [PktAdd.bytes, Snac.bytes, Snac.header]

/-- The bytes of the packet that `snac_send` and `snac_addToMulti` build. -/
theorem snacPacket_data (family subtype : UInt16) (reqid : UInt32) (data : List UInt8)
    (hlen : data.length ≤ 65525) :
    (pktAddAll (pktInit ((uint16 data.length).toNat + 10))
      [.add16 family, .add16 subtype, .add16 0, .add32 reqid,
        .addraw (data.take (uint16 data.length).toNat)]).data =
      (Snac.mk family subtype 0 reqid data).bytes := by
  have hl : (uint16 data.length).toNat = data.length := toNat_uint16_of_lt (by omega)
  rw [snacPacket_cut, hl, List.take_length]

/-- The bytes of the packet that `flap_send` builds around a SNAC. -/
theorem flapPacket_data (seqnum : UInt16) (s : Snac) :
    (pktAddAll (pktInit (s.bytes.length + 6)) [.add8 0x2A, .add8 0x02, .add16 seqnum,
        .add16 (uint16 s.bytes.length), .addraw s.bytes]).data =
      Received.bytes ⟨0x02, seqnum, s⟩ := by
  rw [pktAddAll_eq _ (by simp [PktAdd.bytes]; omega)]
  simp [PktAdd.bytes, Received.bytes]

/-- A handle after one write of the frames of `out`. -/
def wrote (h : Imcomm) (out : List SnacBody) : Imcomm :=
  { h with
    link := { h.link with writes := h.link.writes + 1
                          wire := h.link.wire ++ numberBytes h.seqnum h.snacreq out }
    seqnum := h.seqnum + UInt16.ofNat out.length
    snacreq := h.snacreq + UInt32.ofNat out.length }

omit [Host] in
theorem wrote_sent (h : Imcomm) (out : List SnacBody) : Sent h out h.isidle (wrote h out) :=
  ⟨h.link.writes + 1, rfl⟩

omit [Host] in
theorem wrote_isidle (h : Imcomm) (out : List SnacBody) : (wrote h out).isidle = h.isidle := rfl

/-- The end of `flap_send` and `flap_sendMulti`: a send that updates the
idle time ends an idle period. -/
def resetIdle (updateidle : Int) (h : Imcomm) : Imcomm :=
  if updateidle = 1 then if h.isidle then imcommSetIdleTime h 0 else h else h

theorem resetIdle_ok (updateidle : Int) (h : Imcomm) :
    (if updateidle = 1 then if h.isidle then (imcommSetIdleTime h 0, ImcommRet.ok) else (h, .ok)
      else (h, .ok)) = (resetIdle updateidle h, .ok) := by
  rw [resetIdle]
  split
  · split <;> rfl
  · rfl

/-- What goes out of a body: its length is cut to 16 bits. -/
def SnacBody.cut (b : SnacBody) : SnacBody :=
  { b with data := b.data.take (uint16 b.data.length).toNat }

/-- `snac_send` over an accepting transport, of data of any length. -/
theorem snacSend_cut (h : Imcomm) (b : SnacBody) (updateidle : Int) (ha : h.link.Accepting)
    (hp : h.srvPause = false) :
    snacSend h b.family b.subtype b.data (uint16 b.data.length) updateidle =
      (resetIdle updateidle (wrote h [b.cut]), .ok) := by
  have hwrote : { h with
      link := { h.link with writes := h.link.writes + 1
                            wire := h.link.wire ++ numberBytes h.seqnum h.snacreq [b.cut] }
      seqnum := h.seqnum + 1
      snacreq := h.snacreq + 1 } = wrote h [b.cut] := rfl
  rw [snacSend, if_neg (by simp [hp])]
  simp only [snacPacket_cut]
  rw [flapSend]
  simp only [flapPacket_data, Link.write_accepting ha]
  rw [if_neg (by omega), next_seqnum]
  rw [numberBytes_cons, numberBytes_nil, List.append_nil] at hwrote
  simp only [SnacBody.cut] at hwrote
  rw [hwrote]
  exact resetIdle_ok updateidle (wrote h [b.cut])

/-- `snac_send` over an accepting transport. -/
theorem snacSend_accepting (h : Imcomm) (b : SnacBody) (updateidle : Int) (ha : h.link.Accepting)
    (hp : h.srvPause = false) (hlen : b.data.length ≤ 65525) :
    snacSend h b.family b.subtype b.data (uint16 b.data.length) updateidle =
      (resetIdle updateidle (wrote h [b]), .ok) := by
  have hcut : b.cut = b := by
    rw [SnacBody.cut, toNat_uint16_of_lt (by omega), List.take_length]
  rw [snacSend_cut h b updateidle ha hp, hcut]

/-- A send that does not touch the idle time. -/
theorem snacSend_plain (h : Imcomm) (b : SnacBody) (ha : h.link.Accepting)
    (hp : h.srvPause = false) (hlen : b.data.length ≤ 65525) :
    snacSend h b.family b.subtype b.data (uint16 b.data.length) 0 = (wrote h [b], .ok) := by
  rw [snacSend_accepting h b 0 ha hp hlen, resetIdle, if_neg (by decide)]

/-- The SNAC (01,11) that ends an idle period. -/
def unidle : SnacBody := ⟨0x01, 0x11, be32 0⟩

/-- What a send with `updateidle` adds to a run of sends. -/
def unidleIf (idle : Bool) : List SnacBody := if idle then [unidle] else []

/-- `imcomm_set_idle_time(handle, 0)` ends an idle period. -/
theorem imcommSetIdleTime_zero (h : Imcomm) (ha : h.link.Accepting) (hp : h.srvPause = false)
    (hi : h.isidle = true) : Sent h [unidle] false (imcommSetIdleTime h 0) := by
  have hpacket : pktAddAll (pktInit 4) [.add32 0] = ⟨be32 0, 4, 4⟩ := by
    rw [pktAddAll_eq _ (by simp [PktAdd.bytes])]
    simp [PktAdd.bytes]
  have hsend := snacSend_plain { h with isidle := false } unidle ha hp (by decide)
  have hres : imcommSetIdleTime h 0 = wrote { h with isidle := false } [unidle] := by
    rw [imcommSetIdleTime, if_neg (by decide), if_pos ⟨hi, rfl⟩, hpacket]
    exact congrArg Prod.fst hsend
  rw [hres]
  exact ⟨h.link.writes + 1, rfl⟩

/-- The idle reset after a run of sends. -/
theorem sent_resetIdle {h h' : Imcomm} {out : List SnacBody} (updateidle : Int)
    (ha : h.link.Accepting) (hp : h.srvPause = false) (hs : Sent h out h.isidle h') :
    Sent h (out ++ if updateidle = 1 then unidleIf h.isidle else [])
      (h.isidle && decide (updateidle ≠ 1)) (resetIdle updateidle h') := by
  by_cases hu : updateidle = 1
  · cases hi : h.isidle with
    | true =>
        have hi' : h'.isidle = true := by rw [hs.isidle, hi]
        have hun := imcommSetIdleTime_zero h' (hs.accepting ha) (by rw [hs.srvPause, hp]) hi'
        simpa [hu, hi', unidleIf, resetIdle] using hs.trans hun
    | false =>
        have hi' : h'.isidle = false := by rw [hs.isidle, hi]
        rw [hi] at hs
        simpa [hu, hi', unidleIf, resetIdle] using hs
  · simpa [hu, resetIdle] using hs

/-- **A single send** puts its SNAC on the wire, and the un-idle SNAC when
it updates the idle time of an idle handle. -/
theorem snacSend_sent (h : Imcomm) (b : SnacBody) (updateidle : Int) (ha : h.link.Accepting)
    (hp : h.srvPause = false) (hlen : b.data.length ≤ 65525) :
    (snacSend h b.family b.subtype b.data (uint16 b.data.length) updateidle).2 = .ok ∧
      Sent h ([b] ++ if updateidle = 1 then unidleIf h.isidle else [])
        (h.isidle && decide (updateidle ≠ 1))
        (snacSend h b.family b.subtype b.data (uint16 b.data.length) updateidle).1 := by
  rw [snacSend_accepting h b updateidle ha hp hlen]
  exact ⟨rfl, sent_resetIdle updateidle ha hp (wrote_sent h [b])⟩

/-! ## batches -/

omit [Host] in
/-- A queued frame on the wire. -/
def MultiPacket.bytes (p : MultiPacket) (seqnum : UInt16) : List UInt8 :=
  [0x2A, p.channel] ++ be16 seqnum ++ be16 (uint16 p.packet.length) ++ p.packet

omit [Host] in
theorem MultiPacket.length_bytes (p : MultiPacket) (seqnum : UInt16) :
    (p.bytes seqnum).length = 6 + p.packet.length := by
  simp only [bytes, List.length_append, List.length_cons, List.length_nil, length_be16]

omit [Host] in
/-- Queued frames on the wire, numbered on from a sequence number. -/
def multiBytes (seqnum : UInt16) : List MultiPacket → List UInt8
  | [] => []
  | p :: ps => p.bytes seqnum ++ multiBytes (seqnum + 1) ps

omit [Host] in
theorem multiBytes_cons (seqnum : UInt16) (p : MultiPacket) (ps : List MultiPacket) :
    multiBytes seqnum (p :: ps) = p.bytes seqnum ++ multiBytes (seqnum + 1) ps := rfl

omit [Host] in
theorem multiBytes_append (seqnum : UInt16) (ps qs : List MultiPacket) :
    multiBytes seqnum (ps ++ qs) =
      multiBytes seqnum ps ++ multiBytes (seqnum + UInt16.ofNat ps.length) qs := by
  induction ps generalizing seqnum with
  | nil => simp [multiBytes]
  | cons p ps ih =>
      have hs : seqnum + 1 + UInt16.ofNat ps.length = seqnum + UInt16.ofNat (ps.length + 1) := by
        rw [UInt16.ofNat_add, UInt16.add_assoc, UInt16.add_comm 1]
        rfl
      rw [List.cons_append, multiBytes_cons, ih, multiBytes_cons, List.append_assoc, hs,
        List.length_cons]

omit [Host] in
/-- The frames of a queue take the room that the first loop of
`flap_sendMulti` counts. -/
theorem length_multiBytes (seqnum : UInt16) (ps : List MultiPacket) :
    (multiBytes seqnum ps).length = (ps.map fun trav => 6 + trav.packet.length).sum := by
  induction ps generalizing seqnum with
  | nil => rfl
  | cons p ps ih =>
      rw [multiBytes_cons, List.length_append, p.length_bytes, ih, List.map_cons, List.sum_cons]

/-- The second loop of `flap_sendMulti` appends the frames of the queue. -/
theorem flapSendMultiLoop_holds (seqnum : UInt16) (ps : List MultiPacket) {outpacket : Pkt}
    {pre : List UInt8} (hpre : outpacket.Holds pre)
    (hroom : pre.length + (multiBytes seqnum ps).length ≤ outpacket.len) :
    (flapSendMultiLoop ps outpacket seqnum).1.Holds (pre ++ multiBytes seqnum ps) ∧
      (flapSendMultiLoop ps outpacket seqnum).1.len = outpacket.len ∧
      (flapSendMultiLoop ps outpacket seqnum).2 = seqnum + UInt16.ofNat ps.length := by
  induction ps generalizing seqnum outpacket pre with
  | nil => simpa [multiBytes, flapSendMultiLoop] using hpre
  | cons p ps ih =>
      have hbytes : fieldBytes [.add8 0x2A, .add8 p.channel, .add16 seqnum,
          .add16 (uint16 p.packet.length), .addraw p.packet] = p.bytes seqnum := by
        simp [PktAdd.bytes, MultiPacket.bytes]
      rw [multiBytes_cons, List.length_append] at hroom
      obtain ⟨hfilled, hlen⟩ := hpre.addAll _ (by rw [hbytes]; omega)
      rw [hbytes] at hfilled
      have hrec := ih (seqnum + 1) hfilled (by rw [List.length_append, hlen]; omega)
      rw [flapSendMultiLoop, multiBytes_cons, next_seqnum]
      rw [hlen, List.append_assoc] at hrec
      refine ⟨hrec.1, hrec.2.1, ?_⟩
      rw [hrec.2.2, List.length_cons, UInt16.ofNat_add, UInt16.add_assoc,
        UInt16.add_comm (UInt16.ofNat ps.length)]
      rfl

/-- What `flap_sendMulti` gives to the transport, and the counter it leaves. -/
theorem flapSendMultiLoop_eq (seqnum : UInt16) (ps : List MultiPacket) :
    (flapSendMultiLoop ps (pktInit (ps.map fun trav => 6 + trav.packet.length).sum) seqnum).1.data =
        multiBytes seqnum ps ∧
      (flapSendMultiLoop ps (pktInit (ps.map fun trav => 6 + trav.packet.length).sum) seqnum).2 =
        seqnum + UInt16.ofNat ps.length := by
  have hroom := length_multiBytes seqnum ps
  obtain ⟨⟨-, hdlen, rest, hrest⟩, hplen, hseq⟩ := flapSendMultiLoop_holds seqnum ps
    (holds_pktInit (ps.map fun trav => 6 + trav.packet.length).sum)
    (by rw [hroom]; exact Nat.le_of_eq (Nat.zero_add _))
  have hnil : rest = [] := by
    have hl := congrArg List.length hrest
    rw [hdlen, hplen, List.nil_append, List.length_append, hroom] at hl
    exact List.length_eq_zero_iff.mp (by simpa [pktInit] using hl)
  rw [hrest, hnil, List.append_nil, List.nil_append]
  exact ⟨rfl, hseq⟩

/-- The queue that a batch of calls leaves. -/
def queued (reqid : UInt32) : List SnacCall → List MultiPacket
  | [] => []
  | c :: calls =>
    ⟨0x02, (Snac.mk c.body.family c.body.subtype 0 reqid c.body.data).bytes, c.updateidle⟩ ::
      queued (reqid + 1) calls

theorem snacAddAllToMulti_eq (h : Imcomm) (mpkt : List MultiPacket) (calls : List SnacCall)
    (hlen : ∀ c ∈ calls, c.body.data.length ≤ 65525) :
    snacAddAllToMulti h mpkt calls =
      ({ h with snacreq := h.snacreq + UInt32.ofNat calls.length },
        mpkt ++ queued h.snacreq calls) := by
  induction calls generalizing h mpkt with
  | nil => simp [snacAddAllToMulti, queued]
  | cons c calls ih =>
      have hstep : snacAddToMulti h mpkt c.body.family c.body.subtype c.body.data
          (uint16 c.body.data.length) c.updateidle =
          ({ h with snacreq := h.snacreq + 1 }, mpkt ++
            [⟨0x02, (Snac.mk c.body.family c.body.subtype 0 h.snacreq c.body.data).bytes,
              c.updateidle⟩]) := by
        rw [snacAddToMulti, snacPacket_data _ _ _ _ (hlen c List.mem_cons_self), flapAddToMulti]
      have hrec := ih { h with snacreq := h.snacreq + 1 } (mpkt ++
        [⟨0x02, (Snac.mk c.body.family c.body.subtype 0 h.snacreq c.body.data).bytes,
          c.updateidle⟩]) fun d hd => hlen d (List.mem_cons_of_mem c hd)
      rw [snacAddAllToMulti, List.foldl_cons, hstep]
      rw [snacAddAllToMulti] at hrec
      rw [hrec, queued, List.length_cons, UInt32.ofNat_add, List.append_assoc, UInt32.add_assoc,
        UInt32.add_comm (UInt32.ofNat calls.length)]
      rfl

omit [Host] in
theorem queued_updateidle (reqid : UInt32) (calls : List SnacCall) :
    (queued reqid calls).any (fun trav => trav.updateidle = 1) =
      calls.any (fun c => c.updateidle = 1) := by
  induction calls generalizing reqid with
  | nil => rfl
  | cons c calls ih => rw [queued, List.any_cons, List.any_cons, ih]

omit [Host] in
/-- A queue of SNACs goes out as these SNACs. -/
theorem multiBytes_queued (seqnum : UInt16) (reqid : UInt32) (calls : List SnacCall) :
    multiBytes seqnum (queued reqid calls) =
      numberBytes seqnum reqid (calls.map SnacCall.body) := by
  induction calls generalizing seqnum reqid with
  | nil => rfl
  | cons c calls ih =>
      rw [queued, multiBytes_cons, ih, List.map_cons, numberBytes_cons]
      rfl

omit [Host] in
theorem length_queued (reqid : UInt32) (calls : List SnacCall) :
    (queued reqid calls).length = calls.length := by
  induction calls generalizing reqid with
  | nil => rfl
  | cons c calls ih => rw [queued, List.length_cons, ih, List.length_cons]

/-- **A batch** puts its SNACs on the wire in the order they were queued,
and the un-idle SNAC behind them when one of them updates the idle time. -/
theorem sendBatch_sent (h : Imcomm) (calls : List SnacCall) (ha : h.link.Accepting)
    (hp : h.srvPause = false) (hne : calls ≠ [])
    (hlen : ∀ c ∈ calls, c.body.data.length ≤ 65525) :
    (sendBatch h calls).2 = .ok ∧
      Sent h (calls.map SnacCall.body ++
          if calls.any (fun c => c.updateidle = 1) then unidleIf h.isidle else [])
        (h.isidle && !calls.any (fun c => c.updateidle = 1)) (sendBatch h calls).1 := by
  obtain ⟨hdata, hseq⟩ := flapSendMultiLoop_eq h.seqnum (queued h.snacreq calls)
  rw [multiBytes_queued] at hdata
  have hpos : 0 < (numberBytes h.seqnum h.snacreq (calls.map SnacCall.body)).length := by
    obtain ⟨c, calls, rfl⟩ := List.exists_cons_of_ne_nil hne
    rw [List.map_cons, numberBytes_cons, List.length_append]
    simp only [Received.bytes, List.length_append, List.length_cons]
    omega
  have hres : sendBatch h calls = (resetIdle
      (if calls.any (fun c => c.updateidle = 1) then 1 else 0)
      (wrote h (calls.map SnacCall.body)), .ok) := by
    rw [sendBatch, snacAddAllToMulti_eq h _ calls hlen]
    simp only [multiPktInit, List.nil_append, flapSendMulti, queued_updateidle, hdata, hseq,
      Link.write_accepting ha]
    rw [if_neg (by split <;> omega), ← resetIdle_ok, wrote_isidle, wrote, List.length_map,
      length_queued]
  have hidle := sent_resetIdle (if calls.any (fun c => c.updateidle = 1) then 1 else 0)
    ha hp (wrote_sent h (calls.map SnacCall.body))
  rw [hres]
  refine ⟨rfl, ?_⟩
  cases hany : calls.any (fun c => c.updateidle = 1) <;> simpa [hany] using hidle

/-! ## any mix of both -/

/-- A send: one call of `snac_send`, or a complete batch of at least one. -/
inductive SendCall where
  | snacSend (call : SnacCall)
  | batch (first : SnacCall) (rest : List SnacCall)
deriving DecidableEq, Repr

namespace SendCall

/-- The calls of a send. -/
def calls : SendCall → List SnacCall
  | snacSend c => [c]
  | batch c cs => c :: cs

/-- Make the calls of a send. -/
def run (h : Imcomm) : SendCall → Imcomm
  | snacSend c => (Bsflite.snacSend h c.body.family c.body.subtype c.body.data
      (uint16 c.body.data.length) c.updateidle).1
  | batch c cs => (sendBatch h (c :: cs)).1

/-- Does the send update the idle time? -/
def updatesIdle (s : SendCall) : Bool := s.calls.any (fun c => c.updateidle = 1)

/-- The SNACs of a send by a handle that is idle or not: those it was given,
and the un-idle SNAC that it inserts itself. -/
def bodies (idle : Bool) (s : SendCall) : List SnacBody :=
  s.calls.map SnacCall.body ++ if s.updatesIdle then unidleIf idle else []

theorem run_sent (h : Imcomm) (s : SendCall) (ha : h.link.Accepting) (hp : h.srvPause = false)
    (hlen : ∀ c ∈ s.calls, c.body.data.length ≤ 65525) :
    Sent h (s.bodies h.isidle) (h.isidle && !s.updatesIdle) (s.run h) := by
  cases s with
  | snacSend c =>
      have hs := (snacSend_sent h c.body c.updateidle ha hp (hlen c List.mem_cons_self)).2
      simpa [bodies, updatesIdle, calls, run] using hs
  | batch c cs =>
      exact (sendBatch_sent h (c :: cs) ha hp (List.cons_ne_nil c cs) hlen).2

end SendCall

/-- The SNACs of a run of sends. -/
def sendBodies (idle : Bool) : List SendCall → List SnacBody
  | [] => []
  | s :: ss => s.bodies idle ++ sendBodies (idle && !s.updatesIdle) ss

/-- A run of sends puts the SNACs of all its sends on the wire. -/
theorem foldl_run_sent (h : Imcomm) (ss : List SendCall) (ha : h.link.Accepting)
    (hp : h.srvPause = false) (hlen : ∀ s ∈ ss, ∀ c ∈ s.calls, c.body.data.length ≤ 65525) :
    ∃ idle, Sent h (sendBodies h.isidle ss) idle (ss.foldl SendCall.run h) := by
  induction ss generalizing h with
  | nil => exact ⟨h.isidle, Sent.refl h⟩
  | cons s ss ih =>
      have hs := s.run_sent h ha hp (hlen s List.mem_cons_self)
      obtain ⟨idle, hrec⟩ := ih (s.run h) (hs.accepting ha) (by rw [hs.srvPause, hp])
        fun t ht => hlen t (List.mem_cons_of_mem s ht)
      rw [hs.isidle] at hrec
      exact ⟨idle, hs.trans hrec⟩

omit [Host] in
theorem sendBodies_length_le (idle : Bool) (ss : List SendCall)
    (hlen : ∀ s ∈ ss, ∀ c ∈ s.calls, c.body.data.length ≤ 65525) :
    ∀ b ∈ sendBodies idle ss, b.data.length ≤ 65525 := by
  induction ss generalizing idle with
  | nil => simp [sendBodies]
  | cons s ss ih =>
      intro b hb
      rw [sendBodies, SendCall.bodies] at hb
      rcases List.mem_append.mp hb with hb | hb
      · rcases List.mem_append.mp hb with hb | hb
        · obtain ⟨c, hc, rfl⟩ := List.mem_map.mp hb
          exact hlen s List.mem_cons_self c hc
        · have hun : b = unidle := by
            rw [unidleIf] at hb
            grind
          rw [hun]
          decide
      · exact ih _ (fun t ht => hlen t (List.mem_cons_of_mem s ht)) b hb

/-- **Outgoing stream framing**: whatever sends a handle makes, a receiver
reads exactly their SNACs in call order off the wire, on channel 2, with
consecutive sequence numbers and request ids, and the counters end at the
next ones. -/
theorem outgoing_framing (h : Imcomm) (ss : List SendCall) (ha : h.link.Accepting)
    (hp : h.srvPause = false) (hlen : ∀ s ∈ ss, ∀ c ∈ s.calls, c.body.data.length ≤ 65525) :
    ∃ bytes, (ss.foldl SendCall.run h).link.wire = h.link.wire ++ bytes ∧
      receive bytes = some (number h.seqnum h.snacreq (sendBodies h.isidle ss)) ∧
      (ss.foldl SendCall.run h).seqnum =
        h.seqnum + UInt16.ofNat (sendBodies h.isidle ss).length ∧
      (ss.foldl SendCall.run h).snacreq =
        h.snacreq + UInt32.ofNat (sendBodies h.isidle ss).length := by
  obtain ⟨idle, writes, hsent⟩ := foldl_run_sent h ss ha hp hlen
  refine ⟨numberBytes h.seqnum h.snacreq (sendBodies h.isidle ss), ?_, ?_, ?_, ?_⟩
  · rw [hsent]
  · exact receive_numberBytes _ _ _ (sendBodies_length_le _ _ hlen)
  · rw [hsent]
  · rw [hsent]

end

/-- An idle handle sends a message, which ends its idle period, and then a
batch of two. -/
theorem outgoing_framing_idle :
    ∃ bytes, (List.foldl (@SendCall.run littleEndianHost)
        { imcommCreateHandle zeroBlock with isidle := true }
        [.snacSend ⟨⟨4, 6, [65]⟩, 1⟩, .batch ⟨⟨1, 14, []⟩, 0⟩ [⟨⟨19, 2, []⟩, 1⟩]]).link.wire =
          bytes ∧
      receive bytes = some
        [⟨2, 0x1000, ⟨4, 6, 0, 0, [65]⟩⟩, ⟨2, 0x1001, ⟨1, 17, 0, 1, [0, 0, 0, 0]⟩⟩,
          ⟨2, 0x1002, ⟨1, 14, 0, 2, []⟩⟩, ⟨2, 0x1003, ⟨19, 2, 0, 3, []⟩⟩] := by
  obtain ⟨bytes, hwire, hread, -⟩ := @outgoing_framing littleEndianHost
    { imcommCreateHandle zeroBlock with isidle := true }
    [.snacSend ⟨⟨4, 6, [65]⟩, 1⟩, .batch ⟨⟨1, 14, []⟩, 0⟩ [⟨⟨19, 2, []⟩, 1⟩]]
    (fun _ _ => rfl) rfl (by decide)
  exact ⟨bytes, hwire, hread⟩

end Bsflite
