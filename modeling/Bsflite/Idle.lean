import Bsflite.Outgoing
import Bsflite.Input

/-!
# Bsflite.Idle

What the server was told about the idle time.  SNACs (01,11) are sent by
`imcomm_set_idle_time` only, and the flag `isidle` of the handle always says
what the last of them said: `Told h idle h'` is `h'` after some sends from
`h`, and `idle` is both.

* `imcommSetIdleTime_told` — a report, or no report.
* `imcommImSendMessage_told` — a message, which ends an idle period unless it
  is an automatic response.
* `imcommSetAway_told`, `imcommSetUnaway_told` — the away state.
-/

namespace Bsflite

/-- The idle time in the data of a SNAC (01,11). -/
def idleSecs : List UInt8 → UInt32
  | [a, b, c, d] => ofBe32 a b c d
  | _ => 0

@[simp] theorem idleSecs_be32 (v : UInt32) : idleSecs (be32 v) = v := ofBe32_be32 v

/-- Does the last SNAC (01,11) have an idle time above 600 seconds?  Without
one the answer is `idle`. -/
def lastTold (idle : Bool) (out : List SnacBody) : Bool :=
  out.foldl (fun idle b =>
    if b.family = 0x01 ∧ b.subtype = 0x11 then decide (600 < idleSecs b.data) else idle) idle

theorem lastTold_append (idle : Bool) (out out' : List SnacBody) :
    lastTold idle (out ++ out') = lastTold (lastTold idle out) out' := List.foldl_append

/-- The transport takes every buffer, and the server did not pause. -/
structure Imcomm.Flowing (h : Imcomm) : Prop where
  accepting : h.link.Accepting
  srvPause : h.srvPause = false

/-- `h'` is `h` after some sends, and `idle` is what the last report says. -/
structure Told (h : Imcomm) (idle : Bool) (h' : Imcomm) : Prop where
  flowing : h'.Flowing
  isidle : h'.isidle = idle
  wire : ∃ out, h'.link.wire = h.link.wire ++ numberBytes h.seqnum h.snacreq out ∧
    h'.seqnum = h.seqnum + UInt16.ofNat out.length ∧
    h'.snacreq = h.snacreq + UInt32.ofNat out.length ∧ lastTold h.isidle out = idle

section
variable {h h' : Imcomm}

theorem Told.refl (hf : h.Flowing) : Told h h.isidle h :=
  ⟨hf, rfl, [], by simp, by simp, by simp, rfl⟩

theorem Told.trans {h'' : Imcomm} {idle idle' : Bool} (h1 : Told h idle h')
    (h2 : Told h' idle' h'') : Told h idle' h'' := by
  obtain ⟨out, hwire, hseqnum, hsnacreq, htold⟩ := h1.wire
  obtain ⟨out', hwire', hseqnum', hsnacreq', htold'⟩ := h2.wire
  refine ⟨h2.flowing, h2.isidle, out ++ out', ?_, ?_, ?_, ?_⟩
  · rw [hwire', hwire, hseqnum, hsnacreq, numberBytes_append, List.append_assoc]
  · rw [hseqnum', hseqnum, List.length_append, UInt16.ofNat_add, UInt16.add_assoc]
  · rw [hsnacreq', hsnacreq, List.length_append, UInt32.ofNat_add, UInt32.add_assoc]
  · rw [lastTold_append, htold, ← h1.isidle, htold']

/-- A run of sends. -/
theorem told_of_sent {out : List SnacBody} {idle : Bool} (hf : h.Flowing) (hs : Sent h out idle h')
    (htold : lastTold h.isidle out = idle) : Told h idle h' := by
  refine ⟨⟨hs.accepting hf.accepting, hs.srvPause.trans hf.srvPause⟩, hs.isidle, out, ?_⟩
  obtain ⟨writes, rfl⟩ := hs
  exact ⟨rfl, rfl, rfl, htold⟩

variable [Host]

/-- **A report**: what `imcomm_set_idle_time` makes of an idle time. -/
theorem imcommSetIdleTime_told (hf : h.Flowing) (idlesecs : UInt32) :
    Told h (decide (600 < idlesecs) || h.isidle && decide (idlesecs ≠ 0))
      (imcommSetIdleTime h idlesecs) := by
  have hpacket : pktAddAll (pktInit 4) [.add32 idlesecs] = ⟨be32 idlesecs, 4, 4⟩ := by
    rw [pktAddAll_eq _ (by simp [PktAdd.bytes])]
    simp [PktAdd.bytes]
  by_cases hlong : 600 < idlesecs
  · simp only [hlong, decide_true, Bool.true_or]
    cases hidle : h.isidle with
    | true =>
        have hsame : imcommSetIdleTime h idlesecs = h := by
          rw [imcommSetIdleTime, if_pos hlong, if_pos hidle]
        rw [hsame]
        exact hidle ▸ Told.refl hf
    | false =>
        have hsend : imcommSetIdleTime h idlesecs =
            wrote { h with isidle := true } [⟨0x01, 0x11, be32 idlesecs⟩] := by
          rw [imcommSetIdleTime, if_pos hlong, if_neg (by simp [hidle]), hpacket]
          exact congrArg Prod.fst
            (snacSend_plain { h with isidle := true } ⟨0x01, 0x11, be32 idlesecs⟩ hf.accepting
              hf.srvPause (by simp))
        rw [hsend]
        exact told_of_sent hf ⟨_, rfl⟩ (by simp [lastTold, hlong])
  · simp only [hlong, decide_false, Bool.false_or]
    by_cases hend : h.isidle = true ∧ idlesecs = 0
    · obtain ⟨hidle, rfl⟩ := hend
      rw [hidle]
      exact told_of_sent hf (imcommSetIdleTime_zero h hf.accepting hf.srvPause hidle)
        (by simp [lastTold, unidle])
    · have hsame : imcommSetIdleTime h idlesecs = h := by
        rw [imcommSetIdleTime, if_neg hlong, if_neg hend]
      have hflag : (h.isidle && decide (idlesecs ≠ 0)) = h.isidle := by
        cases hidle : h.isidle with
        | true => simpa [hidle] using hend
        | false => rfl
      rw [hsame, hflag]
      exact Told.refl hf

/-- **Any other SNAC**: with `updateidle` it ends an idle period. -/
theorem snacSend_told (hf : h.Flowing) (b : SnacBody) (updateidle : Int)
    (hb : ¬ (b.family = 0x01 ∧ b.subtype = 0x11)) :
    Told h (h.isidle && decide (updateidle ≠ 1))
      (snacSend h b.family b.subtype b.data (uint16 b.data.length) updateidle).1 := by
  rw [snacSend_cut h b updateidle hf.accepting hf.srvPause]
  refine told_of_sent hf
    (sent_resetIdle updateidle hf.accepting hf.srvPause (wrote_sent h [b.cut])) ?_
  have hcut : lastTold h.isidle [b.cut] = h.isidle := by simp [lastTold, SnacBody.cut, hb]
  rw [lastTold_append, hcut]
  split
  · next hupdate =>
    cases h.isidle with
    | true => simp [lastTold, unidleIf, unidle, hupdate]
    | false => rfl
  · next hplain => simp [lastTold, hplain]

/-- The same for a packet that was made for it. -/
theorem snacSendpkt_told (hf : h.Flowing) {family subtype : UInt8} {pkt : Pkt} (updateidle : Int)
    (hpkt : ∃ n fs, pkt = pktAddAll (pktInit n) fs)
    (hb : ¬ (family.toUInt16 = 0x01 ∧ subtype.toUInt16 = 0x11)) :
    Told h (h.isidle && decide (updateidle ≠ 1))
      (snacSendpkt h family subtype pkt updateidle).1 := by
  obtain ⟨n, fs, rfl⟩ := hpkt
  obtain ⟨pre, hholds⟩ := (holds_pktInit n).addSome fs
  rw [snacSendpkt, ← hholds.len_eq]
  exact snacSend_told hf ⟨family.toUInt16, subtype.toUInt16, _⟩ updateidle hb

/-- A packet that does not touch the idle time. -/
theorem snacSendpkt_plain_told (hf : h.Flowing) {family subtype : UInt8} {pkt : Pkt}
    (hpkt : ∃ n fs, pkt = pktAddAll (pktInit n) fs)
    (hb : ¬ (family.toUInt16 = 0x01 ∧ subtype.toUInt16 = 0x11)) :
    Told h h.isidle (snacSendpkt h family subtype pkt 0).1 := by
  have hsend := snacSendpkt_told hf 0 hpkt hb
  rwa [decide_eq_true (by decide), Bool.and_true] at hsend

/-- **A message.** -/
theorem imcommImSendMessage_told (hf : h.Flowing) (whom msg : Str) (automsg : Bool) :
    Told h (h.isidle && automsg) (imcommImSendMessage h whom msg automsg) := by
  have hpacket : ∃ n fs, imSendMessagePacket whom msg automsg = pktAddAll (pktInit n) fs :=
    ⟨_, _, rfl⟩
  cases automsg with
  | true => exact snacSendpkt_told hf 0 hpacket (by decide)
  | false => exact snacSendpkt_told hf 1 hpacket (by decide)

/-! ## the away state -/

/-- The location packet. -/
theorem snacSetLocationInfo_told (hf : h.Flowing) : Told h h.isidle (snacSetLocationInfo h).1 := by
  have hupdate : Told h h.isidle (snacSendCliUpdate h).1 :=
    snacSendpkt_plain_told hf ⟨_, _, rfl⟩ (by decide)
  have hlocation : Told (snacSendCliUpdate h).1 (snacSendCliUpdate h).1.isidle
      (snacSetLocationInfo h).1 :=
    snacSendpkt_plain_told hupdate.flowing ⟨_, _, rfl⟩ (by decide)
  rw [hupdate.isidle] at hlocation
  exact hupdate.trans hlocation

omit [Host] in
/-- A change of the fields that the location packet is made of. -/
theorem told_of_settings {h₀ : Imcomm} {idle : Bool} (ht : Told h₀ idle h')
    (hlink : h₀.link = h.link) (hseqnum : h₀.seqnum = h.seqnum) (hsnacreq : h₀.snacreq = h.snacreq)
    (hidle : h₀.isidle = h.isidle) : Told h idle h' := by
  refine ⟨ht.flowing, ht.isidle, ?_⟩
  rw [← hlink, ← hseqnum, ← hsnacreq, ← hidle]
  exact ht.wire

/-- **Going away.** -/
theorem imcommSetAway_told (hf : h.Flowing) (msg : Str) :
    Told h h.isidle (imcommSetAway h msg) := by
  have haway : Imcomm.Flowing { h with isaway := true, awayMsg := some msg } :=
    ⟨hf.accepting, hf.srvPause⟩
  rw [imcommSetAway]
  simp only
  split
  · exact told_of_settings (snacSetLocationInfo_told haway) rfl rfl rfl rfl
  · exact told_of_settings (Told.refl haway) rfl rfl rfl rfl

/-- **Coming back.** -/
theorem imcommSetUnaway_told (hf : h.Flowing) : Told h h.isidle (imcommSetUnaway h) := by
  have hback : Imcomm.Flowing { h with isaway := false, awayMsg := none } :=
    ⟨hf.accepting, hf.srvPause⟩
  rw [imcommSetUnaway]
  split
  · simp only
    split
    · exact told_of_settings (snacSetLocationInfo_told hback) rfl rfl rfl rfl
    · exact told_of_settings (Told.refl hback) rfl rfl rfl rfl
  · exact Told.refl hf

end

end Bsflite
