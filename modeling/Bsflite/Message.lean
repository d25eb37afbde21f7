import Bsflite.Inbound
import Bsflite.Online

/-!
# Bsflite.Message

A message from one client to another.  `imcomm_im_send_message` counts the
lengths of three nested blocks by hand; a server passes the TLVs on behind
its own header, and `snac_get_incoming_im` takes them apart again.

* `imSendMessagePacket_drop` — the part of a sent body that a server passes
  on is a TLV list, `messageTlvs`.
* `snacGetIncomingIm_payload` — what the parser does with such a list.
* `message_round_trip` — the text and the sender arrive.
-/

namespace Bsflite

/-! ## what is sent -/

/-- The block of a message: the features and the text behind four bytes. -/
def messageBlock (msg : Str) (h : msg.length < 65536 - 17) : List Tlv :=
  [⟨0x0501, [1], by decide⟩, ⟨0x0101, [0, 0, 0, 0] ++ msg, by
    simp only [List.length_append, List.length_cons, List.length_nil]
    omega⟩]

theorem length_messageBlock (msg : Str) (h : msg.length < 65536 - 17) :
    (tlvBytes (messageBlock msg h)).length = msg.length + 13 := by
  simp only [messageBlock, tlvBytes_cons, tlvBytes_nil, List.length_append, Tlv.length_bytes,
    List.length_cons, List.length_nil]
  omega

/-- The TLVs of a message: the block, and an empty TLV that marks an
automatic response. -/
def messageTlvs (msg : Str) (automsg : Bool) (h : msg.length < 65536 - 17) : List Tlv :=
  ⟨0x0002, tlvBytes (messageBlock msg h), by
    rw [length_messageBlock]
    omega⟩ :: if automsg then [⟨0x0004, [], by decide⟩] else []

section
variable [Host]

/-- The hand-counted size of the packet is the size of its fields. -/
theorem imSendMessagePacket_data (whom msg : Str) (automsg : Bool) :
    (imSendMessagePacket whom msg automsg).data =
      be32 0x01020304 ++ be32 0x05060708 ++ be16 0x0001 ++ [uint8 whom.length] ++ whom ++
        (be16 0x0002 ++ be16 (uint16 (msg.length + 13)) ++ be32 0x05010001 ++ [0x01] ++
          be16 0x0101 ++ be16 (uint16 (msg.length + 4)) ++ be32 0x00000000 ++ msg ++
          if automsg then be16 0x0004 ++ be16 0x0000 else []) := by
  cases automsg with
  | false =>
      rw [imSendMessagePacket, pktAddAll_eq]
      · simp [PktAdd.bytes]
      · simp [PktAdd.bytes]
        omega
  | true =>
      rw [imSendMessagePacket, pktAddAll_eq]
      · simp [PktAdd.bytes]
      · simp [PktAdd.bytes]
        omega

/-- Behind the cookie, the channel and the recipient the body is a TLV
list. -/
theorem imSendMessagePacket_drop (whom msg : Str) (automsg : Bool)
    (h : msg.length < 65536 - 17) :
    (imSendMessagePacket whom msg automsg).data.drop (8 + 2 + 1 + whom.length) =
      tlvBytes (messageTlvs msg automsg h) := by
  have hblock : uint16 (msg.length + 13) = uint16 (tlvBytes (messageBlock msg h)).length := by
    rw [length_messageBlock]
    push_cast
    rfl
  have htext : uint16 (msg.length + 4) = uint16 (([0, 0, 0, 0] : List UInt8) ++ msg).length := by
    simp only [List.length_append, List.length_cons, List.length_nil]
    congr 1
    push_cast
    omega
  rw [imSendMessagePacket_data, drop_append_of_length (by simp; omega), hblock, htext]
  cases automsg <;>
    simp [messageTlvs, messageBlock, Tlv.bytes, Tlv.len] <;> rfl

end

/-! ## what arrives -/

/-- A server's delivery of a message: its own SNAC header and the cookie,
the sender, and what it says about the sender.  The TLVs about the sender
are not message blocks, do not look like the mark of an automatic response,
and carry a sign-on time of four bytes. -/
structure Relay where
  header : Vector UInt8 10
  cookie : Vector UInt8 8
  channel : UInt16
  sender : Str
  warning : UInt16
  count : UInt16
  info : List Tlv
  sender_length : sender.length ≤ 255
  sender_no_nul : 0 ∉ sender
  info_type : ∀ t ∈ info, t.type ≠ 0x0002
  info_not_auto : ∀ t ∈ info, ¬ (t.type = 0x0004 ∧ t.value.val = [])
  info_onlinetime : ∀ t ∈ info, t.type = 0x0003 → t.value.val.length = 4

namespace Relay

/-- The twenty bytes in front of the sender's name. -/
def front (r : Relay) : List UInt8 := r.header.toList ++ r.cookie.toList ++ be16 r.channel

@[simp] theorem length_front (r : Relay) : r.front.length = 20 := by
  simp [front]

/-- The payload with which the server delivers a TLV tail. -/
def payload (r : Relay) (tail : List UInt8) : List UInt8 :=
  r.front ++ [UInt8.ofNat r.sender.length] ++ r.sender ++ be16 r.warning ++ be16 r.count ++
    tlvBytes r.info ++ tail

theorem length_payload (r : Relay) (tail : List UInt8) :
    (r.payload tail).length = 25 + r.sender.length + (tlvBytes r.info).length + tail.length := by
  simp [payload]
  omega

theorem toNat_senderLength (r : Relay) : (UInt8.ofNat r.sender.length).toNat = r.sender.length := by
  have h := r.sender_length
  rw [UInt8.toNat_ofNat']
  omega

theorem drop_payload (r : Relay) (tail : List UInt8) :
    (r.payload tail).drop (25 + r.sender.length) = tlvBytes r.info ++ tail := by
  rw [payload, List.append_assoc (_ ++ be16 r.count)]
  exact drop_append_of_length (by simp; omega)

end Relay

section
variable {σ : Type} (cbs : Callbacks σ)

/-- Setting the sign-on time of a buddy calls nobody. -/
theorem imcommUpdateBuddyTimes_client (w : World σ) (sn : Str) (value : Nat) :
    (imcommUpdateBuddyTimes cbs w sn 2 value).client = w.client := by
  obtain ⟨online, hupdate, -⟩ := imcommUpdateBuddyTimes_onlinetime cbs
    (f := OnlineBuddy.sn) (fun _ _ => rfl) w sn value
  rw [hupdate]
  rfl

variable [Host]

/-- The first loop of `snac_get_incoming_im` over TLVs whose sign-on times
are complete: the client is not called, and an empty TLV of type 4 marks an
automatic response. -/
theorem foldlM_incomingTlv (sn : Str) (ts : List Tlv)
    (h : ∀ t ∈ ts, t.type = 0x0003 → t.value.val.length = 4) (w : World σ) (autoResp : Bool) :
    ∃ w', ts.foldlM (incomingTlv cbs sn) (w, autoResp) =
        .ok (w', autoResp || ts.any fun t => decide (t.type = 0x0004 ∧ t.len = 0)) ∧
      w'.client = w.client := by
  induction ts generalizing w autoResp with
  | nil => exact ⟨w, by simp; rfl, rfl⟩
  | cons t ts ih =>
      have hrest := fun u hu => h u (List.mem_cons_of_mem t hu)
      rw [List.foldlM_cons]
      by_cases h3 : t.type = 0x0003
      · have h4 := h t List.mem_cons_self h3
        obtain ⟨v, hv⟩ := fourTo32_of_le (Nat.le_of_eq h4.symm)
        have hstep : incomingTlv cbs sn (w, autoResp) t =
            .ok (imcommUpdateBuddyTimes cbs w sn 2 v.toNat,
              autoResp || decide (t.type = 0x0004 ∧ t.len = 0)) := by
          rw [incomingTlv, if_pos h3, hv]
          rfl
        obtain ⟨w', hfold, hclient⟩ := ih hrest (imcommUpdateBuddyTimes cbs w sn 2 v.toNat)
          (autoResp || decide (t.type = 0x0004 ∧ t.len = 0))
        refine ⟨w', ?_, ?_⟩
        · rw [hstep, List.any_cons, ← Bool.or_assoc, ← hfold]
          rfl
        · rw [hclient, imcommUpdateBuddyTimes_client]
      · have hstep : incomingTlv cbs sn (w, autoResp) t =
            .ok (w, autoResp || decide (t.type = 0x0004 ∧ t.len = 0)) := by
          rw [incomingTlv, if_neg h3]
          rfl
        obtain ⟨w', hfold, hclient⟩ := ih hrest w
          (autoResp || decide (t.type = 0x0004 ∧ t.len = 0))
        refine ⟨w', ?_, hclient⟩
        rw [hstep, List.any_cons, ← Bool.or_assoc, ← hfold]
        rfl

end

section
variable {σ : Type} (cbs : Callbacks σ) [Host]

/-- The parser on a delivery, once its first loop over the TLVs is done. -/
theorem snacGetIncomingIm_relay {w w' : World σ} (r : Relay) (ts : List Tlv)
    (hlen : (r.payload (tlvBytes ts)).length ≤ 65535) {autoResp : Bool}
    (hfold : (r.info ++ ts).foldlM (incomingTlv cbs r.sender) (w, false) = .ok (w', autoResp)) :
    snacGetIncomingIm cbs w (r.payload (tlvBytes ts)) (r.payload (tlvBytes ts)).length =
      incomingDeliver cbs (if autoResp then w' else imcommUpdateBuddyTimes cbs w' r.sender 1 0)
        r.sender autoResp (r.info ++ ts) := by
  have hsn := r.toNat_senderLength
  have hlength := r.length_payload (tlvBytes ts)
  have hpeek : peek (r.payload (tlvBytes ts)) 20 = .ok (UInt8.ofNat r.sender.length) := by
    simp [peek, Relay.payload]
  have hcount : twoTo16 ((r.payload (tlvBytes ts)).drop (r.sender.length + 23)) = .ok r.count := by
    have hsplit : r.payload (tlvBytes ts) =
        (r.front ++ [UInt8.ofNat r.sender.length] ++ r.sender ++ be16 r.warning) ++
          (be16 r.count ++ (tlvBytes r.info ++ tlvBytes ts)) := by
      simp [Relay.payload]
    rw [hsplit]
    exact twoTo16_drop_append _ _ _ (by simp; omega)
  have hsender : peekN (r.payload (tlvBytes ts)) 21 r.sender.length = .ok r.sender := by
    have hsplit : r.payload (tlvBytes ts) = (r.front ++ [UInt8.ofNat r.sender.length]) ++
        (r.sender ++ (be16 r.warning ++ be16 r.count ++ (tlvBytes r.info ++ tlvBytes ts))) := by
      simp [Relay.payload]
    rw [hsplit]
    exact peekN_append (by simp)
  have hbytes : (r.payload (tlvBytes ts)).drop (25 + r.sender.length) =
      tlvBytes (r.info ++ ts) := by
    rw [r.drop_payload, tlvBytes_append]
  have hsize : sizeT (((r.payload (tlvBytes ts)).length : Int) - 25 - (r.sender.length : Int)) =
      (tlvBytes (r.info ++ ts)).length := by
    rw [sizeT_of_nonneg (by omega), tlvBytes_append, List.length_append]
    omega
  have hsplit := tlvSplit_tlvBytes (r.info ++ ts) (r.count.toNat + 1)
    (by rw [tlvBytes_append, List.length_append]; omega)
  simp only [snacGetIncomingIm, hpeek, bind, Except.bind, hsn, hcount, hsender, hbytes, hsize,
    hsplit, cstr_of_no_nul r.sender_no_nul]
  rw [hfold]

/-- The first loop on a delivery. -/
theorem foldlM_relay (w : World σ) (r : Relay) (ts : List Tlv)
    (honline : ∀ t ∈ ts, t.type = 0x0003 → t.value.val.length = 4) :
    ∃ w', (r.info ++ ts).foldlM (incomingTlv cbs r.sender) (w, false) =
        .ok (w', ts.any fun t => decide (t.type = 0x0004 ∧ t.len = 0)) ∧
      w'.client = w.client := by
  have hauto : (r.info ++ ts).any (fun t => decide (t.type = 0x0004 ∧ t.len = 0)) =
      ts.any fun t => decide (t.type = 0x0004 ∧ t.len = 0) := by
    rw [List.any_append, Bool.or_eq_right_iff_imp, List.any_eq_true]
    rintro ⟨t, ht, hmark⟩
    rw [decide_eq_true_eq, Tlv.len_eq_zero_iff] at hmark
    exact absurd hmark (r.info_not_auto t ht)
  obtain ⟨w', hfold, hclient⟩ := foldlM_incomingTlv cbs r.sender (r.info ++ ts)
    (fun t ht => (List.mem_append.mp ht).elim (r.info_onlinetime t) (honline t)) w false
  rw [Bool.false_or, hauto] at hfold
  exact ⟨w', hfold, hclient⟩

/-- The parser on a delivery: it reads the sender and the TLVs behind the
server's part. -/
theorem snacGetIncomingIm_payload (w : World σ) (r : Relay) (ts : List Tlv)
    (hlen : (r.payload (tlvBytes ts)).length ≤ 65535)
    (honline : ∀ t ∈ ts, t.type = 0x0003 → t.value.val.length = 4) :
    ∃ w', w'.client = w.client ∧
      snacGetIncomingIm cbs w (r.payload (tlvBytes ts)) (r.payload (tlvBytes ts)).length =
        incomingDeliver cbs
          (if ts.any (fun t => decide (t.type = 0x0004 ∧ t.len = 0)) then w'
            else imcommUpdateBuddyTimes cbs w' r.sender 1 0)
          r.sender (ts.any fun t => decide (t.type = 0x0004 ∧ t.len = 0)) (r.info ++ ts) := by
  obtain ⟨w', hfold, hclient⟩ := foldlM_relay cbs w r ts honline
  exact ⟨w', hclient, snacGetIncomingIm_relay cbs r ts hlen hfold⟩

/-- The parser finds the block of a message, and the text in the block. -/
theorem incomingDeliver_messageTlvs (w : World σ) (r : Relay) (msg : Str) (automsg autoResp : Bool)
    (h : msg.length < 65536 - 17) (hmsg : 0 ∉ msg) :
    incomingDeliver cbs w r.sender autoResp (r.info ++ messageTlvs msg automsg h) =
      .ok (w.fire cbs (.imIncoming r.sender autoResp msg), .ok) := by
  have hfind : (r.info ++ messageTlvs msg automsg h).find? (fun trav => trav.type = 0x0002) =
      some ⟨0x0002, tlvBytes (messageBlock msg h), by
        rw [length_messageBlock]
        omega⟩ := by
    have hinfo : r.info.find? (fun trav => trav.type = 0x0002) = none := by
      rw [List.find?_eq_none]
      intro t ht
      simpa using r.info_type t ht
    rw [List.find?_append, hinfo, Option.none_or, messageTlvs]
    rfl
  have hsplit := tlvSplit_tlvBytes (messageBlock msg h) 2
    (by rw [length_messageBlock]; omega)
  have hblock : (messageBlock msg h).find? (fun trav2 => trav2.type = 0x0101) =
      some ⟨0x0101, [0, 0, 0, 0] ++ msg, by
        simp only [List.length_append, List.length_cons, List.length_nil]
        omega⟩ := rfl
  have htext : peekN ([0, 0, 0, 0] ++ msg) 4 (sizeT ((([0, 0, 0, 0] ++ msg).length : Int) - 4)) =
      .ok msg := by
    have hlength : (([0, 0, 0, 0] : List UInt8) ++ msg).length = msg.length + 4 := by simp
    have hsize : sizeT ((([0, 0, 0, 0] ++ msg).length : Int) - 4) = msg.length := by
      rw [hlength, sizeT_of_nonneg (by omega)]
      omega
    rw [hsize]
    have hread : peekN ([0, 0, 0, 0] ++ (msg ++ [])) 4 msg.length = .ok msg := peekN_append rfl
    rwa [List.append_nil] at hread
  simp only [incomingDeliver, hfind, Tlv.toNat_len, bind, Except.bind, hsplit, hblock, messageText,
    htext, cstr_of_no_nul hmsg]
  rfl

end

/-! ## the round trip -/

/-- Is the call the delivery of a message? -/
def Callback.isIncoming : Callback → Bool
  | .imIncoming _ _ _ => true
  | _ => false

/-- Updating the idle time of a buddy tells the client about idle times
only. -/
theorem imcommUpdateBuddyTimes_recorder (w : World (List Callback)) (sn : Str) (value : Nat) :
    ∃ calls, (imcommUpdateBuddyTimes recorder w sn 1 value).client = w.client ++ calls ∧
      calls.filter Callback.isIncoming = [] := by
  have hfold : ∀ (is : List Nat) (w : World (List Callback)), ∃ calls,
      (is.foldl (imcommUpdateBuddyTimesAt recorder sn 1 value) w).client = w.client ++ calls ∧
        calls.filter Callback.isIncoming = [] := by
    intro is
    induction is with
    | nil => exact fun w => ⟨[], by simp, rfl⟩
    | cons i is ih =>
        intro w
        obtain ⟨calls, hcalls, hnone⟩ := ih (imcommUpdateBuddyTimesAt recorder sn 1 value w i)
        have hstep : (imcommUpdateBuddyTimesAt recorder sn 1 value w i).client = w.client ∨
            (imcommUpdateBuddyTimesAt recorder sn 1 value w i).client =
              w.client ++ [.imIdleinfo sn value] := by
          rw [imcommUpdateBuddyTimesAt]
          split
          · split
            · exact Or.inr rfl
            · exact Or.inl rfl
          · exact Or.inl rfl
        rw [List.foldl_cons, hcalls]
        rcases hstep with hstep | hstep
        · exact ⟨calls, by rw [hstep], hnone⟩
        · refine ⟨.imIdleinfo sn value :: calls, by rw [hstep, List.append_assoc]; rfl, ?_⟩
          rw [List.filter_cons_of_neg (by simp [Callback.isIncoming]), hnone]
  exact hfold _ w

/-- **Message round trip through a relaying server**: whatever the server
puts in front of the TLV tail of a sent body, the receiver's client is
called exactly once with a message, from the sender that the server names,
marked automatic as it was sent, and with the text that was sent. -/
theorem message_round_trip [Host] (w : World (List Callback)) (r : Relay) (whom msg : Str)
    (automsg : Bool) (hmsg : 0 ∉ msg)
    (hlen : (r.payload ((imSendMessagePacket whom msg automsg).data.drop
      (8 + 2 + 1 + whom.length))).length ≤ 65535) :
    ∃ w' calls,
      snacGetIncomingIm recorder w
        (r.payload ((imSendMessagePacket whom msg automsg).data.drop (8 + 2 + 1 + whom.length)))
        (r.payload ((imSendMessagePacket whom msg automsg).data.drop
          (8 + 2 + 1 + whom.length))).length = .ok (w', .ok) ∧
      w'.client = w.client ++ calls ∧
      calls.filter Callback.isIncoming = [.imIncoming r.sender automsg msg] := by
  have hfit : msg.length < 65536 - 17 := by
    have hpayload := r.length_payload
      ((imSendMessagePacket whom msg automsg).data.drop (8 + 2 + 1 + whom.length))
    have hdata : 28 + whom.length + msg.length ≤
        (imSendMessagePacket whom msg automsg).data.length := by
      rw [imSendMessagePacket_data]
      simp
      omega
    rw [List.length_drop] at hpayload
    omega
  have honline : ∀ t ∈ messageTlvs msg automsg hfit, t.type = 0x0003 → t.value.val.length = 4 := by
    cases automsg <;> simp [messageTlvs]
  have hauto : (messageTlvs msg automsg hfit).any
      (fun t => decide (t.type = 0x0004 ∧ t.len = 0)) = automsg := by
    cases automsg <;> simp [messageTlvs, Tlv.len_eq_zero_iff]
  rw [imSendMessagePacket_drop whom msg automsg hfit] at hlen ⊢
  obtain ⟨w', hclient, hparse⟩ := snacGetIncomingIm_payload recorder w r
    (messageTlvs msg automsg hfit) hlen honline
  rw [hauto, incomingDeliver_messageTlvs _ _ _ _ _ _ _ hmsg] at hparse
  cases automsg with
  | true =>
      refine ⟨_, [.imIncoming r.sender true msg], hparse, ?_, rfl⟩
      simp [hclient]
  | false =>
      obtain ⟨calls, hcalls, hnone⟩ := imcommUpdateBuddyTimes_recorder w' r.sender 0
      refine ⟨_, calls ++ [.imIncoming r.sender false msg], hparse, ?_, ?_⟩
      · simp [hcalls, hclient]
      · rw [List.filter_append, hnone]
        rfl

/-- A delivery from "eve" to an away "bob", who answers automatically. -/
def relayFromEve : Relay where
  header := ⟨#[0, 4, 0, 7, 0, 0, 0, 0, 0, 9], rfl⟩
  cookie := ⟨#[1, 2, 3, 4, 5, 6, 7, 8], rfl⟩
  channel := 1
  sender := ascii "eve"
  warning := 0
  count := 2
  info := [⟨0x0001, [0, 0x10], by decide⟩, ⟨0x0003, [0, 0, 0, 7], by decide⟩]
  sender_length := by decide
  sender_no_nul := by decide
  info_type := by decide
  info_not_auto := by decide
  info_onlinetime := by decide

theorem message_round_trip_auto_response :
    ∃ w' calls,
      @snacGetIncomingIm littleEndianHost _ recorder ⟨imcommCreateHandle zeroBlock, [], []⟩
        (relayFromEve.payload ((@imSendMessagePacket littleEndianHost (ascii "bob") (ascii "gone")
          true).data.drop (8 + 2 + 1 + 3)))
        (relayFromEve.payload ((@imSendMessagePacket littleEndianHost (ascii "bob") (ascii "gone")
          true).data.drop (8 + 2 + 1 + 3))).length = .ok (w', .ok) ∧
      w'.client = [] ++ calls ∧
      calls.filter Callback.isIncoming = [.imIncoming (ascii "eve") true (ascii "gone")] :=
  @message_round_trip littleEndianHost ⟨imcommCreateHandle zeroBlock, [], []⟩ relayFromEve
    (ascii "bob") (ascii "gone") true (by decide) (by decide +kernel)

end Bsflite
