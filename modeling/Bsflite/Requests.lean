import Bsflite.Flap

/-!
# Bsflite.Requests

The SNACs that `snac.c` builds by itself: the answers of the sign-on
sequence, the location packet, and `imcomm_im_send_message`.

Each builder sizes its packet by hand and ignores the answers of the
writers, so each is a `pktAddAll` over a `pktInit` of the size that the
source computes.
-/

namespace Bsflite

/-- The bytes of an ASCII string literal. -/
def ascii (s : String) : Str := s.toList.map fun c => UInt8.ofNat c.toNat

section
variable [Host]

/-! ## the sign-on sequence -/

/-- `snac_send_versions` -/
def snacSendVersions (h : Imcomm) : Imcomm × ImcommRet :=
  let packet : List UInt8 :=
    [0x00, 0x13, 0x00, 0x03, 0x00, 0x02, 0x00, 0x01, 0x00, 0x03, 0x00,
      0x01, 0x00, 0x04, 0x00, 0x01, 0x00, 0x06, 0x00, 0x01, 0x00, 0x08, 0x00, 0x01, 0x00,
      0x09, 0x00, 0x01, 0x00, 0x0A, 0x00, 0x01, 0x00, 0x0B, 0x00, 0x01, 0x00, 0x0C, 0x00,
      0x01, 0x00, 0x01, 0x00, 0x04]
  snacSend h 0x01 0x17 packet (uint16 packet.length) 0

/-- `snac_request_limits` -/
def snacRequestLimits (h : Imcomm) : Imcomm × ImcommRet := snacSend h 0x01 0x06 [] 0 0

/-- `snac_multireq` -/
def snacMultireq (h : Imcomm) : Imcomm × ImcommRet :=
  ((sendBatch h
    [⟨⟨0x01, 0x0e, []⟩, 0⟩, ⟨⟨0x13, 0x02, []⟩, 0⟩, ⟨⟨0x13, 0x04, []⟩, 0⟩, ⟨⟨0x02, 0x02, []⟩, 0⟩,
      ⟨⟨0x03, 0x02, []⟩, 0⟩, ⟨⟨0x04, 0x04, []⟩, 0⟩, ⟨⟨0x09, 0x02, []⟩, 0⟩]).1, .ok)

/-- `snac_send_cli_update` -/
def snacSendCliUpdate (h : Imcomm) : Imcomm × ImcommRet :=
  let pkt := pktAddAll (pktInit 8)
    [.add16 0x0006, .add16 0x0004, .add32 (if h.isinvisible then 0x00000100 else 0x00000000)]
  snacSendpkt h 0x01 0x1e pkt 0

/-- The encoding string of `snac_set_location_info`. -/
def idstr : Str := ascii "text/aolrtf; charset=\"iso-8859-1\""

/-- The capability block of `snac_set_location_info`. -/
def capabilities : List UInt8 :=
  [0x09, 0x46, 0x13, 0x46, 0x4c, 0x7f, 0x11, 0xd1, 0x82, 0x22, 0x44,
    0x45, 0x53, 0x54,
    0x00, 0x00,
    0x09, 0x46, 0x13, 0x4d, 0x4c, 0x7f, 0x11, 0xd1, 0x82, 0x22, 0x44,
    0x45, 0x53, 0x54, 0x00, 0x00,
    0x09, 0x46, 0x00, 0x00, 0x4c, 0x7f, 0x11, 0xd1, 0x82, 0x22, 0x44,
    0x45, 0x53, 0x54, 0x00, 0x00]

/-- The packet of `snac_set_location_info`. -/
def locationInfoPacket (h : Imcomm) : Pkt :=
  let pktlen :=
    (match h.profileStr with
      | some profile => 8 + idstr.length + profile.length
      | none => 0) +
    (match h.awayMsg with
      | some away => away.length
      | none => 0)
  let profileFields : List PktAdd :=
    match h.profileStr with
    | some profile => [.add16 0x0002, .add16 (uint16 profile.length), .addraw profile]
    | none => []
  let awayFields : List PktAdd :=
    match h.awayMsg with
    | some away => [.add16 (uint16 away.length), .addraw (away.take (uint16 away.length).toNat)]
    | none => [.add16 0x0000]
  let fields : List (List PktAdd) :=
    [[.add16 0x0001, .add16 (uint16 idstr.length), .addraw idstr], profileFields,
      [.add16 0x0003, .add16 (uint16 idstr.length), .addraw idstr, .add16 0x0004], awayFields,
      [.add16 0x0005, .add16 (uint16 capabilities.length), .addraw capabilities,
        .add16 0x0006, .add16 0x0006, .add16 0x0004, .add32 0x00020002]]
  pktAddAll (pktInit (pktlen + 10 + 8 + 4 + idstr.length + capabilities.length)) fields.flatten

/-- `snac_set_location_info` -/
def snacSetLocationInfo (h : Imcomm) : Imcomm × ImcommRet :=
  let h := (snacSendCliUpdate h).1
  ((snacSendpkt h 0x02 0x04 (locationInfoPacket h) 0).1, .ok)

/-- `snac_send_icbm_params`; the channel and the size are not used. -/
def snacSendIcbmParams (h : Imcomm) (_channel _maxMsgSize : UInt16) : Imcomm × ImcommRet :=
  let packet := pktAddAll (pktInit 16)
    [.add32 0x00000000, .add16 0x000b, .add16 0x1f40, .add16 h.maxSenderWarning,
      .add16 h.maxReceiverWarning, .add32 0x00000000]
  snacSendpkt h 0x04 0x02 packet 0

/-- The ready packet of `multi_ssiact_cliready`. -/
def cliReadyPacket : List UInt8 :=
  [0x00,
    0x13, 0x00, 0x03, 0x01, 0x10, 0x08, 0xE5, 0x00, 0x0b, 0x00, 0x01,
    0x01, 0x10, 0x08, 0xe5, 0x00, 0x0a, 0x00, 0x01, 0x01, 0x10,
    0x08, 0xe5, 0x00, 0x09, 0x00, 0x01, 0x01, 0x10, 0x08, 0xe5,
    0x00, 0x08, 0x00, 0x01, 0x01, 0x04, 0x00, 0x01, 0x00, 0x06,
    0x00, 0x01, 0x01, 0x10, 0x08, 0xe5, 0x00, 0x04, 0x00, 0x01,
    0x01, 0x10, 0x08, 0xe5, 0x00, 0x03, 0x00, 0x01, 0x01, 0x10,
    0x08, 0xe5, 0x00, 0x02, 0x00, 0x01, 0x01, 0x10, 0x08, 0xe5,
    0x00, 0x01, 0x00, 0x04, 0x01, 0x10, 0x08, 0xe5]

/-- `multi_ssiact_cliready` -/
def multiSsiactCliready {σ : Type} (cbs : Callbacks σ) (w : World σ) : World σ × ImcommRet :=
  let cliupdpkt := pktAddAll (pktInit 12)
    [.add16 0x001d, .add16 0x0008, .add32 0x00020404, .add32 0x00000000]
  let h := (sendBatch w.handle
    [⟨⟨0x01, 0x1e, cliupdpkt.data⟩, 0⟩, ⟨⟨0x01, 0x02, cliReadyPacket⟩, 0⟩,
      ⟨⟨0x13, 0x07, []⟩, 0⟩]).1
  let w := { w with handle := h }
  (w.fire cbs (.error .statusConnected none), .ok)

/-- `snac_ssi_activate`: once for a handle. -/
def snacSsiActivate {σ : Type} (cbs : Callbacks σ) (w : World σ) : World σ × ImcommRet :=
  if w.handle.connected then (w, .ok)
  else multiSsiactCliready cbs { w with handle := { w.handle with connected := true } }

/-- `snac_finish_buddy_icon`: the icon lies in the parent's handle. -/
def snacFinishBuddyIcon (h : Imcomm) : Imcomm :=
  let iconlen := uint16 h.parentIcon.length
  let newpkt := pktAddAll (pktInit (4 + iconlen.toNat))
    [.add16 0x0001, .add16 iconlen, .addraw (h.parentIcon.take iconlen.toNat)]
  (snacSendpkt h 0x10 0x02 newpkt 0).1

/-! ## messages -/

/-- The packet of `imcomm_im_send_message`. -/
def imSendMessagePacket (whom msg : Str) (automsg : Bool) : Pkt :=
  let fields : List PktAdd :=
    [.add32 0x01020304, .add32 0x05060708, .add16 0x0001, .add8 (uint8 whom.length), .addraw whom,
      .add16 0x0002, .add16 (uint16 (msg.length + 13)), .add32 0x05010001, .add8 0x01,
      .add16 0x0101, .add16 (uint16 (msg.length + 4)), .add32 0x00000000, .addraw msg]
  let autoFields : List PktAdd := if automsg then [.add16 0x0004, .add16 0x0000] else []
  pktAddAll (pktInit (28 + whom.length + msg.length + 4 * automsg.toNat)) (fields ++ autoFields)

/-- `imcomm_im_send_message` -/
def imcommImSendMessage (h : Imcomm) (whom msg : Str) (automsg : Bool) : Imcomm :=
  (snacSendpkt h 0x04 0x06 (imSendMessagePacket whom msg automsg) (if automsg then 0 else 1)).1

end

end Bsflite
