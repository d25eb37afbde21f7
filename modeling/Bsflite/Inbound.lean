import Bsflite.Roster
import Bsflite.Signon

/-!
# Bsflite.Inbound

The inbound side of the library: `flap_decode`, `snac_decode` and the
parsers they dispatch to.

A parser gets the whole payload of the frame and its length, as in the
source; `data.drop k` is the pointer `data + k`.  Every read goes through
`peek`, `peekN`, `twoTo16`, `fourTo32` or a `pkt_t`, so a parser answers
`Fault.oob` exactly when the program reads outside the payload or outside a
TLV value.  The library's own calls into the client happen on the way.
-/

namespace Bsflite

section
variable [Host]

/-! ## sign-on -/

/-- The loop of `snac_get_srv_families`. -/
def srvFamiliesLoop : Nat → Pkt → Except Fault (List UInt16)
  | 0, _ => .error .hang
  | fuel + 1, inpkt =>
    if pktEnd inpkt then return []
    else do
      let (family, inpkt) ← pktGet16 inpkt
      let families ← srvFamiliesLoop fuel inpkt
      return family :: families

/-- `snac_get_srv_families` -/
def snacGetSrvFamilies (h : Imcomm) (data : List UInt8) (len : Nat) : Except Fault Imcomm := do
  let inpkt := pktInitP data (uint16 len)
  if pktEnd inpkt then return h
  else
    let (family, inpkt) ← pktGet16 inpkt
    let families ← srvFamiliesLoop (inpkt.len + 1) inpkt
    return { h with families := family :: families, numFamilies := families.length + 1 }

/-- The first loop of `snac_ack_limits`, for the number of classes left;
the cursor has 16 bits. -/
def ackLimitsLoop (data : List UInt8) : Nat → UInt16 → Except Fault (List UInt16)
  | 0, _ => return []
  | n + 1, x => do
    let id ← twoTo16 (data.drop x.toNat)
    let ids ← ackLimitsLoop data n (x + 35)
    return id :: ids

/-- `snac_ack_limits`; the length is not used. -/
def snacAckLimits (h : Imcomm) (data : List UInt8) (_len : Nat) :
    Except Fault (Imcomm × ImcommRet) := do
  let numClasses ← twoTo16 data
  let ids ← ackLimitsLoop data numClasses.toNat 2
  let pkt := pktAddAll (pktInit (numClasses.toNat * 2)) (ids.map PktAdd.add16)
  let (h, ret) := snacSendpkt h 0x01 0x08 pkt 0
  if ret ≠ .ok then return (h, .error) else return snacMultireq h

/-- The body of the loop for SNAC (03,03). -/
def buddyRightsTlv (h : Imcomm) (trav : Tlv) : Except Fault Imcomm :=
  if trav.type = 0x01 then
    if 2 ≤ trav.len then do
      let v ← twoTo16 trav.value.val
      return { h with maxBuddylistSize := v }
    else return h
  else if trav.type = 0x02 then
    if 2 ≤ trav.len then do
      let v ← twoTo16 trav.value.val
      return { h with maxNumWatchers := v }
    else return h
  else if trav.type = 0x03 then
    if 2 ≤ trav.len then do
      let v ← twoTo16 trav.value.val
      return { h with maxOnlineNotifications := v }
    else return h
  else return h

/-- The body of the loop of `snac_get_privacy_rights`; unlike SNAC (03,03)
it does not look at the lengths. -/
def privacyRightsTlv (h : Imcomm) (trav : Tlv) : Except Fault Imcomm :=
  if trav.type = 0x0001 then do
    let v ← twoTo16 trav.value.val
    return { h with maxVisibleListSize := v }
  else if trav.type = 0x0002 then do
    let v ← twoTo16 trav.value.val
    return { h with maxInvisibleListSize := v }
  else return h

/-- `snac_get_privacy_rights` -/
def snacGetPrivacyRights (h : Imcomm) (data : List UInt8) (len : Nat) :
    Except Fault (Imcomm × ImcommRet) := do
  let tlvlist ← tlvSplit (data.drop 10) (sizeT (len - 10)) 2
  let h ← tlvlist.foldlM privacyRightsTlv h
  return (h, .ok)

section
variable {σ : Type} (cbs : Callbacks σ)

/-! ## presence -/

/-- `snac_get_signoff` -/
def snacGetSignoff (w : World σ) (data : List UInt8) (_len : Nat) :
    Except Fault (World σ × ImcommRet) := do
  let snLen ← peek data 10
  let sn ← peekN data 11 snLen.toNat
  let w := { w with handle := imcommInternalDeleteBuddy w.handle (cstr sn) }
  return (w.fire cbs (.imSignoff (cstr sn)), .ok)

/-- What the loop of `snac_get_signon` collects. -/
structure SignonInfo where
  idletime : Nat
  onlinetime : Nat
  isaway : Bool

/-- The body of the loop of `snac_get_signon`. -/
def signonTlv (sn : Str) (s : World σ × SignonInfo) (temp : Tlv) :
    Except Fault (World σ × SignonInfo) :=
  if temp.type = 0x0004 then do
    let v ← twoTo16 temp.value.val
    return (s.1, { s.2 with idletime := v.toNat })
  else if temp.type = 0x0001 then do
    let flags ← peek temp.value.val 1
    if flags = 0x30 ∨ flags = 0x31 ∨ flags = 0x24 then
      return (s.1, { s.2 with isaway := true })
    else return s
  else if temp.type = 0x0003 then do
    let v ← fourTo32 temp.value.val
    return (imcommUpdateBuddyTimes cbs s.1 sn 2 v.toNat, { s.2 with onlinetime := v.toNat })
  else return s

/-- The end of `snac_get_signon`: a buddy who is online already is updated,
a new one is announced. -/
def signonAnnounce (w : World σ) (sn : Str) (info : SignonInfo) : World σ :=
  let (w, added) := imcommInternalAddBuddy w sn info.idletime info.onlinetime info.isaway
  if added then
    let w := w.fire cbs (.imSignon sn)
    let w := w.fire cbs (.imIdleinfo sn info.idletime)
    if info.isaway then w.fire cbs (.imBuddyaway sn) else w
  else
    let w := imcommUpdateBuddyTimes cbs w sn 1 info.idletime
    imcommUpdateBuddyAway cbs w sn info.isaway

/-- `snac_get_signon` -/
def snacGetSignon (w : World σ) (data : List UInt8) (len : Nat) :
    Except Fault (World σ × ImcommRet) := do
  let snLen ← peek data 10
  let numtlv ← twoTo16 (data.drop (13 + snLen.toNat))
  let sn ← peekN data 11 snLen.toNat
  let tlvlist ← tlvSplit (data.drop (11 + snLen.toNat + 4))
    (sizeT (len - 11 - snLen.toNat - 4)) numtlv.toNat
  let (w, info) ← tlvlist.foldlM (signonTlv cbs (cstr sn)) (w, ⟨0, 0, false⟩)
  return (signonAnnounce cbs w (cstr sn) info, .ok)

/-! ## messages -/

/-- The body of the first loop of `snac_get_incoming_im`. -/
def incomingTlv (sn : Str) (s : World σ × Bool) (trav : Tlv) : Except Fault (World σ × Bool) := do
  let autoResp := s.2 || decide (trav.type = 0x0004 ∧ trav.len = 0)
  if trav.type = 0x0003 then
    let v ← fourTo32 trav.value.val
    return (imcommUpdateBuddyTimes cbs s.1 sn 2 v.toNat, autoResp)
  else return (s.1, autoResp)

/-- The text in a message block (type 0x0101): its first four bytes are
skipped. -/
def messageText (trav2 : Tlv) : Except Fault (List UInt8) :=
  peekN trav2.value.val 4 (sizeT (trav2.len.toNat - 4))

/-- The end of `snac_get_incoming_im`, with the TLVs of the packet. -/
def incomingDeliver (w : World σ) (sn : Str) (autoResp : Bool) (tlvlist : List Tlv) :
    Except Fault (World σ × ImcommRet) :=
  match tlvlist.find? (fun trav => trav.type = 0x0002) with
  | none => return (w, .error)
  | some trav => do
    let subtlv ← tlvSplit trav.value.val trav.len.toNat 2
    match subtlv.find? (fun trav2 => trav2.type = 0x0101) with
    | none => return (w, .error)
    | some trav2 =>
      let msg ← messageText trav2
      return (w.fire cbs (.imIncoming sn autoResp (cstr msg)), .ok)

/-- `snac_get_incoming_im` -/
def snacGetIncomingIm (w : World σ) (data : List UInt8) (len : Nat) :
    Except Fault (World σ × ImcommRet) := do
  let snLen ← peek data 20
  let numtlv ← twoTo16 (data.drop (snLen.toNat + 23))
  let sn ← peekN data 21 snLen.toNat
  let tlvlist ← tlvSplit (data.drop (25 + snLen.toNat)) (sizeT (len - 25 - snLen.toNat))
    (numtlv.toNat + 1)
  let (w, autoResp) ← tlvlist.foldlM (incomingTlv cbs (cstr sn)) (w, false)
  let w := if autoResp then w else imcommUpdateBuddyTimes cbs w (cstr sn) 1 0
  incomingDeliver cbs w (cstr sn) autoResp tlvlist

/-! ## profiles -/

/-- The body of the loop of `snac_get_user_info`: the profile and the away
message found so far. -/
def userInfoTlv (s : Option Str × Option Str) (trav : Tlv) : Option Str × Option Str :=
  if trav.type = 0x02 then (some (cstr trav.value.val), s.2)
  else if trav.type = 0x04 then
    if trav.len = 2 then s else (s.1, some (cstr trav.value.val))
  else s

/-- The end of `snac_get_user_info`: the first two TLVs are skipped, and a
profile goes before an away message. -/
def userInfoDeliver (w : World σ) (sn : Str) (tlvlist : List Tlv) : World σ :=
  match tlvlist with
  | [] => w
  | [_] => w
  | _ :: _ :: rest =>
    match rest.foldl userInfoTlv (none, none) with
    | (some profilestr, _) => w.fire cbs (.imProfile sn profilestr)
    | (none, some awaymsg) => w.fire cbs (.imAwaymsg sn awaymsg)
    | (none, none) => w

/-- `snac_get_user_info` -/
def snacGetUserInfo (w : World σ) (data : List UInt8) (len : UInt16) : Except Fault (World σ) := do
  let snLen ← peek data 0
  let sn ← peekN data 1 snLen.toNat
  let numtlv ← peek data (snLen.toNat + 4)
  let tlvlist ← tlvSplit (data.drop (5 + snLen.toNat)) (sizeT (len.toNat - 5 - snLen.toNat))
    (numtlv.toNat + 2)
  return userInfoDeliver cbs w (cstr sn) tlvlist

end

/-! ## dispatch -/

section
variable [Network] {σ : Type} (cbs : Callbacks σ)

/-- The answer of a function that only touches the handle. -/
def World.answer (w : World σ) (r : Imcomm × ImcommRet) : World σ × ImcommRet :=
  ({ w with handle := r.1 }, r.2)

/-- The part of `snac_decode` for child handles. -/
def snacDecodeChild (w : World σ) (data : List UInt8) (family subfamily : UInt16) :
    Except Fault (World σ × ImcommRet) :=
  if family = 0x0001 ∧ subfamily = 0x0003 then do
    let a ← peek data 12
    if a = 0x00 then
      let b ← peek data 13
      if b = 0x10 then return ({ w with handle := snacFinishBuddyIcon w.handle }, .ok)
      else return (w, .ok)
    else return (w, .ok)
  else if family = 0x0010 ∧ subfamily = 0x0003 then
    return ({ w with handle := { w.handle with toDelete := true } }, .ok)
  else return (w, .ok)

/-- Family 0x0001 in `snac_decode`. -/
def snacDecodeGeneric (w : World σ) (data : List UInt8) (len : Nat) (subfamily flags : UInt16) :
    Except Fault (World σ × ImcommRet) :=
  if subfamily = 0x0003 then do
    let h ← snacGetSrvFamilies w.handle (data.drop 10) (sizeT (len - 10))
    return w.answer (snacSendVersions h)
  else if subfamily = 0x0005 then do
    let w ← snacNewSubconnection w (data.drop 18) (uint16 (len - 18))
    return (w, .ok)
  else if subfamily = 0x0018 then return w.answer (snacRequestLimits w.handle)
  else if subfamily = 0x0007 then do
    let r ← snacAckLimits w.handle (data.drop 10) (sizeT (len - 10))
    return w.answer r
  else if subfamily = 0x000a then
    if cbs.registered .error then do
      let arg ← peek data 19
      return (w.fire cbs (.error .rateLimitWarn (some arg)), .ok)
    else return (w, .ok)
  else if subfamily = 0x000f then
    if flags = 0x8000 then return (w, .ok)
    else do
      let snLen ← peek data 10
      let sn ← peekN data 11 snLen.toNat
      return (w.fire cbs (.formattedSn (cstr sn)), .ok)
  else return (w, .ok)

/-- Family 0x0002 in `snac_decode`. -/
def snacDecodeLocation (w : World σ) (data : List UInt8) (len : Nat) (subfamily : UInt16) :
    Except Fault (World σ × ImcommRet) :=
  if subfamily = 0x0003 then do
    let maxProfileLen ← twoTo16 (data.drop 14)
    let maxCapabilities ← twoTo16 (data.drop 20)
    return w.answer (snacSetLocationInfo
      { w.handle with maxProfileLen := maxProfileLen, maxCapabilities := maxCapabilities })
  else if subfamily = 0x0006 then do
    let w ← snacGetUserInfo cbs w (data.drop 10) (uint16 (len - 10))
    return (w, .ok)
  else return (w, .ok)

/-- Family 0x0003 in `snac_decode`. -/
def snacDecodeBuddy (w : World σ) (data : List UInt8) (len : Nat) (subfamily : UInt16) :
    Except Fault (World σ × ImcommRet) :=
  if subfamily = 0x0003 then do
    let tlvlist ← tlvSplit (data.drop 10) (sizeT (len - 10)) 3
    let h ← tlvlist.foldlM buddyRightsTlv w.handle
    return ({ w with handle := h }, .ok)
  else if subfamily = 0x0C then snacGetSignoff cbs w data len
  else if subfamily = 0x0B then snacGetSignon cbs w data len
  else return (w, .ok)

/-- Family 0x0004 in `snac_decode`. -/
def snacDecodeIcbm (w : World σ) (data : List UInt8) (len : Nat) (subfamily : UInt16) :
    Except Fault (World σ × ImcommRet) :=
  if subfamily = 0x0001 then do
    let reason ← peek data 11
    if reason = 0x04 then return (w.fire cbs (.error .errorUserOffline none), .ok)
    else return (w, .ok)
  else if subfamily = 0x0005 then do
    let maxMessageSize ← twoTo16 (data.drop 16)
    let maxSenderWarning ← twoTo16 (data.drop 18)
    let maxReceiverWarning ← twoTo16 (data.drop 20)
    let maxMessageInterval ← twoTo16 (data.drop 22)
    let channel ← twoTo16 (data.drop 10)
    return w.answer (snacSendIcbmParams
      { w.handle with
        maxMessageSize := maxMessageSize
        maxSenderWarning := maxSenderWarning
        maxReceiverWarning := maxReceiverWarning
        maxMessageInterval := maxMessageInterval } channel 1024)
  else if subfamily = 0x0007 then snacGetIncomingIm cbs w data len
  else return (w, .ok)

/-- `snac_decode` -/
def snacDecode (w : World σ) (data : List UInt8) (len : UInt16) :
    Except Fault (World σ × ImcommRet) :=
  if len ≤ 4 then return (w, .ok)
  else do
    let family ← twoTo16 data
    let subfamily ← twoTo16 (data.drop 2)
    let flags ← twoTo16 (data.drop 4)
    if w.handle.ischild then snacDecodeChild w data family subfamily
    else if family = 0x0017 then
      let w ← bosMd5snac cbs w data len.toNat
      return (w, .ok)
    else if family = 0x0001 then snacDecodeGeneric cbs w data len.toNat subfamily flags
    else if family = 0x0002 then snacDecodeLocation cbs w data len.toNat subfamily
    else if family = 0x0003 then snacDecodeBuddy cbs w data len.toNat subfamily
    else if family = 0x0004 then snacDecodeIcbm cbs w data len.toNat subfamily
    else if family = 0x0009 then
      if subfamily = 0x0003 then
        let r ← snacGetPrivacyRights w.handle data len.toNat
        return w.answer r
      else return (w, .ok)
    else if family = 0x0013 then
      if subfamily = 0x0006 then
        let h ← snacSsiGetList w.handle data len.toNat
        return snacSsiActivate cbs { w with handle := h }
      else return (w, .ok)
    else return (w, .ok)

/-- `shutdown` of the socket of the handle, which is then gone. -/
def World.closeSocket (w : World σ) : World σ :=
  { w with handle := { w.handle with socket := -1 } }

/-- The authorization cookie in a frame on channel 4. -/
def srvCookie (w : World σ) (packet : Pkt) : Except Fault (World σ × ImcommRet) := do
  let (serverLen, packet) ← pktGet16 packet
  let (server, packet) ← pktGetstr packet serverLen.toNat
  let (_subfamily, packet) ← pktGet16 packet
  let (cookieLen, packet) ← pktGet16 packet
  let (cookie, _packet) ← pktGetstr packet cookieLen.toNat
  let w := w.fire cbs (.error .statusAuthdone none)
  let r ← bosSignonPhase2 w.handle (cstr server) cookie cookieLen
  return w.answer r

/-- Channel 4 in `flap_decode`. -/
def flapDecodeSignoff (w : World σ) (packet : Pkt) : Except Fault (World σ × ImcommRet) := do
  let (family, packet) ← pktGet16 packet
  if family = 0x0009 then
    let (subfamily, _packet) ← pktGet16 packet
    if subfamily = 0x0002 then
      return ((w.fire cbs (.error .errorOtherSignon none)).closeSocket, .ok)
    else return (w, .ok)
  else if family = 0x0001 then
    let (snLen, packet) ← pktGet16 packet
    let (sn, packet) ← pktGetstr packet snLen.toNat
    let w := w.fire cbs (.formattedSn (cstr sn))
    let (subfamily, packet) ← pktGet16 packet
    if subfamily = 0x0005 then srvCookie cbs w packet
    else if subfamily = 0x0008 ∨ subfamily = 0x0004 then
      return ((w.fire cbs (.error .errorInvalidLogin none)).closeSocket, .ok)
    else return (w, .ok)
  else return (w, .ok)

/-- `flap_decode` -/
def flapDecode (w : World σ) (header data : List UInt8) : Except Fault (World σ × ImcommRet) := do
  let len ← twoTo16 (header.drop 4)
  let channel ← peek header 1
  if channel = 0x02 then snacDecode cbs w data len
  else if channel = 0x04 then flapDecodeSignoff cbs w (pktInitP data len)
  else return (w, .ok)

end

end

end Bsflite
