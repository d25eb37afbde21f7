import Bsflite.Ensures
import Bsflite.Idle
import Bsflite.Inside
import Bsflite.Online
import Bsflite.RateLimits

/-!
# Bsflite.Replies

What the library answers by itself: versions, rate limits, parameters, the
location, and once that it is ready.

* `replies` — what it answers to a payload.
* `Passive` — what the parsers that answer nothing keep.
* `snacDecode_handled` — a payload is answered so, and by nothing else.
-/

namespace Bsflite

/-! ## answers -/

/-- The families and their versions. -/
def versions : SnacBody :=
  ⟨0x01, 0x17, [(0x13, 3), (0x02, 1), (0x03, 1), (0x04, 1), (0x06, 1), (0x08, 1), (0x09, 1),
    (0x0A, 1), (0x0B, 1), (0x0C, 1), (0x01, 4)].flatMap fun v => be16 v.1 ++ be16 v.2⟩

/-- The client's status. -/
def cliUpdate (isinvisible : Bool) : SnacBody :=
  ⟨0x01, 0x1e, be16 0x0006 ++ be16 0x0004 ++ be32 (if isinvisible then 0x00000100 else 0x00000000)⟩

/-- The ICBM parameters. -/
def icbmParams (maxSenderWarning maxReceiverWarning : UInt16) : SnacBody :=
  ⟨0x04, 0x02, be32 0x00000000 ++ be16 0x000b ++ be16 0x1f40 ++ be16 maxSenderWarning ++
    be16 maxReceiverWarning ++ be32 0x00000000⟩

/-- The batch that ends a sign-on. -/
def readyBodies : List SnacBody :=
  [⟨0x01, 0x1e, be16 0x001d ++ be16 0x0008 ++ be32 0x00020404 ++ be32 0x00000000⟩,
    ⟨0x01, 0x02, cliReadyPacket⟩, ⟨0x13, 0x07, []⟩]

/-- Is it the SNAC (01,02) that says that the client is ready? -/
def SnacBody.isReady (b : SnacBody) : Bool := b.family = 0x01 ∧ b.subtype = 0x02

/-- Is it a location SNAC (02,04)? -/
def SnacBody.isLocation (b : SnacBody) : Bool := b.family = 0x02 ∧ b.subtype = 0x04

/-- Is it a SNAC (01,1e) that tells whether the user is invisible? -/
def SnacBody.isStatus (b : SnacBody) : Bool :=
  b.family = 0x01 ∧ b.subtype = 0x1e ∧ b.data.take 2 = be16 0x0006

/-- SNACs that the library sends of its own accord. -/
def SnacBody.isOwn (b : SnacBody) : Bool := b.isReady || b.isLocation || b.isStatus

section
variable [Host]

/-- The rate classes as they are acknowledged; a response that cannot be read
is not. -/
def rateIds (data : List UInt8) : SnacBody :=
  ⟨0x01, 0x08, match ackLimitsLoop data (wordAt data 0).toNat 2 with
    | .ok ids => ids.flatMap be16
    | .error _ => []⟩

/-- The answers in family 0x0001. -/
def genericReplies (data : List UInt8) (subtype : UInt16) : List SnacBody :=
  if subtype = 0x0003 then [versions]
  else if subtype = 0x0018 then [⟨0x01, 0x06, []⟩]
  else if subtype = 0x0007 then (rateIds (data.drop 10)).cut :: multireqBodies
  else []

/-- The location of a handle, as it is sent. -/
def locationBody (h : Imcomm) : SnacBody :=
  SnacBody.cut ⟨0x02, 0x04, (locationInfoPacket h).data⟩

/-- What `snac_set_location_info` sends. -/
def locationBodies (h : Imcomm) : List SnacBody := [cliUpdate h.isinvisible, locationBody h]

/-- It does not say that the client is ready, and what it tells of the user is
so. -/
structure SnacBody.Fair (h : Imcomm) (b : SnacBody) : Prop where
  ready : b.isReady = false
  location : b.isLocation → b = locationBody h
  status : b.isStatus → b = cliUpdate h.isinvisible

theorem SnacBody.fair_of_other {b : SnacBody} (h : Imcomm) (hb : b.isOwn = false) : b.Fair h := by
  simp only [SnacBody.isOwn, Bool.or_eq_false_iff] at hb
  obtain ⟨⟨hready, hlocation⟩, hstatus⟩ := hb
  exact ⟨hready, fun h => absurd hlocation (by simp [h]), fun h => absurd hstatus (by simp [h])⟩

theorem locationBodies_fair (h : Imcomm) : ∀ b ∈ locationBodies h, b.Fair h := by
  intro b hb
  rcases List.mem_cons.mp hb with rfl | hb
  · exact ⟨rfl, nofun, fun _ => rfl⟩
  · rw [List.mem_singleton.mp hb]
    exact ⟨rfl, fun _ => rfl, nofun⟩

/-- The answer in family 0x0002. -/
def locationReplies (h : Imcomm) (subtype : UInt16) : List SnacBody :=
  if subtype = 0x0003 then locationBodies h else []

/-- The answer in family 0x0004. -/
def icbmReplies (data : List UInt8) (subtype : UInt16) : List SnacBody :=
  if subtype = 0x0005 then [icbmParams (wordAt data 18) (wordAt data 20)] else []

/-- The answer to a login key. -/
def loginReplies (h : Imcomm) (data : List UInt8) : List SnacBody :=
  match h.pw, h.sn with
  | some pw, some sn =>
    if byteAt data 3 = 0x07 then
      let key := (data.drop 12).take (wordAt data 10).toNat
      [SnacBody.cut ⟨0x17, 0x02,
        (loginPacket sn (Host.md5 (key ++ pw ++ aimMd5String)).toList).data⟩]
    else []
  | _, _ => []

/-- What the library answers to a payload. -/
def replies (h : Imcomm) (data : List UInt8) : List SnacBody :=
  let family := wordAt data 0
  let subtype := wordAt data 2
  if data.length ≤ 4 then []
  else if family = 0x0017 then loginReplies h data
  else if family = 0x0001 then genericReplies data subtype
  else if family = 0x0002 then locationReplies h subtype
  else if family = 0x0004 then icbmReplies data subtype
  else if family = 0x0013 ∧ subtype = 0x0006 then if h.connected then [] else readyBodies
  else []

end

/-! ## reads -/

section
variable [Host] {α : Type} {P : α → Prop} (data : List UInt8) (i : Nat)

theorem ensures_twoTo16_drop {f : UInt16 → Except Fault α} (h : Ensures (f (wordAt data i)) P) :
    Ensures (twoTo16 (data.drop i) >>= f) P := by
  rw [twoTo16_drop_eq]
  split
  · exact h
  · exact Ensures.error

theorem ensures_twoTo16 {f : UInt16 → Except Fault α} (h : Ensures (f (wordAt data 0)) P) :
    Ensures (twoTo16 data >>= f) P := ensures_twoTo16_drop data 0 h

omit [Host] in
theorem ensures_peek {f : UInt8 → Except Fault α} (h : Ensures (f (byteAt data i)) P) :
    Ensures (peek data i >>= f) P := by
  rw [peek_eq]
  split
  · exact h
  · exact Ensures.error

omit [Host] in
theorem ensures_peekN (n : Nat) {f : List UInt8 → Except Fault α}
    (h : Ensures (f ((data.drop i).take n)) P) : Ensures (peekN data i n >>= f) P := by
  rw [peekN]
  split
  · exact h
  · exact Ensures.error

end

/-! ## parsers that answer nothing -/

/-- What sends go by is the same in both handles. -/
structure SameWire (h h' : Imcomm) : Prop where
  link : h'.link = h.link
  seqnum : h'.seqnum = h.seqnum
  snacreq : h'.snacreq = h.snacreq
  srvPause : h'.srvPause = h.srvPause
  isidle : h'.isidle = h.isidle
  ischild : h'.ischild = h.ischild
  connected : h'.connected = h.connected
  socket : h'.socket = h.socket

/-- What sends go by, and what they tell of the user, is the same. -/
structure SameUser (h h' : Imcomm) : Prop extends SameWire h h' where
  isinvisible : h'.isinvisible = h.isinvisible
  profileStr : h'.profileStr = h.profileStr
  isaway : h'.isaway = h.isaway
  awayMsg : h'.awayMsg = h.awayMsg

theorem SameUser.refl (h : Imcomm) : SameUser h h :=
  ⟨⟨rfl, rfl, rfl, rfl, rfl, rfl, rfl, rfl⟩, rfl, rfl, rfl, rfl⟩

theorem SameUser.trans {h h' h'' : Imcomm} (h1 : SameUser h h') (h2 : SameUser h' h'') :
    SameUser h h'' where
  link := h2.link.trans h1.link
  seqnum := h2.seqnum.trans h1.seqnum
  snacreq := h2.snacreq.trans h1.snacreq
  srvPause := h2.srvPause.trans h1.srvPause
  isidle := h2.isidle.trans h1.isidle
  ischild := h2.ischild.trans h1.ischild
  connected := h2.connected.trans h1.connected
  socket := h2.socket.trans h1.socket
  isinvisible := h2.isinvisible.trans h1.isinvisible
  profileStr := h2.profileStr.trans h1.profileStr
  isaway := h2.isaway.trans h1.isaway
  awayMsg := h2.awayMsg.trans h1.awayMsg

theorem SameWire.flowing {h h' : Imcomm} (hs : SameWire h h') (hf : h.Flowing) : h'.Flowing :=
  ⟨by rw [hs.link]; exact hf.accepting, hs.srvPause.trans hf.srvPause⟩

section
variable {σ : Type} (cbs : Callbacks σ)

/-- The call that tells the client that it is connected. -/
def Callback.isConnected (c : Callback) : Bool := c = .error .statusConnected none

/-- A relation between worlds that is kept when nothing is answered. -/
structure Passive (R : World σ → World σ → Prop) : Prop where
  refl : ∀ w, R w w
  trans : ∀ {w w' w''}, R w w' → R w' w'' → R w w''
  handle : ∀ w h, SameUser w.handle h → R w { w with handle := h }
  children : ∀ w cs, R w { w with children := cs }
  fire : ∀ w c, c.isConnected = false → R w (w.fire cbs c)

namespace Passive

variable {cbs} {R : World σ → World σ → Prop} (hR : Passive cbs R)
include hR

theorem foldl {ι : Type} {f : World σ → ι → World σ} (hf : ∀ w i, R w (f w i)) (is : List ι)
    (w : World σ) : R w (is.foldl f w) := by
  induction is generalizing w with
  | nil => exact hR.refl w
  | cons i is ih => exact hR.trans (hf w i) (ih _)

theorem online (w : World σ) (online : List OnlineBuddy) : R w (w.withOnline online) :=
  hR.handle w _ ⟨⟨rfl, rfl, rfl, rfl, rfl, rfl, rfl, rfl⟩, rfl, rfl, rfl, rfl⟩

theorem setOnline (w : World σ) (i : Nat) (b : OnlineBuddy) : R w (w.setOnline i b) :=
  hR.online w _

theorem updateBuddyTimes (w : World σ) (sn : Str) (type value : Nat) :
    R w (imcommUpdateBuddyTimes cbs w sn type value) := by
  refine hR.foldl (fun w i => ?_) _ w
  rw [imcommUpdateBuddyTimesAt]
  split
  · split
    · split
      · exact hR.trans (hR.setOnline w i _) (hR.fire _ _ rfl)
      · exact hR.setOnline w i _
      · exact hR.refl w
    · exact hR.refl w
  · exact hR.refl w

theorem updateBuddyAway (w : World σ) (sn : Str) (isaway : Bool) :
    R w (imcommUpdateBuddyAway cbs w sn isaway) := by
  simp only [imcommUpdateBuddyAway]
  split
  · split
    · refine hR.trans (hR.setOnline w _ _) (hR.fire _ _ ?_)
      cases isaway <;> rfl
    · exact hR.refl w
  · exact hR.refl w

theorem signoff (w : World σ) (data : List UInt8) (len : Nat) :
    Ensures (snacGetSignoff cbs w data len) fun r => R w r.1 :=
  Ensures.read fun _ _ => Ensures.read fun _ _ =>
    Ensures.pure (hR.trans (hR.online w _) (hR.fire _ _ rfl))

theorem announce (w : World σ) (sn : Str) (info : SignonInfo) :
    R w (signonAnnounce cbs w sn info) := by
  have hadd : R w (imcommInternalAddBuddy w sn info.idletime info.onlinetime info.isaway).1 := by
    simp only [imcommInternalAddBuddy]
    split
    · exact hR.refl w
    · exact hR.online w _
  rw [signonAnnounce]
  generalize imcommInternalAddBuddy w sn info.idletime info.onlinetime info.isaway = r at hadd ⊢
  obtain ⟨w', added⟩ := r
  cases added with
  | false =>
    exact hR.trans (hR.trans hadd (hR.updateBuddyTimes w' sn 1 _)) (hR.updateBuddyAway _ sn _)
  | true =>
    have htold := hR.trans (hR.trans hadd (hR.fire w' (.imSignon sn) rfl))
      (hR.fire _ (.imIdleinfo sn info.idletime) rfl)
    simp only [if_true]
    split
    · exact hR.trans htold (hR.fire _ _ rfl)
    · exact htold

theorem signon [Host] (w : World σ) (data : List UInt8) (len : Nat) :
    Ensures (snacGetSignon cbs w data len) fun r => R w r.1 := by
  refine Ensures.read fun snLen _ => Ensures.read fun numtlv _ => Ensures.read fun sn _ =>
    Ensures.read fun tlvlist _ => Ensures.bind (P := fun s => R w s.1) ?_ fun s hs =>
      Ensures.pure (hR.trans hs (hR.announce _ _ _))
  refine Ensures.foldlM (fun s temp hs => ?_) tlvlist (hR.refl w)
  rw [signonTlv]
  refine Ensures.ite (fun _ => Ensures.read fun _ _ => Ensures.pure hs) fun _ =>
    Ensures.ite (fun _ => Ensures.read fun _ _ => Ensures.ite (fun _ => Ensures.pure hs)
      fun _ => Ensures.pure hs) fun _ => Ensures.ite (fun _ => Ensures.read fun _ _ =>
        Ensures.pure (hR.trans hs (hR.updateBuddyTimes _ _ _ _))) fun _ => Ensures.pure hs

theorem deliver [Host] (w : World σ) (sn : Str) (autoResp : Bool) (tlvlist : List Tlv) :
    Ensures (incomingDeliver cbs w sn autoResp tlvlist) fun r => R w r.1 := by
  unfold incomingDeliver
  split
  · exact Ensures.pure (hR.refl w)
  · refine Ensures.read fun subtlv _ => ?_
    split
    · exact Ensures.pure (hR.refl w)
    · exact Ensures.read fun msg _ => Ensures.pure (hR.fire w _ rfl)

theorem incoming [Host] (w : World σ) (data : List UInt8) (len : Nat) :
    Ensures (snacGetIncomingIm cbs w data len) fun r => R w r.1 := by
  refine Ensures.read fun snLen _ => Ensures.read fun numtlv _ => Ensures.read fun sn _ =>
    Ensures.read fun tlvlist _ => Ensures.bind (P := fun s => R w s.1) ?_ fun s hs => ?_
  · refine Ensures.foldlM (fun s trav hs => ?_) tlvlist (hR.refl w)
    rw [incomingTlv]
    exact Ensures.ite (fun _ => Ensures.read fun _ _ =>
      Ensures.pure (hR.trans hs (hR.updateBuddyTimes _ _ _ _))) fun _ => Ensures.pure hs
  · have hidle : R w (if s.2 then s.1 else imcommUpdateBuddyTimes cbs s.1 (cstr sn) 1 0) := by
      split
      · exact hs
      · exact hR.trans hs (hR.updateBuddyTimes _ _ _ _)
    exact (hR.deliver _ _ _ _).mono fun r hr => hR.trans hidle hr

theorem userInfo [Host] (w : World σ) (data : List UInt8) (len : UInt16) :
    Ensures (snacGetUserInfo cbs w data len) (R w) := by
  refine Ensures.read fun snLen _ => Ensures.read fun sn _ => Ensures.read fun numtlv _ =>
    Ensures.read fun tlvlist _ => Ensures.pure ?_
  unfold userInfoDeliver
  split
  · exact hR.refl w
  · exact hR.refl w
  · split
    · exact hR.fire w _ rfl
    · exact hR.fire w _ rfl
    · exact hR.refl w

end Passive

end

/-! ## settings -/

section
variable [Host] {h : Imcomm}

theorem srvFamilies_same (data : List UInt8) (len : Nat) :
    Ensures (snacGetSrvFamilies h data len) (SameUser h) := by
  rw [snacGetSrvFamilies]
  exact Ensures.ite (fun _ => Ensures.pure (.refl h)) fun _ => Ensures.read fun _ _ =>
    Ensures.read fun _ _ =>
      Ensures.pure ⟨⟨rfl, rfl, rfl, rfl, rfl, rfl, rfl, rfl⟩, rfl, rfl, rfl, rfl⟩

theorem buddyRights_same (tlvlist : List Tlv) :
    Ensures (tlvlist.foldlM buddyRightsTlv h) (SameUser h) := by
  refine Ensures.foldlM (fun h' trav hs => ?_) tlvlist (.refl h)
  rw [buddyRightsTlv]
  have hset (h'' : Imcomm) (hsame : SameUser h' h'') : SameUser h h'' := hs.trans hsame
  refine Ensures.ite (fun _ => ?_) fun _ => Ensures.ite (fun _ => ?_) fun _ =>
    Ensures.ite (fun _ => ?_) fun _ => Ensures.pure hs
  all_goals
    exact Ensures.ite (fun _ => Ensures.read fun _ _ =>
      Ensures.pure (hset _ ⟨⟨rfl, rfl, rfl, rfl, rfl, rfl, rfl, rfl⟩, rfl, rfl, rfl, rfl⟩))
        fun _ => Ensures.pure hs

theorem privacyRights_same (data : List UInt8) (len : Nat) :
    Ensures (snacGetPrivacyRights h data len) fun r => SameUser h r.1 := by
  refine Ensures.read fun tlvlist _ => Ensures.bind (P := SameUser h) ?_ fun _ hs => Ensures.pure hs
  refine Ensures.foldlM (fun h' trav hs => ?_) tlvlist (.refl h)
  rw [privacyRightsTlv]
  exact Ensures.ite (fun _ => Ensures.read fun _ _ =>
    Ensures.pure (hs.trans ⟨⟨rfl, rfl, rfl, rfl, rfl, rfl, rfl, rfl⟩, rfl, rfl, rfl, rfl⟩)) fun _ =>
      Ensures.ite (fun _ => Ensures.read fun _ _ =>
        Ensures.pure (hs.trans ⟨⟨rfl, rfl, rfl, rfl, rfl, rfl, rfl, rfl⟩, rfl, rfl, rfl, rfl⟩))
          fun _ => Ensures.pure hs

omit [Host] in
theorem ssiItem_same (name : Option Str) (groupId id type : UInt16) :
    SameUser h (ssiItem h name groupId id type) := by
  unfold ssiItem
  split
  · split
    · simp only [imcommAddtobuddylist]
      split
      · exact .refl h
      · exact ⟨⟨rfl, rfl, rfl, rfl, rfl, rfl, rfl, rfl⟩, rfl, rfl, rfl, rfl⟩
    · exact .refl h
  · exact .refl h

theorem ssiList_same (n : Nat) (pkt : Pkt) : Ensures (ssiListLoop n pkt h) (SameUser h) := by
  induction n generalizing pkt h with
  | zero => exact Ensures.pure (.refl h)
  | succ n ih =>
    exact Ensures.read fun _ _ => Ensures.read fun name _ => Ensures.read fun _ _ =>
      Ensures.read fun _ _ => Ensures.read fun _ _ => Ensures.read fun _ _ =>
        (ih _).mono fun h' hs => (ssiItem_same name.1 _ _ _).trans hs

theorem ssiGetList_same (data : List UInt8) (len : Nat) :
    Ensures (snacSsiGetList h data len) (SameUser h) :=
  Ensures.read fun _ _ => Ensures.read fun _ _ => ssiList_same _ _

end

/-! ## sends -/

/-- `h'` is `h` after the SNACs `out`, if everything flows. -/
def SentFrom (h : Imcomm) (out : List SnacBody) (h' : Imcomm) : Prop :=
  h.Flowing → Sent h out h.isidle h'

theorem SentFrom.trans {h h' h'' : Imcomm} {out out' : List SnacBody} (h1 : SentFrom h out h')
    (h2 : SentFrom h' out' h'') : SentFrom h (out ++ out') h'' := by
  intro hf
  have hs := h1 hf
  have hs' := h2 ⟨hs.accepting hf.accepting, hs.srvPause.trans hf.srvPause⟩
  rw [hs.isidle] at hs'
  exact hs.trans hs'

section
variable [Host]

/-- A packet that was made for a send. -/
theorem snacSendpkt_eq {h : Imcomm} (hf : h.Flowing) (family subtype : UInt8) (n : Nat)
    (fs : List PktAdd) :
    snacSendpkt h family subtype (pktAddAll (pktInit n) fs) 0 =
      (wrote h [SnacBody.cut ⟨family.toUInt16, subtype.toUInt16,
        (pktAddAll (pktInit n) fs).data⟩], .ok) := by
  obtain ⟨pre, hholds⟩ := (holds_pktInit n).addSome fs
  rw [snacSendpkt, ← hholds.len_eq,
    snacSend_cut h ⟨family.toUInt16, subtype.toUInt16, _⟩ 0 hf.accepting hf.srvPause, resetIdle,
    if_neg (by decide)]

theorem sentFrom_pkt (h : Imcomm) (family subtype : UInt8) (n : Nat) (fs : List PktAdd) :
    SentFrom h [SnacBody.cut ⟨family.toUInt16, subtype.toUInt16, (pktAddAll (pktInit n) fs).data⟩]
      (snacSendpkt h family subtype (pktAddAll (pktInit n) fs) 0).1 := by
  intro hf
  rw [snacSendpkt_eq hf]
  exact wrote_sent h _

omit [Host] in
theorem SnacBody.cut_of_le {b : SnacBody} (h : b.data.length ≤ 65535) : b.cut = b := by
  rw [SnacBody.cut, toNat_uint16_of_lt (by omega), List.take_length]

/-- A packet that is filled by its fields. -/
theorem sentFrom_fields (h : Imcomm) (family subtype : UInt8) {n : Nat} {fs : List PktAdd}
    (hn : (fieldBytes fs).length = n) (hle : n ≤ 65535) :
    SentFrom h [⟨family.toUInt16, subtype.toUInt16, fieldBytes fs⟩]
      (snacSendpkt h family subtype (pktAddAll (pktInit n) fs) 0).1 := by
  have hsent := sentFrom_pkt h family subtype n fs
  have hdata : (pktAddAll (pktInit n) fs).data = fieldBytes fs := by rw [pktAddAll_eq fs hn]
  rwa [hdata, SnacBody.cut_of_le (by rw [hn]; exact hle)] at hsent

theorem sendVersions_sent (h : Imcomm) : SentFrom h [versions] (snacSendVersions h).1 := by
  intro hf
  have hsend := snacSend_plain h versions hf.accepting hf.srvPause (by decide)
  have hres : (snacSendVersions h).1 = wrote h [versions] := congrArg Prod.fst hsend
  rw [hres]
  exact wrote_sent h _

theorem requestLimits_sent (h : Imcomm) :
    SentFrom h [⟨0x01, 0x06, []⟩] (snacRequestLimits h).1 := by
  intro hf
  have hsend := snacSend_plain h ⟨0x01, 0x06, []⟩ hf.accepting hf.srvPause (by decide)
  have hres : (snacRequestLimits h).1 = wrote h [⟨0x01, 0x06, []⟩] := congrArg Prod.fst hsend
  rw [hres]
  exact wrote_sent h _

theorem sendCliUpdate_sent (h : Imcomm) :
    SentFrom h [cliUpdate h.isinvisible] (snacSendCliUpdate h).1 :=
  @sentFrom_fields _ h 0x01 0x1e 8 [.add16 0x0006, .add16 0x0004,
    .add32 (if h.isinvisible then 0x00000100 else 0x00000000)] rfl (by decide)

theorem setLocationInfo_sent (h : Imcomm) :
    SentFrom h (locationBodies h) (snacSetLocationInfo h).1 := by
  have hupdate := sendCliUpdate_sent h
  intro hf
  have hpacket : locationInfoPacket (snacSendCliUpdate h).1 = locationInfoPacket h := by
    obtain ⟨writes, heq⟩ := hupdate hf
    rw [heq]
    rfl
  have hlocation : SentFrom (snacSendCliUpdate h).1
      [SnacBody.cut ⟨0x02, 0x04, (locationInfoPacket (snacSendCliUpdate h).1).data⟩]
      (snacSetLocationInfo h).1 := sentFrom_pkt _ 0x02 0x04 _ _
  rw [hpacket] at hlocation
  exact hupdate.trans hlocation hf

theorem icbmParams_sent (h : Imcomm) (channel size : UInt16) :
    SentFrom h [icbmParams h.maxSenderWarning h.maxReceiverWarning]
      (snacSendIcbmParams h channel size).1 :=
  @sentFrom_fields _ h 0x04 0x02 16 [.add32 0x00000000, .add16 0x000b, .add16 0x1f40,
    .add16 h.maxSenderWarning, .add16 h.maxReceiverWarning, .add32 0x00000000] rfl (by decide)

theorem length_ackLimitsLoop (data : List UInt8) (n : Nat) (x : UInt16) :
    Ensures (ackLimitsLoop data n x) fun ids => ids.length = n := by
  induction n generalizing x with
  | zero => exact Ensures.pure rfl
  | succ n ih =>
    exact Ensures.read fun id _ => Ensures.bind (ih (x + 35)) fun ids hids =>
      Ensures.pure (by rw [List.length_cons, hids])

theorem ackLimits_sent (h : Imcomm) (data : List UInt8) (len : Nat) :
    Ensures (snacAckLimits h data len) fun r =>
      SentFrom h ((rateIds data).cut :: multireqBodies) r.1 := by
  refine ensures_twoTo16 data (Ensures.read fun ids hids => ?_)
  have hlength := length_ackLimitsLoop data (wordAt data 0).toNat 2 ids hids
  have hbytes : fieldBytes (ids.map PktAdd.add16) = ids.flatMap be16 := by
    rw [fieldBytes, List.map_map]
    rfl
  have hn : (fieldBytes (ids.map PktAdd.add16)).length = (wordAt data 0).toNat * 2 := by
    rw [hbytes, ← hlength]
    simp
  have hack : rateIds data = ⟨0x01, 0x08, ids.flatMap be16⟩ := by rw [rateIds, hids]
  have hdata : (pktAddAll (pktInit ((wordAt data 0).toNat * 2)) (ids.map PktAdd.add16)).data =
      ids.flatMap be16 := by rw [pktAddAll_eq _ hn, hbytes]
  have hsent := sentFrom_pkt h 0x01 0x08 ((wordAt data 0).toNat * 2) (ids.map PktAdd.add16)
  have hreturn (hf : h.Flowing) := congrArg Prod.snd
    (snacSendpkt_eq hf 0x01 0x08 ((wordAt data 0).toNat * 2) (ids.map PktAdd.add16))
  rw [hdata] at hsent
  rw [hack]
  refine Ensures.ite (fun herror => Ensures.pure fun hf => absurd (hreturn hf) herror)
    fun _ => Ensures.pure ?_
  exact hsent.trans fun hf => (snacMultireq_sent _ hf.accepting hf.srvPause).2

theorem ready_sent (h : Imcomm) :
    SentFrom h readyBodies
      (sendBatch h [⟨⟨0x01, 0x1e, (pktAddAll (pktInit 12) [.add16 0x001d, .add16 0x0008,
        .add32 0x00020404, .add32 0x00000000]).data⟩, 0⟩, ⟨⟨0x01, 0x02, cliReadyPacket⟩, 0⟩,
        ⟨⟨0x13, 0x07, []⟩, 0⟩]).1 := by
  intro hf
  have hpacket : (pktAddAll (pktInit 12) [.add16 0x001d, .add16 0x0008, .add32 0x00020404,
      .add32 0x00000000]).data =
        be16 0x001d ++ be16 0x0008 ++ be32 0x00020404 ++ be32 0x00000000 := by
    rw [pktAddAll_eq _ (n := 12) rfl]
    rfl
  rw [hpacket]
  have hsent := (sendBatch_sent h
    [⟨⟨0x01, 0x1e, be16 0x001d ++ be16 0x0008 ++ be32 0x00020404 ++ be32 0x00000000⟩, 0⟩,
      ⟨⟨0x01, 0x02, cliReadyPacket⟩, 0⟩, ⟨⟨0x13, 0x07, []⟩, 0⟩]
    hf.accepting hf.srvPause (List.cons_ne_nil _ _) (by decide)).2
  simpa [readyBodies] using hsent

end

/-! ## a payload -/

/-- Does the payload answer a login?  The library may then connect anew. -/
def AnswersLogin (data : List UInt8) : Prop := wordAt data 0 = 0x0017 ∧ byteAt data 3 = 0x03

section
variable {σ : Type} (cbs : Callbacks σ) (R : World σ → World σ → Prop)

/-- What a payload that is answered by `out` makes of the world: nothing is
answered, or some settings are changed and the answer is sent, or it is the
one that makes the client ready. -/
inductive Handled [Host] (w : World σ) : List SnacBody → World σ → Prop where
  | passive {w' : World σ} : R w w' → Handled w [] w'
  | answer {out : List SnacBody} {h h' : Imcomm} : SameUser w.handle h →
      (∀ b ∈ out, b.Fair w.handle) → SentFrom h out h' → Handled w out { w with handle := h' }
  | ready {h h' : Imcomm} : SameUser w.handle h → w.handle.connected = false →
      SentFrom { h with connected := true } readyBodies h' →
      Handled w readyBodies
        (World.fire { w with handle := h' } cbs (.error .statusConnected none))

variable [Host] {cbs} {R} (hR : Passive cbs R)

theorem handled_answer (w : World σ) {out : List SnacBody} (hout : ∀ b ∈ out, b.Fair w.handle)
    {x : Except Fault (Imcomm × ImcommRet)} {h : Imcomm} (hsame : SameUser w.handle h)
    (hx : Ensures x fun r => SentFrom h out r.1) :
    Ensures (x >>= fun r => Pure.pure (w.answer r)) fun r => Handled cbs R w out r.1 :=
  hx.bind fun _ hr => Ensures.pure (Handled.answer hsame hout hr)

include hR

omit hR in
theorem passive_pure (w : World σ) {w' : World σ} {ret : ImcommRet} (h : R w w') :
    Ensures (Pure.pure (w', ret) : Except Fault (World σ × ImcommRet)) fun r =>
      Handled cbs R w [] r.1 := Ensures.pure (Handled.passive h)

/-- A subconnection is a handle of its own. -/
theorem subconnection_passive [Network] (w : World σ) (data : List UInt8) (len : UInt16) :
    Ensures (snacNewSubconnection w data len) (R w) := by
  refine Ensures.read fun tv _ => Ensures.read fun s _ => ?_
  split
  · exact Ensures.error
  · exact Ensures.read fun child _ => Ensures.pure (hR.children w _)

theorem generic_handled [Network] (w : World σ) (data : List UInt8) (len : Nat)
    (subfamily flags : UInt16) :
    Ensures (snacDecodeGeneric cbs w data len subfamily flags) fun r =>
      Handled cbs R w (genericReplies data subfamily) r.1 := by
  rw [snacDecodeGeneric, genericReplies]
  by_cases hfamilies : subfamily = 0x0003
  · rw [if_pos hfamilies, if_pos hfamilies]
    exact (srvFamilies_same _ _).bind fun h hs =>
      handled_answer w (by simpa using SnacBody.fair_of_other _ rfl) hs
        (Ensures.ok (sendVersions_sent h))
  rw [if_neg hfamilies, if_neg hfamilies]
  by_cases hnew : subfamily = 0x0005
  · rw [if_pos hnew, if_neg (by rw [hnew]; decide), if_neg (by rw [hnew]; decide)]
    exact (subconnection_passive hR w _ _).bind fun w' h => passive_pure w h
  rw [if_neg hnew]
  by_cases hversions : subfamily = 0x0018
  · rw [if_pos hversions, if_pos hversions]
    exact handled_answer w (by simpa using SnacBody.fair_of_other _ rfl) (.refl _)
      (Ensures.ok (requestLimits_sent w.handle))
  rw [if_neg hversions, if_neg hversions]
  by_cases hlimits : subfamily = 0x0007
  · rw [if_pos hlimits, if_pos hlimits]
    have hrequests : ∀ b ∈ multireqBodies, b.isOwn = false := by decide
    refine handled_answer w ?_ (.refl _) (ackLimits_sent w.handle _ _)
    intro b hb
    rcases List.mem_cons.mp hb with rfl | hb
    · exact SnacBody.fair_of_other _ rfl
    · exact SnacBody.fair_of_other _ (hrequests b hb)
  rw [if_neg hlimits, if_neg hlimits]
  refine Ensures.ite (fun _ => Ensures.ite (fun _ => Ensures.read fun arg _ => ?_) fun _ => ?_)
    fun _ => Ensures.ite (fun _ => Ensures.ite (fun _ => ?_) fun _ => Ensures.read fun snLen _ =>
      Ensures.read fun sn _ => ?_) fun _ => ?_
  · exact passive_pure w (hR.fire w _ rfl)
  · exact passive_pure w (hR.refl w)
  · exact passive_pure w (hR.refl w)
  · exact passive_pure w (hR.fire w _ rfl)
  · exact passive_pure w (hR.refl w)

/-- A login key is answered. -/
theorem login_handled [Network] (w : World σ) (data : List UInt8) (len : Nat)
    (hlogin : byteAt data 3 ≠ 0x03) :
    Ensures (bosMd5snac cbs w data len) fun w' =>
      Handled cbs R w (loginReplies w.handle data) w' := by
  refine ensures_peek data 3 ?_
  by_cases hkey : byteAt data 3 = 0x07
  · rw [if_pos hkey]
    refine ensures_twoTo16_drop data 10 (ensures_peekN data 12 _ ?_)
    rw [loginReplies]
    cases w.handle.pw with
    | none => exact Ensures.error
    | some pw =>
      cases w.handle.sn with
      | none => exact Ensures.error
      | some sn =>
        simp only [if_pos hkey]
        refine Ensures.pure (Handled.answer (.refl _) ?_ (sentFrom_pkt w.handle 0x17 0x02 _ _))
        intro b hb
        rw [List.mem_singleton.mp hb]
        exact SnacBody.fair_of_other _ rfl
  · have hnone : loginReplies w.handle data = [] := by
      rw [loginReplies]
      split
      · rw [if_neg hkey]
      · rfl
    rw [if_neg hkey, if_neg hlogin, hnone]
    exact Ensures.pure (Handled.passive (hR.refl w))

theorem location_handled (w : World σ) (data : List UInt8) (len : Nat) (subfamily : UInt16) :
    Ensures (snacDecodeLocation cbs w data len subfamily) fun r =>
      Handled cbs R w (locationReplies w.handle subfamily) r.1 := by
  rw [snacDecodeLocation, locationReplies]
  by_cases hrights : subfamily = 0x0003
  · rw [if_pos hrights, if_pos hrights]
    exact Ensures.read fun maxProfileLen _ => Ensures.read fun maxCapabilities _ =>
      Ensures.pure (Handled.answer (h := { w.handle with
        maxProfileLen := maxProfileLen, maxCapabilities := maxCapabilities })
          ⟨⟨rfl, rfl, rfl, rfl, rfl, rfl, rfl, rfl⟩, rfl, rfl, rfl, rfl⟩ (locationBodies_fair _)
            (setLocationInfo_sent _))
  · rw [if_neg hrights, if_neg hrights]
    exact Ensures.ite (fun _ => (hR.userInfo w _ _).bind fun w' h => passive_pure w h)
      fun _ => passive_pure w (hR.refl w)

theorem buddy_handled (w : World σ) (data : List UInt8) (len : Nat) (subfamily : UInt16) :
    Ensures (snacDecodeBuddy cbs w data len subfamily) fun r => Handled cbs R w [] r.1 := by
  rw [snacDecodeBuddy]
  refine Ensures.ite (fun _ => Ensures.read fun tlvlist _ => ?_) fun _ =>
    Ensures.ite (fun _ => (hR.signoff w _ _).mono fun _ => Handled.passive) fun _ =>
      Ensures.ite (fun _ => (hR.signon w _ _).mono fun _ => Handled.passive) fun _ =>
        passive_pure w (hR.refl w)
  exact (buddyRights_same tlvlist).bind fun h hs => passive_pure w (hR.handle w h hs)

theorem icbm_handled (w : World σ) (data : List UInt8) (len : Nat) (subfamily : UInt16) :
    Ensures (snacDecodeIcbm cbs w data len subfamily) fun r =>
      Handled cbs R w (icbmReplies data subfamily) r.1 := by
  rw [snacDecodeIcbm, icbmReplies]
  by_cases herror : subfamily = 0x0001
  · rw [if_pos herror, if_neg (by rw [herror]; decide)]
    exact Ensures.read fun reason _ => Ensures.ite (fun _ => passive_pure w (hR.fire w _ rfl))
      fun _ => passive_pure w (hR.refl w)
  rw [if_neg herror]
  by_cases hparams : subfamily = 0x0005
  · rw [if_pos hparams, if_pos hparams]
    refine Ensures.read fun maxMessageSize _ => ensures_twoTo16_drop data 18
      (ensures_twoTo16_drop data 20 (Ensures.read fun maxMessageInterval _ =>
        Ensures.read fun channel _ => Ensures.pure (Handled.answer (h := { w.handle with
          maxMessageSize := maxMessageSize
          maxSenderWarning := wordAt data 18
          maxReceiverWarning := wordAt data 20
          maxMessageInterval := maxMessageInterval })
            ⟨⟨rfl, rfl, rfl, rfl, rfl, rfl, rfl, rfl⟩, rfl, rfl, rfl, rfl⟩ ?_
              (icbmParams_sent _ channel 1024))))
    intro b hb
    rw [List.mem_singleton.mp hb]
    exact SnacBody.fair_of_other _ rfl
  · rw [if_neg hparams, if_neg hparams]
    exact Ensures.ite (fun _ => (hR.incoming w _ _).mono fun _ => Handled.passive)
      fun _ => passive_pure w (hR.refl w)

/-- The list makes the client ready, once. -/
theorem activate_handled (w : World σ) {h : Imcomm} (hs : SameUser w.handle h) :
    Handled cbs R w (if w.handle.connected then [] else readyBodies)
      (snacSsiActivate cbs { w with handle := h }).1 := by
  rw [snacSsiActivate]
  have hconnected := hs.connected
  cases hready : w.handle.connected with
  | true =>
    rw [hready] at hconnected
    rw [if_pos rfl, if_pos hconnected]
    exact Handled.passive (hR.handle w h hs)
  | false =>
    rw [hready] at hconnected
    rw [if_neg (by decide), if_neg (by simp [hconnected])]
    exact Handled.ready hs hready (ready_sent _)

/-- **A payload** is answered by `replies`, and by nothing else. -/
theorem snacDecode_handled [Network] (w : World σ) (hchild : w.handle.ischild = false)
    {data : List UInt8} (hlen : data.length ≤ 65535) (hlogin : ¬ AnswersLogin data) :
    Ensures (snacDecode cbs w data (uint16 data.length)) fun r =>
      Handled cbs R w (replies w.handle data) r.1 := by
  have hother {family : UInt16} (hfamily : wordAt data 0 = family) (hne : family ≠ 0x0013) :
      ¬ (wordAt data 0 = 0x0013 ∧ wordAt data 2 = 0x0006) := fun h => hne (hfamily.symm.trans h.1)
  have hshort : uint16 data.length ≤ 4 ↔ data.length ≤ 4 := by
    rw [UInt16.le_iff_toNat_le, toNat_uint16_of_lt (by omega)]
    rfl
  rw [snacDecode]
  simp only [replies, hshort, toNat_uint16_of_lt (show data.length < 65536 by omega)]
  split
  · exact passive_pure w (hR.refl w)
  refine ensures_twoTo16 data (ensures_twoTo16_drop data 2 (Ensures.read fun flags _ => ?_))
  rw [hchild, if_neg (by decide)]
  by_cases hfamily : wordAt data 0 = 0x0017
  · rw [if_pos hfamily, if_pos hfamily]
    exact (login_handled hR w data _ fun h => hlogin ⟨hfamily, h⟩).bind fun w' h => Ensures.pure h
  rw [if_neg hfamily, if_neg hfamily]
  by_cases hgeneric : wordAt data 0 = 0x0001
  · rw [if_pos hgeneric, if_pos hgeneric]
    exact generic_handled hR w data _ _ flags
  rw [if_neg hgeneric, if_neg hgeneric]
  by_cases hlocation : wordAt data 0 = 0x0002
  · rw [if_pos hlocation, if_pos hlocation]
    exact location_handled hR w data _ _
  rw [if_neg hlocation, if_neg hlocation]
  by_cases hbuddy : wordAt data 0 = 0x0003
  · rw [if_pos hbuddy, if_neg (by rw [hbuddy]; decide), if_neg (hother hbuddy (by decide))]
    exact buddy_handled hR w data _ _
  rw [if_neg hbuddy]
  by_cases hicbm : wordAt data 0 = 0x0004
  · rw [if_pos hicbm, if_pos hicbm]
    exact icbm_handled hR w data _ _
  rw [if_neg hicbm, if_neg hicbm]
  by_cases hprivacy : wordAt data 0 = 0x0009
  · rw [if_pos hprivacy, if_neg (hother hprivacy (by decide))]
    exact Ensures.ite (fun _ => (privacyRights_same data _).bind fun r hs =>
      passive_pure w (hR.handle w _ hs)) fun _ => passive_pure w (hR.refl w)
  rw [if_neg hprivacy]
  by_cases hlist : wordAt data 0 = 0x0013
  · rw [if_pos hlist]
    by_cases hitems : wordAt data 2 = 0x0006
    · rw [if_pos hitems, if_pos ⟨hlist, hitems⟩]
      exact (ssiGetList_same data _).bind fun h hs => Ensures.ok (activate_handled hR w hs)
    · rw [if_neg hitems, if_neg fun h => hitems h.2]
      exact passive_pure w (hR.refl w)
  · rw [if_neg hlist, if_neg fun h => hlist h.1]
    exact passive_pure w (hR.refl w)

end

end Bsflite
