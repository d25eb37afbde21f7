import Bsflite.Body
import Bsflite.Frame
import Bsflite.Signon

/-!
# Bsflite.Login

Signing on.  `imcomm_im_signon` names the user, `bos_md5snac` answers the
server's key with a digest and goes on to `bos_signon_phase2` when the server
lets the user in.

* `login_packets` — the three bodies are complete, and are the lists they are
  meant to be.
* `bosMd5snac_acts` — what a login answer makes the library do, as a list of
  `LoginAct`s.
* `login_answer` — which answers it takes as they are meant.
-/

namespace Bsflite

/-! ## `imcomm_im_signon` -/

/-- `proxymode` of a handle. -/
inductive ProxyType where
  | none
  | https
  | socks5
deriving DecidableEq, Repr

/-- The server that `imcomm_im_signon` connects to; only the TLS path goes to
another one. -/
def loginServer (h : Imcomm) (proxymode : ProxyType) : Str × UInt16 :=
  if proxymode = .socks5 then (ascii "login.oscar.aol.com", h.oscarport)
  else if proxymode = .https then (ascii "login.oscar.aol.com", h.oscarport)
  else if h.useSsl then (ascii "slogin.oscar.aol.com", 443)
  else (ascii "login.oscar.aol.com", h.oscarport)

/-- The fields of the sign-on packet. -/
def signonFields (sn : Str) : List PktAdd :=
  [.add16 0x0001, .add16 (uint16 sn.length), .addraw sn, .add16 0x004B, .add16 0x0000,
    .add16 0x005A, .add16 0x0000]

/-- What the sign-on packet is meant to be. -/
def signonEntries (sn : Str) : List Entry := [(0x0001, sn), (0x004B, []), (0x005A, [])]

/-- `imcomm_im_signon`; the `proxymode` of the handle is an argument here. -/
def imcommImSignon [Host] [Network] (proxymode : ProxyType) (h : Imcomm) (sn pw : Str) :
    Imcomm × ImcommRet :=
  match Network.dial (loginServer h proxymode).1 (loginServer h proxymode).2 with
  | none => (h, .error)
  | some (socket, link) =>
    let h := { h with socket := socket, link := link, pw := some pw, sn := some sn }
    let packet := pktAddAll (pktInit (12 + sn.length)) (signonFields sn)
    let pk2 := pktAddAll (pktInit 4) [.add32 0x00000001]
    let h := (flapSendpkt h 0x01 pk2 0).1
    snacSendpkt h 0x17 0x06 packet 0

/-! ## the other bodies -/

/-- The fields of the packet in which `bos_md5snac` answers a key. -/
def loginFields (sn : Str) (authHash : List UInt8) : List PktAdd :=
  [.add16 0x0001, .add16 (uint16 sn.length), .addraw sn, .add16 0x0025, .add16 0x0010,
    .addraw authHash, .add16 0x0003, .add16 (uint16 clientIdent.length), .addraw clientIdent,
    .add16 0x0016, .add16 0x0002, .add16 0x311a, .add16 0x0017, .add16 0x0002, .add16 0x0001,
    .add16 0x0018, .add16 0x0002, .add16 0x0000, .add16 0x0019, .add16 0x0002, .add16 0x0000,
    .add16 0x001A, .add16 0x0002, .add16 0x003c, .add16 0x0014, .add16 0x0004,
    .add32 0x000000c6, .add16 0x000F, .add16 0x0002, .addraw (ascii "en"), .add16 0x000E,
    .add16 0x0002, .addraw (ascii "us"), .add16 0x004A, .add16 0x0001, .add8 0x01]

/-- The size that `bos_md5snac` counts for it. -/
def loginSize (sn : Str) : Nat := 67 + clientIdent.length + 16 + sn.length

/-- What the packet is meant to be. -/
def loginEntries (sn : Str) (authHash : List UInt8) : List Entry :=
  [(0x0001, sn), (0x0025, authHash), (0x0003, clientIdent), (0x0016, be16 0x311a),
    (0x0017, be16 0x0001), (0x0018, be16 0x0000), (0x0019, be16 0x0000), (0x001A, be16 0x003c),
    (0x0014, be32 0x000000c6), (0x000F, ascii "en"), (0x000E, ascii "us"), (0x004A, [0x01])]

/-- The fields of the packet of `bos_signon_phase2`. -/
def cookieFields (cookie : List UInt8) : List PktAdd :=
  [.add32 0x00000001, .add16 0x0006, .add16 (uint16 cookie.length), .addraw cookie]

/-- The payload of (17,07): a SNAC header, the key behind its length, and
whatever follows. -/
def keyPayload (flags : UInt16) (reqid : UInt32) (key rest : List UInt8) : List UInt8 :=
  Snac.bytes ⟨0x0017, 0x0007, flags, reqid, be16 (uint16 key.length) ++ key ++ rest⟩

section
variable [Host]

theorem signon_carries {sn : Str} (hfit : 10 + (entryBytes (signonEntries sn)).length ≤ 65535) :
    Carries (12 + sn.length) (signonFields sn) 0 (signonEntries sn) := by
  refine carries_of_bytes [] ?_ ?_ (by omega)
  · simp [signonFields, signonEntries, PktAdd.bytes, entryBytes]
    rfl
  · simp only [signonEntries, length_entryBytes_cons, entryBytes_nil, List.length_nil]
    omega

theorem login_carries {sn : Str} (authHash : Vector UInt8 16)
    (hfit : 10 + (entryBytes (loginEntries sn authHash.toList)).length ≤ 65535) :
    Carries (loginSize sn) (loginFields sn authHash.toList) 0
      (loginEntries sn authHash.toList) := by
  refine carries_of_bytes [] ?_ ?_ (by omega)
  · simp [loginFields, loginEntries, PktAdd.bytes, entryBytes]
    rfl
  · have hident : clientIdent.length = 11 := by decide
    have hen : (ascii "en").length = 2 := by decide
    have hus : (ascii "us").length = 2 := by decide
    simp only [loginEntries, loginSize, length_entryBytes_cons, entryBytes_nil, List.length_nil,
      Vector.length_toList, hident, hen, hus, length_be16, length_be32, List.length_cons]
    omega

theorem cookie_carries {cookie : List UInt8}
    (hfit : 4 + (entryBytes [(0x0006, cookie)]).length ≤ 65535) :
    Carries (cookie.length + 8) (cookieFields cookie) 4 [(0x0006, cookie)] := by
  refine carries_of_bytes (be32 0x00000001) ?_ ?_ (by omega)
  · simp [cookieFields, PktAdd.bytes, entryBytes]
  · simp only [length_entryBytes_cons, entryBytes_nil, List.length_nil, length_be32]
    omega

/-- The key is read out of the payload. -/
theorem bosMd5snac_key [Network] {σ : Type} (cbs : Callbacks σ) {w : World σ} {sn pw : Str}
    (hsn : w.handle.sn = some sn) (hpw : w.handle.pw = some pw) (flags : UInt16) (reqid : UInt32)
    {key : List UInt8} (hkey : key.length ≤ 65535) (rest : List UInt8) (len : Nat) :
    bosMd5snac cbs w (keyPayload flags reqid key rest) len =
      .ok { w with handle := (snacSendpkt w.handle 0x17 0x02
        (loginPacket sn (Host.md5 (key ++ pw ++ aimMd5String)).toList) 0).1 } := by
  have htype : peek (keyPayload flags reqid key rest) 3 = .ok 0x07 := rfl
  have hdrop : (keyPayload flags reqid key rest).drop 10 =
      be16 (uint16 key.length) ++ (key ++ rest) := by
    rw [keyPayload, Snac.bytes, List.append_assoc]
    exact List.drop_left' rfl
  have hlen : (uint16 key.length).toNat = key.length := toNat_uint16_of_lt (by omega)
  have hread : peekN (keyPayload flags reqid key rest) 12 key.length = .ok key := by
    have hsplit : keyPayload flags reqid key rest =
        (Snac.header ⟨0x0017, 0x0007, flags, reqid, []⟩ ++ be16 (uint16 key.length)) ++
          (key ++ rest) := by
      simp [keyPayload, Snac.bytes, Snac.header]
    rw [hsplit]
    exact peekN_append rfl
  rw [bosMd5snac, htype, ok_bind, if_pos rfl, hdrop, twoTo16_be16_append, ok_bind, hlen, hread,
    ok_bind, hpw, hsn]
  rfl

/-- **The login packets**: every field of them is written, no other byte goes
out, and `tlv_split` reads back what they are meant to say. -/
theorem login_packets [Network] :
    (∀ (proxymode : ProxyType) (h : Imcomm) (sn pw : Str) (socket : Int) (link : Link),
      Network.dial (loginServer h proxymode).1 (loginServer h proxymode).2 = some (socket, link) →
      10 + (entryBytes (signonEntries sn)).length ≤ 65535 →
        imcommImSignon proxymode h sn pw = snacSendpkt (flapSendpkt
            { h with socket := socket, link := link, pw := some pw, sn := some sn } 0x01
            (pktAddAll (pktInit 4) [.add32 0x00000001]) 0).1 0x17 0x06
          (pktAddAll (pktInit (12 + sn.length)) (signonFields sn)) 0 ∧
        Carries (12 + sn.length) (signonFields sn) 0 (signonEntries sn)) ∧
    (∀ (σ : Type) (cbs : Callbacks σ) (w : World σ) (sn pw key rest : List UInt8) (flags : UInt16)
        (reqid : UInt32) (len : Nat),
      w.handle.sn = some sn → w.handle.pw = some pw → key.length ≤ 65535 →
      10 + (entryBytes (loginEntries sn (Host.md5 (key ++ pw ++ aimMd5String)).toList)).length ≤
        65535 →
        bosMd5snac cbs w (keyPayload flags reqid key rest) len =
          .ok { w with handle := (snacSendpkt w.handle 0x17 0x02 (pktAddAll (pktInit (loginSize sn))
            (loginFields sn (Host.md5 (key ++ pw ++ aimMd5String)).toList)) 0).1 } ∧
        Carries (loginSize sn) (loginFields sn (Host.md5 (key ++ pw ++ aimMd5String)).toList) 0
          (loginEntries sn (Host.md5 (key ++ pw ++ aimMd5String)).toList)) ∧
    (∀ (h : Imcomm) (host port : Str) (cookie : List UInt8) (socket : Int) (link : Link),
      58 ∉ host → Network.dial host (uint16 (atoi port)) = some (socket, link) →
      4 + (entryBytes [(0x0006, cookie)]).length ≤ 65535 →
        bosSignonPhase2 h (host ++ 58 :: port) cookie (uint16 cookie.length) =
          .ok (flapSendpkt { h with socket := socket, link := link } 0x01
            (pktAddAll (pktInit (cookie.length + 8)) (cookieFields cookie)) 0) ∧
        (pktAddAll (pktInit (cookie.length + 8)) (cookieFields cookie)).data.take 4 =
          be32 0x00000001 ∧
        Carries (cookie.length + 8) (cookieFields cookie) 4 [(0x0006, cookie)]) := by
  refine ⟨fun proxymode h sn pw socket link hdial hfit => ⟨?_, signon_carries hfit⟩,
    fun σ cbs w sn pw key rest flags reqid len hsn hpw hkey hfit =>
      ⟨bosMd5snac_key cbs hsn hpw flags reqid hkey rest len, login_carries _ hfit⟩,
    fun h host port cookie socket link hhost hdial hfit => ⟨?_, ?_, cookie_carries hfit⟩⟩
  · rw [imcommImSignon, hdial]
  · have hdrop := dropWhile_ne_append hhost port
    have htake := takeWhile_ne_append hhost port
    have hlen : (uint16 cookie.length).toNat = cookie.length := by
      simp only [length_entryBytes_cons] at hfit
      exact toNat_uint16_of_lt (by omega)
    rw [bosSignonPhase2, hdrop, htake]
    simp only [hdial, hlen, List.take_length]
    rfl
  · rw [pktAddAll_eq _ (by simp [cookieFields, PktAdd.bytes]; omega)]
    exact List.take_left' rfl

end

/-- A network on which every connection is made. -/
@[reducible] def acceptingNetwork : Network where
  dial := fun _ _ => some (3, zeroBlock.link)
  childBlock := zeroBlock

/-- A handle of the user "al" with the password "pw". -/
def handleOfUser : Imcomm := { zeroBlock with sn := some (ascii "al"), pw := some (ascii "pw") }

/-- The digest for the key "k7". -/
def digestOfUser : List UInt8 :=
  (littleEndianHost.md5 (ascii "k7" ++ ascii "pw" ++ aimMd5String)).toList

/-- A packet on this user's machine. -/
def packetOfUser (n : Nat) (fs : List PktAdd) : Pkt :=
  @pktAddAll littleEndianHost (@pktInit littleEndianHost n) fs

/-- The three packets of this user, the last one for the server "h:1". -/
theorem login_packets_short :
    (@imcommImSignon littleEndianHost acceptingNetwork .none zeroBlock (ascii "al") (ascii "pw") =
        @snacSendpkt littleEndianHost (@flapSendpkt littleEndianHost
            { handleOfUser with socket := 3, link := zeroBlock.link } 0x01
            (packetOfUser 4 [.add32 0x00000001]) 0).1 0x17 0x06
          (packetOfUser 14 (signonFields (ascii "al"))) 0 ∧
      @Carries littleEndianHost 14 (signonFields (ascii "al")) 0 (signonEntries (ascii "al"))) ∧
    (@bosMd5snac littleEndianHost acceptingNetwork _ recorder ⟨handleOfUser, [], []⟩
        (keyPayload 0 0 (ascii "k7") []) 14 =
        .ok ⟨(@snacSendpkt littleEndianHost handleOfUser 0x17 0x02
          (packetOfUser (loginSize (ascii "al")) (loginFields (ascii "al") digestOfUser)) 0).1,
          [], []⟩ ∧
      @Carries littleEndianHost (loginSize (ascii "al")) (loginFields (ascii "al") digestOfUser) 0
        (loginEntries (ascii "al") digestOfUser)) ∧
    (@bosSignonPhase2 littleEndianHost acceptingNetwork zeroBlock (ascii "h:1") [1, 2] 2 =
        .ok (@flapSendpkt littleEndianHost { zeroBlock with socket := 3, link := zeroBlock.link }
          0x01 (packetOfUser 10 (cookieFields [1, 2])) 0) ∧
      (packetOfUser 10 (cookieFields [1, 2])).data.take 4 = be32 0x00000001 ∧
      @Carries littleEndianHost 10 (cookieFields [1, 2]) 4 [(0x0006, [1, 2])]) := by
  obtain ⟨hsignon, hlogin, hcookie⟩ := @login_packets littleEndianHost acceptingNetwork
  have hfit : 10 + (entryBytes (loginEntries (ascii "al") digestOfUser)).length ≤ 65535 := by
    have hident : clientIdent.length = 11 := by decide
    have hal : (ascii "al").length = 2 := by decide
    have hen : (ascii "en").length = 2 := by decide
    have hus : (ascii "us").length = 2 := by decide
    simp only [loginEntries, digestOfUser, length_entryBytes_cons, entryBytes_nil, List.length_nil,
      Vector.length_toList, hident, hal, hen, hus, length_be16, length_be32, List.length_cons]
    decide
  exact ⟨hsignon .none zeroBlock (ascii "al") (ascii "pw") 3 zeroBlock.link rfl (by decide),
    hlogin _ recorder ⟨handleOfUser, [], []⟩ (ascii "al") (ascii "pw") (ascii "k7") [] 0 0 14 rfl
      rfl (by decide) hfit,
    hcookie zeroBlock (ascii "h") (ascii "1") [1, 2] 3 zeroBlock.link (by decide) rfl (by decide)⟩

/-! ## the answer to a login -/

/-- What a login answer makes the library do. -/
inductive LoginAct where
  /-- `IMCOMM_ERROR_INVALID_LOGIN`, and the socket is given up -/
  | invalidLogin
  /-- `IMCOMM_STATUS_AUTHDONE` -/
  | authdone
  /-- `bos_signon_phase2` -/
  | phase2 (server : Str) (cookie : List UInt8) (cookieLen : UInt16)
deriving DecidableEq, Repr

/-- The TLVs of a type. -/
def ofType (type : UInt16) (ts : List Tlv) : List Tlv := ts.filter fun t => t.type = type

/-- What the login loop has collected when it has gone through a list: the
last of the servers and the last of the cookies. -/
def loginReply (ts : List Tlv) : LoginReply :=
  let server := (ofType 0x0005 ts).getLast?
  let cookie := (ofType 0x0006 ts).getLast?
  ⟨(server.map fun t => cstr t.value.val).getD [], (cookie.map fun t => t.value.val).getD [],
    (cookie.map Tlv.len).getD 0, (ofType 0x0005 ts).length + (ofType 0x0006 ts).length⟩

/-- What the answer `ts` makes the library do, in order. -/
def loginActs (ts : List Tlv) : List LoginAct :=
  (ofType 0x0008 ts).map (fun _ => .invalidLogin) ++
    if (loginReply ts).status = 2 then
      [.authdone,
        .phase2 (loginReply ts).bosServer (loginReply ts).cookie (loginReply ts).cookieLen]
    else []

/-- Is there a TLV of the type? -/
def HasType (type : UInt16) (ts : List Tlv) : Prop := ∃ t ∈ ts, t.type = type

/-- The answer is taken as it is meant: phase 2 is started for a server and a
cookie without an error, with what these say, and the client is told. -/
structure LoginAnswered (ts : List Tlv) (acts : List LoginAct) : Prop where
  started : (∃ server cookie cookieLen, .phase2 server cookie cookieLen ∈ acts) ↔
    HasType 0x0005 ts ∧ HasType 0x0006 ts ∧ ¬ HasType 0x0008 ts
  taken : ∀ server cookie cookieLen, .phase2 server cookie cookieLen ∈ acts →
    (∃ t ∈ ts, t.type = 0x0005 ∧ server = cstr t.value.val) ∧
      ∃ t ∈ ts, t.type = 0x0006 ∧ cookie = t.value.val ∧ cookieLen = t.len
  authdone : .authdone ∈ acts ↔ ∃ server cookie cookieLen, .phase2 server cookie cookieLen ∈ acts
  invalid : .invalidLogin ∈ acts ↔ HasType 0x0008 ts

/-- The counter of `bos_md5snac` tells a server and a cookie from other
answers: there is one of each and no error, or the counter is not 2 and there
is an error or one of the two is missing. -/
def CounterTells (ts : List Tlv) : Prop :=
  ((ofType 0x0005 ts).length = 1 ∧ (ofType 0x0006 ts).length = 1 ∧ ofType 0x0008 ts = []) ∨
    ((ofType 0x0005 ts).length + (ofType 0x0006 ts).length ≠ 2 ∧
      (ofType 0x0005 ts = [] ∨ ofType 0x0006 ts = [] ∨ ofType 0x0008 ts ≠ []))

section
variable [Host]

/-- What an act does. -/
def LoginAct.perform [Network] {σ : Type} (cbs : Callbacks σ) (w : World σ) :
    LoginAct → Except Fault (World σ)
  | .invalidLogin =>
    let w := w.fire cbs (.error .errorInvalidLogin none)
    .ok { w with handle := { w.handle with socket := -1 } }
  | .authdone => .ok (w.fire cbs (.error .statusAuthdone none))
  | .phase2 server cookie cookieLen => do
    let (h, _) ← bosSignonPhase2 w.handle server cookie cookieLen
    return { w with handle := h }

omit [Host] in
theorem hasType_iff {type : UInt16} {ts : List Tlv} : HasType type ts ↔ ofType type ts ≠ [] := by
  simp [HasType, ofType, List.filter_eq_nil_iff]

omit [Host] in
theorem mem_ofType {type : UInt16} {ts : List Tlv} {t : Tlv} :
    t ∈ ofType type ts ↔ t ∈ ts ∧ t.type = type := by
  simp [ofType]

omit [Host] in
theorem ofType_concat (type : UInt16) (ts : List Tlv) (t : Tlv) :
    ofType type (ts ++ [t]) = ofType type ts ++ if t.type = type then [t] else [] := by
  rw [ofType, List.filter_append, ← ofType]
  by_cases h : t.type = type <;> simp [h]

/-- The loop, by induction on the last TLV. -/
theorem loginLoop_eq [Network] {σ : Type} (cbs : Callbacks σ) (w : World σ) (ts : List Tlv) :
    ((ofType 0x0008 ts).map fun _ => LoginAct.invalidLogin).foldlM (LoginAct.perform cbs) w =
        .ok (ts.foldl (loginReplyTlv cbs) (w, ⟨[], [], 0, 0⟩)).1 ∧
      (ts.foldl (loginReplyTlv cbs) (w, ⟨[], [], 0, 0⟩)).2 = loginReply ts := by
  induction ts using List.reverseRecOn with
  | nil => exact ⟨rfl, rfl⟩
  | append_singleton ts t ih =>
      obtain ⟨hperform, hreply⟩ := ih
      rw [List.foldl_append, List.foldl_cons, List.foldl_nil, loginReplyTlv]
      simp only [hreply, ofType_concat, List.map_append, List.foldlM_append, hperform, ok_bind]
      by_cases h8 : t.type = 0x0008
      · simp only [h8, if_true]
        refine ⟨rfl, ?_⟩
        simp [loginReply, ofType_concat, h8]
      · by_cases h5 : t.type = 0x0005
        · simp only [h5, reduceIte]
          refine ⟨rfl, ?_⟩
          simp [loginReply, ofType_concat, h5]
          omega
        · by_cases h6 : t.type = 0x0006
          · simp only [h6, reduceIte]
            refine ⟨rfl, ?_⟩
            simp [loginReply, ofType_concat, h6]
            omega
          · simp only [h8, h5, h6, if_false]
            refine ⟨rfl, ?_⟩
            simp [loginReply, ofType_concat, h5, h6]

/-- The answer to a login, as what it makes the library do. -/
theorem bosMd5snac_acts [Network] {σ : Type} (cbs : Callbacks σ) (w : World σ) (flags : UInt16)
    (reqid : UInt32) {ts : List Tlv} (hfit : 10 + (tlvBytes ts).length ≤ 65535) :
    bosMd5snac cbs w (Snac.bytes ⟨0x0017, 0x0003, flags, reqid, tlvBytes ts⟩)
        (10 + (tlvBytes ts).length) =
      (loginActs ts).foldlM (LoginAct.perform cbs) w := by
  have htype : peek (Snac.bytes ⟨0x0017, 0x0003, flags, reqid, tlvBytes ts⟩) 3 = .ok 0x03 := rfl
  have hdrop : (Snac.bytes ⟨0x0017, 0x0003, flags, reqid, tlvBytes ts⟩).drop 10 = tlvBytes ts :=
    List.drop_left' rfl
  have hsize : sizeT (((10 + (tlvBytes ts).length : Nat) : Int) - 10) = (tlvBytes ts).length := by
    rw [sizeT_of_nonneg (by omega)]
    omega
  obtain ⟨hperform, hreply⟩ := loginLoop_eq cbs w ts
  rw [bosMd5snac, htype, ok_bind, if_neg (by decide), if_pos rfl, hdrop, hsize,
    countTlv_tlvBytes ts (by omega), ok_bind, tlvSplit_tlvBytes ts _ (by omega), ok_bind,
    loginActs, List.foldlM_append, hperform, ok_bind]
  simp only [hreply]
  by_cases hstatus : (loginReply ts).status = 2
  · rw [if_pos hstatus, if_pos hstatus, List.foldlM_cons, LoginAct.perform, ok_bind,
      List.foldlM_cons, LoginAct.perform]
    cases bosSignonPhase2 _ (loginReply ts).bosServer (loginReply ts).cookie
      (loginReply ts).cookieLen <;> rfl
  · rw [if_neg hstatus, if_neg hstatus]
    rfl

omit [Host] in
theorem phase2_mem_iff {ts : List Tlv} {server : Str} {cookie : List UInt8} {cookieLen : UInt16} :
    .phase2 server cookie cookieLen ∈ loginActs ts ↔ (loginReply ts).status = 2 ∧
      server = (loginReply ts).bosServer ∧ cookie = (loginReply ts).cookie ∧
        cookieLen = (loginReply ts).cookieLen := by
  rw [loginActs]
  split <;> simp_all

omit [Host] in
theorem started_iff {ts : List Tlv} :
    (∃ server cookie cookieLen, .phase2 server cookie cookieLen ∈ loginActs ts) ↔
      (loginReply ts).status = 2 := by
  simp [phase2_mem_iff]

omit [Host] in
/-- A server and a cookie of one TLV each. -/
theorem loginReply_taken {ts : List Tlv} (h5 : (ofType 0x0005 ts).length = 1)
    (h6 : (ofType 0x0006 ts).length = 1) :
    (∃ t ∈ ts, t.type = 0x0005 ∧ (loginReply ts).bosServer = cstr t.value.val) ∧
      ∃ t ∈ ts, t.type = 0x0006 ∧ (loginReply ts).cookie = t.value.val ∧
        (loginReply ts).cookieLen = t.len := by
  obtain ⟨server, hserver⟩ := List.length_eq_one_iff.mp h5
  obtain ⟨cookie, hcookie⟩ := List.length_eq_one_iff.mp h6
  have hs := mem_ofType.mp (hserver ▸ List.mem_singleton_self server)
  have hc := mem_ofType.mp (hcookie ▸ List.mem_singleton_self cookie)
  refine ⟨⟨server, hs.1, hs.2, ?_⟩, cookie, hc.1, hc.2, ?_, ?_⟩ <;>
    simp [loginReply, hserver, hcookie]

omit [Host] in
/-- The answer is taken as it is meant exactly when the counter can tell. -/
theorem loginAnswered_iff (ts : List Tlv) : LoginAnswered ts (loginActs ts) ↔ CounterTells ts := by
  have hauthdone : .authdone ∈ loginActs ts ↔ (loginReply ts).status = 2 := by
    rw [loginActs]
    split <;> simp_all
  have hinvalid : .invalidLogin ∈ loginActs ts ↔ HasType 0x0008 ts := by
    rw [loginActs, hasType_iff]
    split <;> simp [List.eq_nil_iff_forall_not_mem]
  have hstatus : (loginReply ts).status =
      (ofType 0x0005 ts).length + (ofType 0x0006 ts).length := rfl
  constructor
  · intro h
    have hstarted := h.started
    rw [started_iff, hasType_iff, hasType_iff, hasType_iff, hstatus, not_not] at hstarted
    by_cases htwo : (ofType 0x0005 ts).length + (ofType 0x0006 ts).length = 2
    · obtain ⟨h5, h6, h8⟩ := hstarted.mp htwo
      have hpos5 := List.length_pos_iff.mpr h5
      have hpos6 := List.length_pos_iff.mpr h6
      exact Or.inl ⟨by omega, by omega, h8⟩
    · refine Or.inr ⟨htwo, ?_⟩
      by_contra hall
      push Not at hall
      exact htwo (hstarted.mpr hall)
  · rintro (⟨h5, h6, h8⟩ | ⟨hne, hlacks⟩)
    · have htwo : (loginReply ts).status = 2 := by rw [hstatus, h5, h6]
      obtain ⟨hserver, hcookie⟩ := loginReply_taken h5 h6
      refine ⟨?_, ?_, by rw [hauthdone, started_iff], hinvalid⟩
      · rw [started_iff, hasType_iff, hasType_iff, hasType_iff, not_not]
        refine ⟨fun _ => ⟨?_, ?_, h8⟩, fun _ => htwo⟩
        · exact List.length_pos_iff.mp (by omega)
        · exact List.length_pos_iff.mp (by omega)
      · intro server cookie cookieLen hmem
        obtain ⟨-, rfl, rfl, rfl⟩ := phase2_mem_iff.mp hmem
        exact ⟨hserver, hcookie⟩
    · have hnot : (loginReply ts).status ≠ 2 := hstatus ▸ hne
      refine ⟨?_, ?_, by rw [hauthdone, started_iff], hinvalid⟩
      · rw [started_iff, hasType_iff, hasType_iff, hasType_iff, not_not]
        refine ⟨fun htwo => absurd htwo hnot, fun ⟨h5, h6, h8⟩ => ?_⟩
        rcases hlacks with h | h | h
        · exact absurd h h5
        · exact absurd h h6
        · exact absurd h8 h
      · intro server cookie cookieLen hmem
        exact absurd (phase2_mem_iff.mp hmem).1 hnot

/-- **The answer to a login** is taken as it is meant exactly when the counter
can tell. -/
theorem login_answer [Network] (ts : List Tlv) (flags : UInt16) (reqid : UInt32)
    (hfit : 10 + (tlvBytes ts).length ≤ 65535) :
    (∀ (σ : Type) (cbs : Callbacks σ) (w : World σ),
      bosMd5snac cbs w (Snac.bytes ⟨0x0017, 0x0003, flags, reqid, tlvBytes ts⟩)
          (10 + (tlvBytes ts).length) =
        (loginActs ts).foldlM (LoginAct.perform cbs) w) ∧
      (LoginAnswered ts (loginActs ts) ↔ CounterTells ts) :=
  ⟨fun _ cbs w => bosMd5snac_acts cbs w flags reqid hfit, loginAnswered_iff ts⟩

end

/-- An answer with a server and a cookie. -/
theorem login_answer_server_cookie :
    LoginAnswered [⟨0x0005, [104, 58, 49], by decide⟩, ⟨0x0006, [1], by decide⟩]
      (loginActs [⟨0x0005, [104, 58, 49], by decide⟩, ⟨0x0006, [1], by decide⟩]) :=
  (@login_answer littleEndianHost acceptingNetwork
    [⟨0x0005, [104, 58, 49], by decide⟩, ⟨0x0006, [1], by decide⟩] 0 0 (by decide)).2.mpr
    (Or.inl ⟨rfl, rfl, rfl⟩)

/-- Two cookies without a server start phase 2, which looks for a colon behind
a null pointer. -/
theorem login_answer_two_cookies :
    @bosMd5snac littleEndianHost acceptingNetwork _ recorder
        ⟨imcommCreateHandle zeroBlock, [], []⟩
        (Snac.bytes ⟨0x0017, 0x0003, 0, 0,
          tlvBytes [⟨0x0006, [1], by decide⟩, ⟨0x0006, [2], by decide⟩]⟩) 20 = .error .null ∧
      ¬ LoginAnswered [⟨0x0006, [1], by decide⟩, ⟨0x0006, [2], by decide⟩]
        (loginActs [⟨0x0006, [1], by decide⟩, ⟨0x0006, [2], by decide⟩]) := by
  refine ⟨?_, ?_⟩
  · exact @bosMd5snac_acts littleEndianHost acceptingNetwork _ recorder
      ⟨imcommCreateHandle zeroBlock, [], []⟩ 0 0
      [⟨0x0006, [1], by decide⟩, ⟨0x0006, [2], by decide⟩] (by decide)
  · rw [loginAnswered_iff, CounterTells]
    decide

end Bsflite
