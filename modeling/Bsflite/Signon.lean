import Bsflite.Requests
import Bsflite.Tlv

/-!
# Bsflite.Signon

The parts of sign-on that a server's packet can reach: the MD5 login of
`bos_signon.c`, the second phase at the server that the login names, and
the child handles of `snac_new_subconnection`.

Name resolution, sockets, proxies and TLS are behind `Network`.
-/

namespace Bsflite

/-- The platform's side of opening a connection. -/
class Network where
  /-- the socket and the transport after connecting to a host and a port;
  `none` when a plain `connect` fails (the answers of the proxy and TLS
  paths are not looked at) -/
  dial : Str → UInt16 → Option (Int × Link)
  /-- what `malloc` leaves in the block of a child handle -/
  childBlock : Imcomm

/-- A network on which every connection is refused. -/
@[reducible] def refusingNetwork : Network where
  dial := fun _ _ => none
  childBlock := zeroBlock

/-! ## second phase -/

/-- The digits at the front of a string, read in base ten. -/
def digits (acc : Nat) : Str → Nat
  | [] => acc
  | c :: s => if 48 ≤ c ∧ c ≤ 57 then digits (acc * 10 + (c.toNat - 48)) s else acc

/-- `atoi`: blanks, a sign, digits.  For a number that is no `int` it is
undefined in C, and the number itself here. -/
def atoi (s : Str) : Int :=
  match s.dropWhile (fun c => c = 32 ∨ (9 ≤ c ∧ c ≤ 13)) with
  | 45 :: s => -(digits 0 s : Int)
  | 43 :: s => digits 0 s
  | s => digits 0 s

/-- `bos_signon_phase2`.  The port is looked up behind the colon of
`server`; without a colon the result of `strchr` is `NULL`. -/
def bosSignonPhase2 [Host] [Network] (h : Imcomm) (server : Str) (cookie : List UInt8)
    (cookieLen : UInt16) : Except Fault (Imcomm × ImcommRet) :=
  match server.dropWhile (· ≠ 58) with
  | [] => .error .null
  | _ :: port =>
    match Network.dial (server.takeWhile (· ≠ 58)) (uint16 (atoi port)) with
    | none => .ok (h, .error)
    | some (socket, link) =>
      let packet := pktAddAll (pktInit (cookieLen.toNat + 8))
        [.add32 0x00000001, .add16 0x0006, .add16 cookieLen,
          .addraw (cookie.take cookieLen.toNat)]
      .ok (flapSendpkt { h with socket := socket, link := link } 0x01 packet 0)

/-! ## MD5 login -/

/-- `CLIENT_IDENT` -/
def clientIdent : Str := ascii "Apple iChat"

/-- `AIM_MD5_STRING` -/
def aimMd5String : Str := ascii "AOL Instant Messenger (SM)"

/-- The login packet of `bos_md5snac`. -/
def loginPacket [Host] (sn : Str) (authHash : List UInt8) : Pkt :=
  pktAddAll (pktInit (67 + clientIdent.length + 16 + sn.length))
    [.add16 0x0001, .add16 (uint16 sn.length), .addraw sn, .add16 0x0025, .add16 0x0010,
      .addraw authHash, .add16 0x0003, .add16 (uint16 clientIdent.length), .addraw clientIdent,
      .add16 0x0016, .add16 0x0002, .add16 0x311a, .add16 0x0017, .add16 0x0002, .add16 0x0001,
      .add16 0x0018, .add16 0x0002, .add16 0x0000, .add16 0x0019, .add16 0x0002, .add16 0x0000,
      .add16 0x001A, .add16 0x0002, .add16 0x003c, .add16 0x0014, .add16 0x0004,
      .add32 0x000000c6, .add16 0x000F, .add16 0x0002, .addraw (ascii "en"), .add16 0x000E,
      .add16 0x0002, .addraw (ascii "us"), .add16 0x004A, .add16 0x0001, .add8 0x01]

/-- What the login loop of `bos_md5snac` collects. -/
structure LoginReply where
  bosServer : Str
  cookie : List UInt8
  cookieLen : UInt16
  status : Nat

section
variable [Host] [Network] {σ : Type} (cbs : Callbacks σ)

/-- The body of the login loop of `bos_md5snac`. -/
def loginReplyTlv (s : World σ × LoginReply) (trav : Tlv) : World σ × LoginReply :=
  let (w, reply) := s
  if trav.type = 0x0008 then
    let w := w.fire cbs (.error .errorInvalidLogin none)
    ({ w with handle := { w.handle with socket := -1 } }, reply)
  else if trav.type = 0x0005 then
    (w, { reply with bosServer := cstr trav.value.val, status := reply.status + 1 })
  else if trav.type = 0x0006 then
    (w, { reply with
      cookie := trav.value.val, cookieLen := trav.len, status := reply.status + 1 })
  else (w, reply)

/-- `bos_md5snac`.  Two TLVs with one of the two types are enough for
`status` to be 2; the server name is then empty or missing. -/
def bosMd5snac (w : World σ) (data : List UInt8) (len : Nat) : Except Fault (World σ) := do
  let subtype ← peek data 3
  if subtype = 0x07 then
    let authkeylen ← twoTo16 (data.drop 10)
    let authkey ← peekN data 12 authkeylen.toNat
    match w.handle.pw, w.handle.sn with
    | some pw, some sn =>
      let authHash := (Host.md5 (authkey ++ pw ++ aimMd5String)).toList
      return { w with handle := (snacSendpkt w.handle 0x17 0x02 (loginPacket sn authHash) 0).1 }
    | _, _ => .error .null
  else if subtype = 0x03 then
    let numtlv ← countTlv (data.drop 10) (sizeT (len - 10))
    let tlv ← tlvSplit (data.drop 10) (sizeT (len - 10)) numtlv
    let (w, reply) := tlv.foldl (loginReplyTlv cbs) (w, ⟨[], [], 0, 0⟩)
    if reply.status = 2 then
      let w := w.fire cbs (.error .statusAuthdone none)
      let (h, _) ← bosSignonPhase2 w.handle reply.bosServer reply.cookie reply.cookieLen
      return { w with handle := h }
    else return w
  else return w

end

/-! ## child handles -/

/-- `imcomm_create_child_handle`: what it sets; the rest of the block is
what `malloc` left in it. -/
def imcommCreateChildHandle (block parent : Imcomm) : Imcomm :=
  { block with
    ischild := true
    parentIcon := parent.icondata
    toDelete := false
    seqnum := 0x1000
    snacreq := 0
    families := []
    buddylist := []
    buddiesOnline := []
    isidle := false
    profileStr := none
    awayMsg := none
    icondata := []
    socket := 0
    connected := false
    data := none
    headerPos := 0
    lastKeepaliveTime := 0 }

/-- What the loop of `snac_new_subconnection` collects. -/
structure Subconnection where
  subtype : UInt16
  server : Option Str
  cookie : List UInt8
  cookieLen : UInt16

section
variable [Host] [Network] {σ : Type}

/-- The body of the loop of `snac_new_subconnection`. -/
def subconnectionTlv (s : Subconnection) (trav : Tlv) : Except Fault Subconnection :=
  if trav.type = 0x000D then do
    let subtype ← twoTo16 trav.value.val
    return { s with subtype := subtype }
  else if trav.type = 0x0005 then return { s with server := some (cstr trav.value.val) }
  else if trav.type = 0x0006 then
    return { s with cookie := trav.value.val, cookieLen := trav.len }
  else return s

/-- `snac_new_subconnection` -/
def snacNewSubconnection (w : World σ) (data : List UInt8) (len : UInt16) :
    Except Fault (World σ) := do
  let tv ← tlvSplit data len.toNat 3
  let s ← tv.foldlM subconnectionTlv ⟨0, none, [], 0⟩
  match s.server with
  | none => .error .null
  | some server =>
    let server :=
      if 58 ∈ server then server
      else server ++ 58 :: ascii (toString w.handle.oscarport.toNat)
    let child := imcommCreateChildHandle Network.childBlock w.handle
    let (child, _) ← bosSignonPhase2 child server s.cookie s.cookieLen
    return { w with children := w.children ++ [child] }

end

end Bsflite
