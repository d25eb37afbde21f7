import Bsflite.Body
import Bsflite.Input
import Bsflite.Outgoing

/-!
# Bsflite.InfoRequests

The requests for a profile or an away message.  Each body names a type and a
screen name,

```
REQUEST = type(2)  namelen(1)  name
```

and its builder takes the length of the name modulo 256 twice: for the size of
the block, and for the length byte.

* `requestPacket_exact_iff` — a body is what was asked for exactly when the
  name has at most 255 bytes.
* `info_requests` — what the four functions put on the wire.
-/

namespace Bsflite

/-! ## the builders -/

/-- What the four functions count for a body: `3 + (uint8_t) strlen(sn)`. -/
def requestSize (sn : Str) : Nat := 3 + (uint8 sn.length).toNat

/-- The fields of a body. -/
def requestFields (type : UInt16) (sn : Str) : List PktAdd :=
  [.add16 type, .add8 (uint8 sn.length), .addraw sn]

section
variable [Host]

/-- The packet of one body. -/
def requestPacket (type : UInt16) (sn : Str) : Pkt :=
  pktAddAll (pktInit (requestSize sn)) (requestFields type sn)

/-- `imcomm_request_awayprofile` -/
def imcommRequestAwayprofile (h : Imcomm) (sn : Str) : Imcomm :=
  (sendBatch h [⟨⟨0x02, 0x05, (requestPacket 0x0003 sn).data⟩, 0⟩,
    ⟨⟨0x02, 0x05, (requestPacket 0x0001 sn).data⟩, 0⟩]).1

/-- `imcomm_request_profile` -/
def imcommRequestProfile (h : Imcomm) (sn : Str) : Imcomm :=
  (snacSendpkt h 0x02 0x05 (requestPacket 0x0001 sn) 0).1

/-- `imcomm_request_awaymsg` -/
def imcommRequestAwaymsg (h : Imcomm) (sn : Str) : Imcomm :=
  (snacSendpkt h 0x02 0x05 (requestPacket 0x0003 sn) 0).1

/-- `imcomm_request_massawaymsg`, for at least one name: without any the first
node of the batch is sent, which was never written. -/
def imcommRequestMassawaymsg (h : Imcomm) (sn : Str) (sns : List Str) : Imcomm :=
  (sendBatch h ((sn :: sns).map fun sn => ⟨⟨0x02, 0x05, (requestPacket 0x0003 sn).data⟩, 0⟩)).1

/-- `input_get_info`, `input_get_away` and `input_get_profile`, with the
function that each of them calls. -/
def inputGet (request : Imcomm → Str → Imcomm) (w : World Client) (arg : Str) : World Client :=
  if w.client.conn.conn then { w with handle := request w.handle arg } else w

@[inherit_doc inputGet]
def inputGetInfo : World Client → Str → World Client := inputGet imcommRequestAwayprofile

@[inherit_doc inputGet]
def inputGetAway : World Client → Str → World Client := inputGet imcommRequestAwaymsg

@[inherit_doc inputGet]
def inputGetProfile : World Client → Str → World Client := inputGet imcommRequestProfile

end

/-- A call of one of the four. -/
inductive InfoRequest where
  | awayprofile (sn : Str)
  | profile (sn : Str)
  | awaymsg (sn : Str)
  | massawaymsg (sn : Str) (sns : List Str)
deriving DecidableEq, Repr

namespace InfoRequest

/-- The types and the names of its bodies. -/
def asked : InfoRequest → List (UInt16 × Str)
  | awayprofile sn => [(0x0003, sn), (0x0001, sn)]
  | profile sn => [(0x0001, sn)]
  | awaymsg sn => [(0x0003, sn)]
  | massawaymsg sn sns => (sn :: sns).map fun sn => (0x0003, sn)

variable [Host]

def run (h : Imcomm) : InfoRequest → Imcomm
  | awayprofile sn => imcommRequestAwayprofile h sn
  | profile sn => imcommRequestProfile h sn
  | awaymsg sn => imcommRequestAwaymsg h sn
  | massawaymsg sn sns => imcommRequestMassawaymsg h sn sns

/-- The SNACs that go out. -/
def bodies (r : InfoRequest) : List SnacBody :=
  r.asked.map fun q => ⟨0x02, 0x05, (requestPacket q.1 q.2).data⟩

end InfoRequest

/-! ## what goes out -/

/-- A body is what was asked for: its fields are all written and fill it, they
are the type, a length byte and the name, and that byte is the length of the
name. -/
structure RequestExact [Host] (type : UInt16) (sn : Str) : Prop where
  complete : Complete (requestSize sn) (requestFields type sn)
  data : (requestPacket type sn).data = be16 type ++ uint8 sn.length :: sn
  named : (uint8 sn.length).toNat = sn.length

theorem fieldBytes_requestFields (type : UInt16) (sn : Str) :
    fieldBytes (requestFields type sn) = be16 type ++ uint8 sn.length :: sn := by
  simp [requestFields, PktAdd.bytes]

section
variable [Host]

/-- **A request** is what was asked for exactly when its length fits in the
length byte. -/
theorem requestPacket_exact_iff (type : UInt16) (sn : Str) :
    RequestExact type sn ↔ sn.length ≤ 255 := by
  have hlen : (fieldBytes (requestFields type sn)).length = 3 + sn.length := by
    rw [fieldBytes_requestFields]
    simp
    omega
  have hbyte : (uint8 sn.length).toNat = sn.length % 256 := by
    rw [toNat_uint8]
    omega
  constructor
  · intro hexact
    have hnamed := hexact.named
    omega
  · intro hle
    have hsize : (fieldBytes (requestFields type sn)).length = requestSize sn := by
      rw [hlen, requestSize, hbyte, Nat.mod_eq_of_lt (by omega)]
    refine ⟨(complete_iff _ _).mpr hsize, ?_, by omega⟩
    rw [requestPacket, pktAddAll_eq _ hsize, fieldBytes_requestFields]

/-- Whatever is in it, a body has the size that was counted. -/
theorem requestPacket_length (type : UInt16) (sn : Str) :
    (requestPacket type sn).data.length = requestSize sn ∧
      (requestPacket type sn).len = requestSize sn := length_pktAddAll_data _ _

omit [Host] in
theorem requestSize_le (sn : Str) : requestSize sn ≤ 258 := by
  have := (uint8 sn.length).toNat_lt
  rw [requestSize]
  omega

/-- A single request is a SNAC (02,05). -/
theorem requestPacket_sent {h : Imcomm} (ha : h.link.Accepting) (hp : h.srvPause = false)
    (type : UInt16) (sn : Str) :
    Sent h [⟨0x02, 0x05, (requestPacket type sn).data⟩] h.isidle
      (snacSendpkt h 0x02 0x05 (requestPacket type sn) 0).1 := by
  obtain ⟨hdata, hlen⟩ := requestPacket_length type sn
  have hsize := requestSize_le sn
  have hsent := (snacSend_sent h ⟨0x02, 0x05, (requestPacket type sn).data⟩ 0 ha hp
    (by simp only [hdata]; omega)).2
  simp only [hdata] at hsent
  rw [snacSendpkt, hlen]
  simpa using hsent

/-- A batch of them. -/
theorem requests_sent {h : Imcomm} (ha : h.link.Accepting) (hp : h.srvPause = false)
    {qs : List (UInt16 × Str)} (hne : qs ≠ []) :
    Sent h (qs.map fun q => ⟨0x02, 0x05, (requestPacket q.1 q.2).data⟩) h.isidle
      (sendBatch h (qs.map fun q => ⟨⟨0x02, 0x05, (requestPacket q.1 q.2).data⟩, 0⟩)).1 := by
  have hsent := (sendBatch_sent h (qs.map fun q => ⟨⟨0x02, 0x05, (requestPacket q.1 q.2).data⟩, 0⟩)
    ha hp (by simpa using hne) ?_).2
  · have hnone : (qs.any fun _ => false) = false := List.any_eq_false.mpr (by simp)
    simpa [Function.comp_def, hnone] using hsent
  · intro c hc
    obtain ⟨q, -, rfl⟩ := List.mem_map.mp hc
    have hsize := requestSize_le q.2
    simp only [(requestPacket_length q.1 q.2).1]
    omega

/-- What a call puts on the wire. -/
theorem InfoRequest.run_sent (r : InfoRequest) {h : Imcomm} (ha : h.link.Accepting)
    (hp : h.srvPause = false) : Sent h r.bodies h.isidle (r.run h) := by
  cases r with
  | awayprofile sn => exact requests_sent ha hp (List.cons_ne_nil (0x0003, sn) [(0x0001, sn)])
  | profile sn => exact requestPacket_sent ha hp 0x0001 sn
  | awaymsg sn => exact requestPacket_sent ha hp 0x0003 sn
  | massawaymsg sn sns =>
      have hsent := requests_sent ha hp
        (List.cons_ne_nil ((0x0003 : UInt16), sn) (sns.map fun sn => (0x0003, sn)))
      simpa [InfoRequest.bodies, InfoRequest.asked, InfoRequest.run, imcommRequestMassawaymsg,
        Function.comp_def] using hsent

/-- **Info requests**: the SNACs of a call are on the wire, and their bodies
are what was asked for exactly when no name is longer than 255 bytes. -/
theorem info_requests (r : InfoRequest) :
    (∀ h : Imcomm, h.link.Accepting → h.srvPause = false → Sent h r.bodies h.isidle (r.run h)) ∧
    ((∀ q ∈ r.asked, RequestExact q.1 q.2) ↔ ∀ q ∈ r.asked, q.2.length ≤ 255) := by
  refine ⟨fun h ha hp => r.run_sent ha hp, ?_⟩
  exact forall₂_congr fun q _ => requestPacket_exact_iff q.1 q.2

end

/-- A request for a profile, over a transport that takes everything. -/
theorem info_requests_bob :
    Sent (imcommCreateHandle zeroBlock)
      (@InfoRequest.bodies littleEndianHost (.profile (ascii "bob"))) false
      (@imcommRequestProfile littleEndianHost (imcommCreateHandle zeroBlock) (ascii "bob")) ∧
    @RequestExact littleEndianHost 0x0001 (ascii "bob") := by
  obtain ⟨hsent, hexact⟩ := @info_requests littleEndianHost (.profile (ascii "bob"))
  exact ⟨hsent (imcommCreateHandle zeroBlock) (fun _ _ => rfl) rfl,
    hexact.mpr (by decide) (0x0001, ascii "bob") (by decide)⟩

/-- A name of 256 bytes: the block has three bytes, and the name is not in
it. -/
theorem info_request_long :
    ¬ ∀ sn : Str, sn.length ≤ 510 → @RequestExact littleEndianHost 0x0001 sn := by
  intro hall
  have hexact := hall (List.replicate 256 97) (by rw [List.length_replicate]; omega)
  have hle := (@requestPacket_exact_iff littleEndianHost 0x0001 (List.replicate 256 97)).mp hexact
  rw [List.length_replicate] at hle
  omega

end Bsflite
