import Bsflite.Packet

/-!
# Bsflite.Frame

The two wire formats around every SNAC, as a receiver reads them.

```
FLAP = marker  channel  seqnum(2)  length(2)  payload
SNAC = family(2)  subtype(2)  flags(2)  reqid(4)  data
```

`parseFlaps` cuts a byte stream into FLAP frames by the length at offset 4
of each header; `parseFlaps_flapBytes` says it inverts concatenation.
-/

namespace Bsflite

/-! ## FLAP frames -/

/-- A FLAP frame.  The length field of its header is the length of the
payload, so it is derived. -/
structure Flap where
  marker : UInt8
  channel : UInt8
  seqnum : UInt16
  payload : { p : List UInt8 // p.length < 65536 }
deriving DecidableEq

namespace Flap

/-- The six bytes in front of the payload. -/
def header (f : Flap) : List UInt8 :=
  [f.marker, f.channel] ++ be16 f.seqnum ++ be16 (uint16 f.payload.val.length)

/-- The frame on the wire. -/
def bytes (f : Flap) : List UInt8 := f.header ++ f.payload.val

@[simp] theorem length_header (f : Flap) : f.header.length = 6 := rfl

@[simp] theorem length_bytes (f : Flap) : f.bytes.length = 6 + f.payload.val.length := by
  simp [bytes]

/-- The last two bytes of the header are the payload length. -/
theorem drop_header (f : Flap) : f.header.drop 4 = be16 (uint16 f.payload.val.length) := rfl

end Flap

/-- The bytes of a sequence of frames. -/
def flapBytes (fs : List Flap) : List UInt8 := (fs.map Flap.bytes).flatten

@[simp] theorem flapBytes_cons (f : Flap) (fs : List Flap) :
    flapBytes (f :: fs) = f.bytes ++ flapBytes fs := rfl

/-- The receiver's framing: six bytes, then as many as bytes 4 and 5 say. -/
def parseFlapsLoop : Nat → List UInt8 → Option (List Flap)
  | _, [] => some []
  | fuel + 1, a :: b :: c :: d :: e :: f :: rest =>
    let n := ofBe16 e f
    if n.toNat ≤ rest.length then
      (parseFlapsLoop fuel (rest.drop n.toNat)).map
        (⟨a, b, ofBe16 c d, rest.take n.toNat, by
          have h := n.toNat_lt
          rw [List.length_take]
          omega⟩ :: ·)
    else none
  | _, _ => none

/-- Cut a byte stream into FLAP frames. -/
def parseFlaps (bytes : List UInt8) : Option (List Flap) := parseFlapsLoop bytes.length bytes

theorem parseFlapsLoop_flapBytes (fs : List Flap) (fuel : Nat) (h : fs.length ≤ fuel) :
    parseFlapsLoop fuel (flapBytes fs) = some fs := by
  induction fs generalizing fuel with
  | nil => cases fuel <;> rfl
  | cons f fs ih =>
      obtain ⟨fuel, rfl⟩ : ∃ k, fuel = k + 1 := ⟨fuel - 1, by simp at h; omega⟩
      have hlen : (uint16 f.payload.val.length).toNat = f.payload.val.length :=
        toNat_uint16_of_lt f.payload.property
      have hrec := ih fuel (by simpa using h)
      obtain ⟨s1, s0, hseq, hseqnum⟩ := exists_be16 f.seqnum
      obtain ⟨l1, l0, hlenBytes, hlength⟩ := exists_be16 (uint16 f.payload.val.length)
      rw [flapBytes_cons, Flap.bytes, Flap.header, hseq, hlenBytes]
      simp only [List.cons_append, List.nil_append]
      rw [parseFlapsLoop]
      simp only [hlength, hlen, hseqnum]
      rw [if_pos (by simp), List.drop_left' rfl, hrec]
      simp

/-- Concatenated frames are cut apart again. -/
theorem parseFlaps_flapBytes (fs : List Flap) : parseFlaps (flapBytes fs) = some fs := by
  apply parseFlapsLoop_flapBytes
  induction fs with
  | nil => simp
  | cons f fs ih =>
      rw [flapBytes_cons, List.length_append, Flap.length_bytes, List.length_cons]
      omega

/-! ## SNACs -/

/-- A SNAC. -/
structure Snac where
  family : UInt16
  subtype : UInt16
  flags : UInt16
  reqid : UInt32
  data : List UInt8
deriving DecidableEq, Repr

namespace Snac

/-- The ten bytes in front of the data. -/
def header (s : Snac) : List UInt8 :=
  be16 s.family ++ be16 s.subtype ++ be16 s.flags ++ be32 s.reqid

/-- The SNAC as the payload of a frame. -/
def bytes (s : Snac) : List UInt8 := s.header ++ s.data

@[simp] theorem length_header (s : Snac) : s.header.length = 10 := rfl

@[simp] theorem length_bytes (s : Snac) : s.bytes.length = 10 + s.data.length := by
  simp [bytes]

end Snac

/-- Read the payload of a frame as a SNAC. -/
def parseSnac : List UInt8 → Option Snac
  | a :: b :: c :: d :: e :: f :: g :: h :: i :: j :: data =>
    some ⟨ofBe16 a b, ofBe16 c d, ofBe16 e f, ofBe32 g h i j, data⟩
  | _ => none

@[simp] theorem parseSnac_bytes (s : Snac) : parseSnac s.bytes = some s := by
  simp [Snac.bytes, Snac.header, be16, be32, parseSnac]

/-! ## a receiver -/

/-- A SNAC as it arrives: with the channel and the sequence number of the
frame around it. -/
structure Received where
  channel : UInt8
  seqnum : UInt16
  snac : Snac
deriving DecidableEq, Repr

/-- Cut a stream into frames and read every payload as a SNAC. -/
def receive (bytes : List UInt8) : Option (List Received) :=
  (parseFlaps bytes).bind fun fs =>
    fs.mapM fun f => (parseSnac f.payload.val).map (⟨f.channel, f.seqnum, ·⟩)

/-- The frame that carries a SNAC. -/
def Received.frame (r : Received) (h : r.snac.data.length ≤ 65525) : Flap :=
  ⟨0x2A, r.channel, r.seqnum, r.snac.bytes, by rw [Snac.length_bytes]; omega⟩

/-- The bytes of the frame that carries a SNAC. -/
def Received.bytes (r : Received) : List UInt8 :=
  [0x2A, r.channel] ++ be16 r.seqnum ++ be16 (uint16 r.snac.bytes.length) ++ r.snac.bytes

/-- A receiver gets the SNACs of a stream in the order they were put there. -/
theorem receive_flatten (rs : List Received) (h : ∀ r ∈ rs, r.snac.data.length ≤ 65525) :
    receive (rs.map Received.bytes).flatten = some rs := by
  have hframes : ∃ fs : List Flap, (rs.map Received.bytes).flatten = flapBytes fs ∧
      fs.mapM (fun f => (parseSnac f.payload.val).map (Received.mk f.channel f.seqnum)) =
        some rs := by
    induction rs with
    | nil => exact ⟨[], rfl, rfl⟩
    | cons r rs ih =>
        obtain ⟨fs, hbytes, hparse⟩ := ih fun q hq => h q (List.mem_cons_of_mem r hq)
        refine ⟨r.frame (h r List.mem_cons_self) :: fs, ?_, ?_⟩
        · rw [List.map_cons, List.flatten_cons, hbytes]
          rfl
        · rw [List.mapM_cons, hparse]
          simp [Received.frame]
  obtain ⟨fs, hbytes, hparse⟩ := hframes
  rw [receive, hbytes, parseFlaps_flapBytes]
  exact hparse

end Bsflite
