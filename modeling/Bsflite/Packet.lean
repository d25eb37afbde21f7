import Bsflite.Bytes

/-!
# Bsflite.Packet

The packet layer of `imcomm/packet.c`, `imcomm/byteswap.h` and
`imcomm/misc.c`: the `pkt_t` buffer, its writers (`pkt_add8` … `pkt_addraw`)
and its readers (`pkt_get8` … `pkt_getstr`).

* A `Host` fixes what the C program takes from its machine: the byte order,
  what `malloc` leaves in fresh memory, and the MD5 digest it links.
* A read beyond the end of a buffer is a `Fault`, never a value, so every
  parser built on these readers says by itself whether it stayed inside.
* Writers answer `IMCOMM_RET_ERROR` when a field does not fit.  The callers
  ignore that answer; `pktAddAll` is such a run of ignored answers, and
  `pktAddAll_eq` says what it leaves when the sizes were counted right.
-/

namespace Bsflite

/-! ## the machine -/

/-- What the program takes from the machine it runs on. -/
class Host where
  /-- words are stored most significant byte first -/
  bigEndian : Bool
  /-- the bytes `malloc` leaves in a fresh block -/
  fresh : Nat → UInt8
  /-- the digest `md5_finish` leaves after the appended bytes -/
  md5 : List UInt8 → Vector UInt8 16

/-- A host that stores the least significant byte first. -/
@[reducible] def littleEndianHost : Host where
  bigEndian := false
  fresh := fun _ => 0
  md5 := fun _ => Vector.replicate 16 0

/-- How a computation leaves the defined behaviour of C. -/
inductive Fault where
  /-- a read outside the buffer -/
  | oob
  /-- a dereference of `NULL` -/
  | null
  /-- a loop that does not end -/
  | hang
deriving DecidableEq, Repr

/-- Both halves of a computation that returns do. -/
theorem bind_eq_ok {α β : Type} {x : Except Fault α} {f : α → Except Fault β} {b : β}
    (h : x >>= f = .ok b) : ∃ a, x = .ok a ∧ f a = .ok b := by
  cases x with
  | ok a => exact ⟨a, rfl, h⟩
  | error e => cases h

@[simp] theorem ok_bind {α β : Type} (a : α) (f : α → Except Fault β) :
    (Except.ok a >>= f) = f a := rfl

@[simp] theorem error_bind {α β : Type} (e : Fault) (f : α → Except Fault β) :
    (Except.error e >>= f) = .error e := rfl

/-- `IMCOMM_RET`: `IMCOMM_RET_ERROR` is -1 and `IMCOMM_RET_OK` is 1. -/
inductive ImcommRet where
  | error
  | ok
deriving DecidableEq, Repr

/-- An `int` or a difference converted to `size_t`. -/
def sizeT (i : Int) : Nat := if 0 ≤ i then i.toNat else (i + 2 ^ 64).toNat

/-- An `int` or a `size_t` converted to `uint16_t`. -/
def uint16 (i : Int) : UInt16 := UInt16.ofNat (i % 65536).toNat

/-- An `int` or a `size_t` converted to `uint8_t`. -/
def uint8 (i : Int) : UInt8 := UInt8.ofNat (i % 256).toNat

theorem sizeT_of_nonneg {i : Int} (h : 0 ≤ i) : sizeT i = i.toNat := if_pos h

/-- A negative difference becomes a length no buffer has. -/
theorem sizeT_of_neg {i : Int} (h : i < 0) (hb : -65536 ≤ i) : 65536 ≤ sizeT i := by
  rw [sizeT, if_neg (by omega)]
  omega

@[simp] theorem toNat_uint16 (i : Int) : (uint16 i).toNat = (i % 65536).toNat := by
  rw [uint16, UInt16.toNat_ofNat']
  omega

@[simp] theorem toNat_uint8 (i : Int) : (uint8 i).toNat = (i % 256).toNat := by
  rw [uint8, UInt8.toNat_ofNat']
  omega

/-- A number below 2^16 survives the conversion. -/
theorem toNat_uint16_of_lt {n : Nat} (h : n < 65536) : (uint16 n).toNat = n := by
  rw [toNat_uint16]
  omega

/-! ## the swap macros -/

/-- `BYTE_SWAP_16` -/
def byteSwap16 (x : UInt16) : UInt16 := ((x &&& 0xFF00) >>> 8) ||| ((x &&& 0x00FF) <<< 8)

/-- `BYTE_SWAP_32` -/
def byteSwap32 (x : UInt32) : UInt32 :=
  ((x &&& 0xFF000000) >>> 24) ||| ((x &&& 0x00FF0000) >>> 8) |||
    ((x &&& 0x0000FF00) <<< 8) ||| ((x &&& 0x000000FF) <<< 24)

theorem toNat_byteSwap16 (x : UInt16) :
    (byteSwap16 x).toNat = x.toNat % 256 * 256 + x.toNat / 256 := by
  have hbits : (byteSwap16 x).toBitVec =
      x.toBitVec.extractLsb' 0 8 ++ x.toBitVec.extractLsb' 8 8 := by
    apply BitVec.eq_of_getLsbD_eq
    intro i hi
    simp only [BitVec.getLsbD_append, BitVec.getLsbD_extractLsb']
    interval_cases i <;> simp [byteSwap16]
  have h := x.toNat_lt
  rw [← UInt16.toNat_toBitVec, hbits, BitVec.toNat_append,
    ← Nat.shiftLeft_add_eq_or_of_lt (BitVec.isLt _)]
  simp only [BitVec.extractLsb'_toNat, Nat.shiftLeft_eq, Nat.shiftRight_eq_div_pow,
    UInt16.toNat_toBitVec, Nat.reducePow, Nat.div_one]
  omega

theorem toNat_byteSwap32 (x : UInt32) :
    (byteSwap32 x).toNat = x.toNat % 256 * 16777216 + x.toNat / 256 % 256 * 65536 +
      x.toNat / 65536 % 256 * 256 + x.toNat / 16777216 := by
  have hbits : (byteSwap32 x).toBitVec =
      x.toBitVec.extractLsb' 0 8 ++ x.toBitVec.extractLsb' 8 8 ++
        x.toBitVec.extractLsb' 16 8 ++ x.toBitVec.extractLsb' 24 8 := by
    apply BitVec.eq_of_getLsbD_eq
    intro i hi
    simp only [BitVec.getLsbD_append, BitVec.getLsbD_extractLsb']
    interval_cases i <;> simp [byteSwap32]
  have h := x.toNat_lt
  rw [← UInt32.toNat_toBitVec, hbits]
  simp only [BitVec.toNat_append, ← Nat.shiftLeft_add_eq_or_of_lt (BitVec.isLt _)]
  simp only [BitVec.extractLsb'_toNat, Nat.shiftLeft_eq, Nat.shiftRight_eq_div_pow,
    UInt32.toNat_toBitVec, Nat.reducePow, Nat.div_one]
  omega

/-- Swapping exchanges the two bytes. -/
theorem byteSwap16_ofBe16 (a b : UInt8) : byteSwap16 (ofBe16 a b) = ofBe16 b a := by
  have ha := a.toNat_lt
  have hb := b.toNat_lt
  apply UInt16.toNat_inj.mp
  rw [toNat_byteSwap16, toNat_ofBe16, toNat_ofBe16]
  omega

/-- Swapping reverses the four bytes. -/
theorem byteSwap32_ofBe32 (a b c d : UInt8) : byteSwap32 (ofBe32 a b c d) = ofBe32 d c b a := by
  have ha := a.toNat_lt
  have hb := b.toNat_lt
  have hc := c.toNat_lt
  have hd := d.toNat_lt
  apply UInt32.toNat_inj.mp
  rw [toNat_byteSwap32, toNat_ofBe32, toNat_ofBe32]
  omega

theorem be16_byteSwap16 (v : UInt16) : be16 (byteSwap16 v) = (be16 v).reverse := by
  have h : v = ofBe16 (UInt8.ofNat (v.toNat / 256)) v.toUInt8 := by simp
  rw [h, byteSwap16_ofBe16, be16_ofBe16, be16_ofBe16]
  rfl

theorem be32_byteSwap32 (v : UInt32) : be32 (byteSwap32 v) = (be32 v).reverse := by
  have h : v = ofBe32 (UInt8.ofNat (v.toNat / 16777216)) (UInt8.ofNat (v.toNat / 65536))
      (UInt8.ofNat (v.toNat / 256)) v.toUInt8 := by simp
  rw [h, byteSwap32_ofBe32, be32_ofBe32, be32_ofBe32]
  rfl

/-! ## words in memory -/

section
variable [Host]

/-- A fresh block of `n` bytes. -/
def malloc (n : Nat) : List UInt8 := (List.range n).map Host.fresh

@[simp] theorem length_malloc (n : Nat) : (malloc n).length = n := by simp [malloc]

/-- The bytes of a `uint16_t` in the memory of the host. -/
def store16 (v : UInt16) : List UInt8 :=
  if Host.bigEndian then be16 v else (be16 v).reverse

/-- The bytes of a `uint32_t` in the memory of the host. -/
def store32 (v : UInt32) : List UInt8 :=
  if Host.bigEndian then be32 v else (be32 v).reverse

/-- The `uint16_t` that two bytes of the host's memory hold. -/
def load16 (a b : UInt8) : UInt16 := if Host.bigEndian then ofBe16 a b else ofBe16 b a

/-- The `uint32_t` that four bytes of the host's memory hold. -/
def load32 (a b c d : UInt8) : UInt32 :=
  if Host.bigEndian then ofBe32 a b c d else ofBe32 d c b a

/-- `HOST_BIG_ENDIAN` and `HOST_LITTLE_ENDIAN` -/
def hostBigEndian : Nat := 0
@[inherit_doc hostBigEndian] def hostLittleEndian : Nat := 1

/-- `getbyteorder`: look at the first byte of a known word. -/
def getbyteorder : Nat :=
  if (store16 0x5533).head? = some 0x55 then hostBigEndian else hostLittleEndian

/-- The global `endianness`, set by `imcomm_create_handle`. -/
def endianness : Nat := getbyteorder

theorem endianness_eq :
    endianness = if Host.bigEndian then hostBigEndian else hostLittleEndian := by
  cases h : Host.bigEndian <;> simp [endianness, getbyteorder, store16, h] <;> decide

end

/-! ## `pkt_t` -/

/-- `pkt_t`: a block, the length it was made with, and the cursor. -/
structure Pkt where
  data : List UInt8
  len : Nat
  offset : Nat
deriving DecidableEq, Repr

/-- `pkt_initP`: a packet over a buffer that is already there. -/
def pktInitP (data : List UInt8) (len : UInt16) : Pkt := ⟨data, len.toNat, 0⟩

/-- `pkt_empty`: the room left, an unsigned difference. -/
def pktEmpty (pkt : Pkt) : Nat := sizeT (pkt.len - pkt.offset : Int)

/-- `pkt_skip` -/
def pktSkip (pkt : Pkt) (skipnum : Nat) : Pkt := { pkt with offset := pkt.offset + skipnum }

/-- `pkt_end` -/
def pktEnd (pkt : Pkt) : Bool := pkt.offset ≥ pkt.len

/-! ## writers -/

/-- The common part of the writers: `memcpy` behind the cursor, then move it. -/
def pktPut (pkt : Pkt) (bs : List UInt8) : Pkt × ImcommRet :=
  if pktEmpty pkt < bs.length then (pkt, .error)
  else ({ pkt with data := poke pkt.data pkt.offset bs, offset := pkt.offset + bs.length }, .ok)

section
variable [Host]

/-- `pkt_init`: an empty packet over a fresh block. -/
def pktInit (len : Nat) : Pkt := ⟨malloc len, len, 0⟩

/-- `pkt_add8` -/
def pktAdd8 (pkt : Pkt) (data : UInt8) : Pkt × ImcommRet := pktPut pkt [data]

/-- `pkt_add16` -/
def pktAdd16 (pkt : Pkt) (val : UInt16) : Pkt × ImcommRet :=
  if endianness = hostBigEndian then pktPut pkt (store16 val)
  else pktPut pkt (store16 (byteSwap16 val))

/-- `pkt_add32` -/
def pktAdd32 (pkt : Pkt) (val : UInt32) : Pkt × ImcommRet :=
  if endianness = hostBigEndian then pktPut pkt (store32 val)
  else pktPut pkt (store32 (byteSwap32 val))

/-- `pkt_addraw` -/
def pktAddraw (pkt : Pkt) (data : List UInt8) : Pkt × ImcommRet := pktPut pkt data

theorem pktAdd16_eq (pkt : Pkt) (val : UInt16) : pktAdd16 pkt val = pktPut pkt (be16 val) := by
  cases h : Host.bigEndian <;>
    simp [pktAdd16, endianness_eq, h, store16, be16_byteSwap16, hostBigEndian, hostLittleEndian]

theorem pktAdd32_eq (pkt : Pkt) (val : UInt32) : pktAdd32 pkt val = pktPut pkt (be32 val) := by
  cases h : Host.bigEndian <;>
    simp [pktAdd32, endianness_eq, h, store32, be32_byteSwap32, hostBigEndian, hostLittleEndian]

end

/-- One `pkt_add` call, with its argument. -/
inductive PktAdd where
  | add8 (v : UInt8)
  | add16 (v : UInt16)
  | add32 (v : UInt32)
  | addraw (bs : List UInt8)
deriving DecidableEq, Repr

namespace PktAdd

/-- The bytes the field takes on the wire. -/
def bytes : PktAdd → List UInt8
  | add8 v => [v]
  | add16 v => be16 v
  | add32 v => be32 v
  | addraw bs => bs

end PktAdd

/-- The bytes a run of fields takes on the wire. -/
def fieldBytes (fs : List PktAdd) : List UInt8 := (fs.map PktAdd.bytes).flatten

@[simp] theorem fieldBytes_nil : fieldBytes [] = [] := rfl

@[simp] theorem fieldBytes_cons (f : PktAdd) (fs : List PktAdd) :
    fieldBytes (f :: fs) = f.bytes ++ fieldBytes fs := rfl

/-- A packet whose first `pre.length` bytes are written, and no others. -/
structure Pkt.Holds (pkt : Pkt) (pre : List UInt8) : Prop where
  offset_eq : pkt.offset = pre.length
  len_eq : pkt.data.length = pkt.len
  data_eq : ∃ rest, pkt.data = pre ++ rest

/-- The written part lies inside the block. -/
theorem Pkt.Holds.le {pkt : Pkt} {pre : List UInt8} (h : pkt.Holds pre) :
    pre.length ≤ pkt.len := by
  obtain ⟨rest, hrest⟩ := h.data_eq
  rw [← h.len_eq, hrest, List.length_append]
  omega

/-- The room is what the written part leaves. -/
theorem Pkt.Holds.empty_eq {pkt : Pkt} {pre : List UInt8} (h : pkt.Holds pre) :
    pktEmpty pkt = pkt.len - pre.length := by
  have hle := h.le
  rw [pktEmpty, h.offset_eq, sizeT_of_nonneg (by omega)]
  omega

/-- A field that fits is appended to the written part. -/
theorem Pkt.Holds.put {pkt : Pkt} {pre : List UInt8} (h : pkt.Holds pre) (bs : List UInt8)
    (hfit : pre.length + bs.length ≤ pkt.len) :
    (pktPut pkt bs).2 = .ok ∧ (pktPut pkt bs).1.Holds (pre ++ bs) ∧
      (pktPut pkt bs).1.len = pkt.len := by
  have hroom : ¬ pktEmpty pkt < bs.length := by
    rw [h.empty_eq]; omega
  have hlen : (poke pkt.data pkt.offset bs).length = pkt.len := by
    rw [length_poke (by rw [h.offset_eq, h.len_eq]; exact hfit), h.len_eq]
  obtain ⟨rest, hrest⟩ := h.data_eq
  rw [pktPut, if_neg hroom]
  refine ⟨rfl, ⟨?_, hlen, ⟨rest.drop bs.length, ?_⟩⟩, rfl⟩
  · simp [h.offset_eq]
  · simp only [hrest]
    exact poke_append h.offset_eq.symm

section
variable [Host]

/-- Make the call. -/
def PktAdd.run (pkt : Pkt) : PktAdd → Pkt × ImcommRet
  | .add8 v => pktAdd8 pkt v
  | .add16 v => pktAdd16 pkt v
  | .add32 v => pktAdd32 pkt v
  | .addraw bs => pktAddraw pkt bs

/-- On either host a call writes the big-endian bytes of its field. -/
theorem PktAdd.run_eq (pkt : Pkt) (f : PktAdd) : f.run pkt = pktPut pkt f.bytes := by
  cases f with
  | add8 v => rfl
  | add16 v => exact pktAdd16_eq pkt v
  | add32 v => exact pktAdd32_eq pkt v
  | addraw bs => rfl

/-- A run of `pkt_add` calls whose answers nobody looks at. -/
def pktAddAll (pkt : Pkt) (fs : List PktAdd) : Pkt := fs.foldl (fun p f => (f.run p).1) pkt

theorem holds_pktInit (n : Nat) : (pktInit n).Holds [] :=
  ⟨rfl, length_malloc n, ⟨malloc n, rfl⟩⟩

/-- A run of fields that fit is appended to the written part. -/
theorem Pkt.Holds.addAll {pkt : Pkt} {pre : List UInt8} (h : pkt.Holds pre) (fs : List PktAdd)
    (hfit : pre.length + (fieldBytes fs).length ≤ pkt.len) :
    (pktAddAll pkt fs).Holds (pre ++ fieldBytes fs) ∧ (pktAddAll pkt fs).len = pkt.len := by
  induction fs generalizing pkt pre with
  | nil => simpa [pktAddAll] using h
  | cons f fs ih =>
      rw [fieldBytes_cons, List.length_append] at hfit
      obtain ⟨-, hput, hlen⟩ := h.put f.bytes (by omega)
      rw [← f.run_eq pkt] at hput hlen
      have hrec := ih hput (by rw [List.length_append, hlen]; omega)
      rw [hlen, List.append_assoc] at hrec
      exact hrec

/-- A run of fields of which some may not fit: those are left out, and the
packet keeps to its block. -/
theorem Pkt.Holds.addSome {pkt : Pkt} {pre : List UInt8} (h : pkt.Holds pre) (fs : List PktAdd) :
    ∃ pre', (pktAddAll pkt fs).Holds pre' := by
  induction fs generalizing pkt pre with
  | nil => exact ⟨pre, h⟩
  | cons f fs ih =>
      have hstep : ∃ pre', (f.run pkt).1.Holds pre' := by
        rw [f.run_eq]
        by_cases hfit : pre.length + f.bytes.length ≤ pkt.len
        · exact ⟨_, (h.put f.bytes hfit).2.1⟩
        · have hfull : pktEmpty pkt < f.bytes.length := by
            have hle := h.le
            rw [h.empty_eq]
            omega
          rw [pktPut, if_pos hfull]
          exact ⟨pre, h⟩
      obtain ⟨pre', hpre'⟩ := hstep
      exact ih hpre'

/-- A packet made with exactly the size of the fields is filled by them. -/
theorem pktAddAll_eq (fs : List PktAdd) {n : Nat} (hn : (fieldBytes fs).length = n) :
    pktAddAll (pktInit n) fs = ⟨fieldBytes fs, n, n⟩ := by
  obtain ⟨⟨hoff, hlen, rest, hdata⟩, hlen'⟩ :=
    (holds_pktInit n).addAll fs (by rw [hn]; exact Nat.le_of_eq (Nat.zero_add n))
  rw [List.nil_append] at hoff hdata
  have hrest : rest = [] := by
    have hl := congrArg List.length hdata
    rw [hlen, hlen', List.length_append, hn] at hl
    exact List.length_eq_zero_iff.mp (by simpa [pktInit] using hl)
  rw [hrest, List.append_nil] at hdata
  cases hp : pktAddAll (pktInit n) fs with
  | mk data len offset =>
      rw [hp] at hoff hdata hlen'
      simp only [pktInit] at hoff hdata hlen'
      rw [hdata, hlen', hoff, hn]

end

/-! ## readers -/

/-- Read the byte at index `i`. -/
def peek (data : List UInt8) (i : Nat) : Except Fault UInt8 :=
  match data[i]? with
  | some b => .ok b
  | none => .error .oob

/-- `memcpy` of `n` bytes from index `i` on; copying nothing reads nothing. -/
def peekN (data : List UInt8) (i n : Nat) : Except Fault (List UInt8) :=
  if n = 0 ∨ i + n ≤ data.length then .ok ((data.drop i).take n) else .error .oob

/-- `pkt_getraw`: the cursor moves by the length cut to 16 bits. -/
def pktGetraw (pkt : Pkt) (len : Nat) : Except Fault (List UInt8 × Pkt) := do
  let buf ← peekN pkt.data pkt.offset len
  return (buf, { pkt with offset := pkt.offset + (uint16 len).toNat })

/-- A NUL-terminated string, up to the terminator. -/
def cstr (buf : List UInt8) : List UInt8 := buf.takeWhile (· ≠ 0)

theorem zero_notMem_cstr (s : List UInt8) : 0 ∉ cstr s := by
  intro h
  rw [cstr] at h
  simpa using List.mem_takeWhile_imp h

/-- The C string of bytes without a NUL is those bytes. -/
theorem cstr_of_no_nul {s : List UInt8} (h : 0 ∉ s) : cstr s = s := takeWhile_ne_of_notMem h

/-- `pkt_getstr`: the copied bytes, before the terminator put behind them. -/
def pktGetstr (pkt : Pkt) (len : Nat) : Except Fault (List UInt8 × Pkt) := do
  let buf ← peekN pkt.data pkt.offset len
  return (buf, { pkt with offset := pkt.offset + (uint16 len).toNat })

theorem peek_eq_error {data : List UInt8} {i : Nat} (h : data.length ≤ i) :
    peek data i = .error .oob := by
  rw [peek, List.getElem?_eq_none h]

theorem peekN_append {pre bs rest : List UInt8} {i : Nat} (h : pre.length = i) :
    peekN (pre ++ (bs ++ rest)) i bs.length = .ok bs := by
  subst h
  rw [peekN, if_pos (by simp only [List.length_append]; omega)]
  simp

section
variable [Host]

/-- `two_to_16` -/
def twoTo16 (value : List UInt8) : Except Fault UInt16 := do
  let a ← peek value 0
  let b ← peek value 1
  let temp := load16 a b
  if endianness = hostLittleEndian then return byteSwap16 temp else return temp

/-- `four_to_32` -/
def fourTo32 (value : List UInt8) : Except Fault UInt32 := do
  let a ← peek value 0
  let b ← peek value 1
  let c ← peek value 2
  let d ← peek value 3
  let temp := load32 a b c d
  if endianness = hostLittleEndian then return byteSwap32 temp else return temp

/-- `pkt_get8` -/
def pktGet8 (pkt : Pkt) : Except Fault (UInt8 × Pkt) := do
  let val ← peek pkt.data pkt.offset
  return (val, { pkt with offset := pkt.offset + 1 })

/-- `pkt_get16` -/
def pktGet16 (pkt : Pkt) : Except Fault (UInt16 × Pkt) := do
  let val ← twoTo16 (pkt.data.drop pkt.offset)
  return (val, { pkt with offset := pkt.offset + 2 })

/-- `pkt_get32` -/
def pktGet32 (pkt : Pkt) : Except Fault (UInt32 × Pkt) := do
  let val ← fourTo32 (pkt.data.drop pkt.offset)
  return (val, { pkt with offset := pkt.offset + 4 })

/-- On either host `two_to_16` reads a big-endian word. -/
@[simp] theorem twoTo16_cons (a b : UInt8) (bs : List UInt8) :
    twoTo16 (a :: b :: bs) = .ok (ofBe16 a b) := by
  have hdef : twoTo16 (a :: b :: bs) =
      if endianness = hostLittleEndian then .ok (byteSwap16 (load16 a b))
      else .ok (load16 a b) := rfl
  rw [hdef, endianness_eq]
  cases h : Host.bigEndian <;> simp [load16, h, hostBigEndian, hostLittleEndian, byteSwap16_ofBe16]

@[simp] theorem fourTo32_cons (a b c d : UInt8) (bs : List UInt8) :
    fourTo32 (a :: b :: c :: d :: bs) = .ok (ofBe32 a b c d) := by
  have hdef : fourTo32 (a :: b :: c :: d :: bs) =
      if endianness = hostLittleEndian then .ok (byteSwap32 (load32 a b c d))
      else .ok (load32 a b c d) := rfl
  rw [hdef, endianness_eq]
  cases h : Host.bigEndian <;> simp [load32, h, hostBigEndian, hostLittleEndian, byteSwap32_ofBe32]

/-- `two_to_16` reads two bytes. -/
theorem twoTo16_eq_error {value : List UInt8} (h : value.length < 2) :
    twoTo16 value = .error .oob := by
  match value, h with
  | [], _ => rfl
  | [a], _ => rfl

/-- `four_to_32` reads four bytes. -/
theorem fourTo32_eq_error {value : List UInt8} (h : value.length < 4) :
    fourTo32 value = .error .oob := by
  match value, h with
  | [], _ => rfl
  | [a], _ => rfl
  | [a, b], _ => rfl
  | [a, b, c], _ => rfl

/-- `four_to_32` returns when there are four bytes. -/
theorem fourTo32_of_le {value : List UInt8} (h : 4 ≤ value.length) :
    ∃ v, fourTo32 value = .ok v := by
  match value with
  | [] | [_] | [_, _] | [_, _, _] => simp at h
  | a :: b :: c :: d :: bs => exact ⟨_, fourTo32_cons a b c d bs⟩

/-- The word at the front of a buffer. -/
theorem twoTo16_be16_append (v : UInt16) (rest : List UInt8) :
    twoTo16 (be16 v ++ rest) = .ok v := by
  simp [be16]

/-! ## a cursor in front of known bytes -/

/-- The cursor stands in front of `bs`. -/
def Pkt.At (pkt : Pkt) (bs : List UInt8) : Prop := pkt.data.drop pkt.offset = bs

omit [Host] in
/-- Moving the cursor over bytes. -/
theorem Pkt.At.skip {pkt : Pkt} {bs rest : List UInt8} (h : pkt.At (bs ++ rest)) {n : Nat}
    (hn : bs.length = n) : Pkt.At { pkt with offset := pkt.offset + n } rest := by
  have hdrop : pkt.data.drop (pkt.offset + n) = (pkt.data.drop pkt.offset).drop n :=
    List.drop_drop.symm
  rw [Pkt.At] at h ⊢
  rw [hdrop, h, List.drop_left' hn]

omit [Host] in
theorem pktGet8_at {pkt : Pkt} {b : UInt8} {rest : List UInt8} (h : pkt.At (b :: rest)) :
    ∃ pkt', pktGet8 pkt = .ok (b, pkt') ∧ pkt'.At rest := by
  have hpeek : peek pkt.data pkt.offset = .ok b := by
    have hget := congrArg (fun l => peek l 0) h
    simpa [peek] using hget
  refine ⟨{ pkt with offset := pkt.offset + 1 }, ?_, Pkt.At.skip h (show [b].length = 1 from rfl)⟩
  rw [pktGet8, hpeek]
  rfl

theorem pktGet16_at {pkt : Pkt} {v : UInt16} {rest : List UInt8} (h : pkt.At (be16 v ++ rest)) :
    ∃ pkt', pktGet16 pkt = .ok (v, pkt') ∧ pkt'.At rest := by
  refine ⟨{ pkt with offset := pkt.offset + 2 }, ?_, h.skip (length_be16 v)⟩
  rw [pktGet16, h, twoTo16_be16_append]
  rfl

omit [Host] in
theorem pktGetstr_at {pkt : Pkt} {bs rest : List UInt8} (h : pkt.At (bs ++ rest))
    (hbs : bs.length < 65536) :
    ∃ pkt', pktGetstr pkt bs.length = .ok (bs, pkt') ∧ pkt'.At rest := by
  have hread : peekN pkt.data pkt.offset bs.length = .ok bs := by
    have hlen := congrArg List.length h
    rw [List.length_drop, List.length_append] at hlen
    rw [peekN, if_pos (by omega), h, List.take_left]
  refine ⟨_, ?_, h.skip (toNat_uint16_of_lt hbs).symm⟩
  rw [pktGetstr, hread]
  rfl

omit [Host] in
theorem pktSkip_at {pkt : Pkt} {bs rest : List UInt8} (h : pkt.At (bs ++ rest)) {n : Nat}
    (hn : bs.length = n) : (pktSkip pkt n).At rest :=
  h.skip hn

end

end Bsflite
