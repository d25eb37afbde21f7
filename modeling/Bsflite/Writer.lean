import Bsflite.CString

/-!
# Bsflite.Writer

The writers of `packet.c` with their memory.  Each one stores into the block
that `pkt_init` allocated, and a store outside of it is a `Fault`; the builders
of the library ignore what the writers answer.

* `Pkt.Holds.store_eq` — what one call does to a packet with known contents.
* `packet_writer` — no run of calls leaves the block, and what a run leaves in
  it are the fields that were accepted.
-/

namespace Bsflite

section
variable [Host]

/-! ## in memory -/

/-- The common part of the writers, with the `memcpy` into the block. -/
def pktStore (pkt : Pkt) (bs : List UInt8) : Except Fault (Pkt × ImcommRet) :=
  if pktEmpty pkt < bs.length then return (pkt, .error)
  else do
    let data ← storeN pkt.data pkt.offset bs
    return ({ pkt with data := data, offset := pkt.offset + bs.length }, .ok)

/-- Make the call. -/
def PktAdd.store (pkt : Pkt) : PktAdd → Except Fault (Pkt × ImcommRet)
  | .add8 v => pktStore pkt [v]
  | .add16 v =>
    if endianness = hostBigEndian then pktStore pkt (store16 v)
    else pktStore pkt (store16 (byteSwap16 v))
  | .add32 v =>
    if endianness = hostBigEndian then pktStore pkt (store32 v)
    else pktStore pkt (store32 (byteSwap32 v))
  | .addraw bs => pktStore pkt bs

/-- A run of calls: the packet, and what each call returned. -/
def pktStoreAll (pkt : Pkt) : List PktAdd → Except Fault (Pkt × List ImcommRet)
  | [] => return (pkt, [])
  | f :: fs => do
    let (pkt, ret) ← f.store pkt
    let (pkt, rets) ← pktStoreAll pkt fs
    return (pkt, ret :: rets)

omit [Host] in
/-- The bytes of the calls that returned `IMCOMM_RET_OK`. -/
def acceptedBytes : List PktAdd → List ImcommRet → List UInt8
  | f :: fs, ret :: rets => (if ret = .ok then f.bytes else []) ++ acceptedBytes fs rets
  | _, _ => []

/-! ## one call -/

/-- On either host a call stores the big-endian bytes of its field. -/
theorem PktAdd.store_eq (pkt : Pkt) (f : PktAdd) : f.store pkt = pktStore pkt f.bytes := by
  cases f with
  | add8 v => rfl
  | add16 v =>
      cases h : Host.bigEndian <;>
        simp [PktAdd.store, endianness_eq, h, store16, be16_byteSwap16, hostBigEndian,
          hostLittleEndian, PktAdd.bytes]
  | add32 v =>
      cases h : Host.bigEndian <;>
        simp [PktAdd.store, endianness_eq, h, store32, be32_byteSwap32, hostBigEndian,
          hostLittleEndian, PktAdd.bytes]
  | addraw bs => rfl

/-- A call on a packet that holds `pre`: the room that is left decides. -/
theorem Pkt.Holds.store_eq {pkt : Pkt} {pre : List UInt8} (h : pkt.Holds pre) (f : PktAdd) :
    f.store pkt = .ok (f.run pkt) ∧
      ((f.run pkt).2 = .error ↔ pkt.len - pkt.offset < f.bytes.length) ∧
      ((f.run pkt).2 = .error → (f.run pkt).1 = pkt) := by
  have hroom := h.empty_eq
  have hle := h.le
  rw [← h.offset_eq] at hroom hle
  rw [f.store_eq, f.run_eq, pktStore, pktPut, hroom]
  by_cases hfull : pkt.len - pkt.offset < f.bytes.length
  · rw [if_pos hfull, if_pos hfull]
    exact ⟨rfl, by simp [hfull], fun _ => rfl⟩
  · have hfit : pkt.offset + f.bytes.length ≤ pkt.data.length := by
      rw [h.len_eq]
      omega
    simp only [if_neg hfull, storeN_of_le hfit, ok_bind]
    exact ⟨rfl, by simp [hfull], by simp⟩

/-- An accepted field is behind the others afterwards. -/
theorem Pkt.Holds.run_holds {pkt : Pkt} {pre : List UInt8} (h : pkt.Holds pre) (f : PktAdd) :
    (f.run pkt).1.Holds (pre ++ acceptedBytes [f] [(f.run pkt).2]) ∧
      (f.run pkt).1.len = pkt.len := by
  obtain ⟨-, hret, hkept⟩ := h.store_eq f
  by_cases hfull : pkt.len - pkt.offset < f.bytes.length
  · have herror := hret.mpr hfull
    rw [hkept herror, herror]
    exact ⟨by simpa [acceptedBytes] using h, rfl⟩
  · have hle := h.le
    have hoff := h.offset_eq
    obtain ⟨hok, hput, hlen⟩ := h.put f.bytes (by omega)
    rw [← f.run_eq] at hok hput hlen
    simpa [hok, acceptedBytes] using ⟨hput, hlen⟩

/-! ## a run of calls -/

/-- A run of calls on a packet that holds `pre`. -/
theorem Pkt.Holds.storeAll_eq {pkt : Pkt} {pre : List UInt8} (h : pkt.Holds pre)
    (fs : List PktAdd) :
    ∃ rets, pktStoreAll pkt fs = .ok (pktAddAll pkt fs, rets) ∧ rets.length = fs.length ∧
      (pktAddAll pkt fs).Holds (pre ++ acceptedBytes fs rets) ∧
      (pktAddAll pkt fs).len = pkt.len := by
  induction fs generalizing pkt pre with
  | nil => exact ⟨[], rfl, rfl, by simpa [acceptedBytes, pktAddAll] using h, rfl⟩
  | cons f fs ih =>
      obtain ⟨hholds, hlen⟩ := h.run_holds f
      obtain ⟨rets, hrest, hcount, hholds', hlen'⟩ := ih hholds
      refine ⟨(f.run pkt).2 :: rets, ?_, by rw [List.length_cons, hcount, List.length_cons], ?_,
        hlen'.trans hlen⟩
      · rw [pktStoreAll, (h.store_eq f).1, ok_bind]
        simp only [hrest, ok_bind]
        rfl
      · simpa [acceptedBytes, pktAddAll] using hholds'

/-- **Packet writers**: after any run of calls on a fresh packet the offset is
inside the block and the bytes in front of it are those of the calls that
returned `IMCOMM_RET_OK`; the next call is refused exactly when its field is
longer than the room that is left, and then changes nothing. -/
theorem packet_writer (len : Nat) (calls : List PktAdd) :
    ∃ (pkt : Pkt) (rets : List ImcommRet),
      pktStoreAll (pktInit len) calls = .ok (pkt, rets) ∧ rets.length = calls.length ∧
      pkt.len = len ∧ pkt.data.length = len ∧ pkt.offset ≤ len ∧
      pkt.data.take pkt.offset = acceptedBytes calls rets ∧
      ∀ call : PktAdd, ∃ (pkt' : Pkt) (ret : ImcommRet), call.store pkt = .ok (pkt', ret) ∧
        (ret = .error ↔ len - pkt.offset < call.bytes.length) ∧ (ret = .error → pkt' = pkt) := by
  obtain ⟨rets, hrun, hcount, hholds, hlen⟩ := (holds_pktInit len).storeAll_eq calls
  have hlen : (pktAddAll (pktInit len) calls).len = len := hlen
  rw [List.nil_append] at hholds
  have hle := hholds.le
  obtain ⟨hoff, hblock, rest, hdata⟩ := hholds
  refine ⟨_, rets, hrun, hcount, hlen, hblock.trans hlen, by omega, ?_, fun call => ?_⟩
  · rw [hdata, hoff, List.take_left]
  · have hcall := Pkt.Holds.store_eq ⟨hoff, hblock, rest, hdata⟩ call
    rw [hlen] at hcall
    exact ⟨_, _, hcall⟩

end

end Bsflite
