import Bsflite.Packet

/-!
# Bsflite.Field

What `pkt_add8` … `pkt_addraw` write, `pkt_get8` … `pkt_getraw` read back.
The reader is given the types of the fields; the writer may have had a block
with room to spare.

The bytes in between know nothing of the host: both hosts write most
significant bytes first.

* `pktGetAll_at` — the reader, anywhere in a block.
* `packet_field_codec` — what is written is read back.
-/

namespace Bsflite

/-- The type of a field; the reader of a raw block is told its length. -/
inductive FieldType where
  | byte
  | word
  | long
  | raw (len : Nat)
deriving DecidableEq, Repr

/-- The type of a written field. -/
def PktAdd.type : PktAdd → FieldType
  | add8 _ => .byte
  | add16 _ => .word
  | add32 _ => .long
  | addraw bs => .raw bs.length

/-- A raw block of at most 65535 bytes; the readers move by a 16-bit length. -/
def PktAdd.Short : PktAdd → Prop
  | addraw bs => bs.length ≤ 65535
  | _ => True

instance (f : PktAdd) : Decidable f.Short := by
  cases f <;> unfold PktAdd.Short <;> infer_instance

section
variable [Host]

/-- One `pkt_get` call: the field that is read. -/
def pktGetField (pkt : Pkt) : FieldType → Except Fault (PktAdd × Pkt)
  | .byte => do
    let (v, pkt) ← pktGet8 pkt
    return (.add8 v, pkt)
  | .word => do
    let (v, pkt) ← pktGet16 pkt
    return (.add16 v, pkt)
  | .long => do
    let (v, pkt) ← pktGet32 pkt
    return (.add32 v, pkt)
  | .raw len => do
    let (bs, pkt) ← pktGetraw pkt len
    return (.addraw bs, pkt)

/-- A run of `pkt_get` calls. -/
def pktGetAll (pkt : Pkt) : List FieldType → Except Fault (List PktAdd × Pkt)
  | [] => .ok ([], pkt)
  | t :: ts => do
    let (f, pkt) ← pktGetField pkt t
    let (fs, pkt) ← pktGetAll pkt ts
    return (f :: fs, pkt)

/-- The long word at the front of a buffer. -/
theorem fourTo32_be32_append (v : UInt32) (rest : List UInt8) :
    fourTo32 (be32 v ++ rest) = .ok v := by
  simp [be32]

omit [Host] in
/-- The block in front of a cursor. -/
theorem peekN_at {pkt : Pkt} {bs rest : List UInt8} (h : pkt.At (bs ++ rest)) :
    peekN pkt.data pkt.offset bs.length = .ok bs := by
  have hlen := congrArg List.length h
  rw [List.length_drop, List.length_append] at hlen
  rw [peekN, if_pos (by omega), h, List.take_left]

/-- A field in front of the cursor is read, and the cursor moves over it. -/
theorem pktGetField_at {pkt : Pkt} {f : PktAdd} {rest : List UInt8} (h : pkt.At (f.bytes ++ rest))
    (hf : f.Short) :
    pktGetField pkt f.type = .ok (f, { pkt with offset := pkt.offset + f.bytes.length }) := by
  cases f with
  | add8 v =>
      have hpeek : peek pkt.data pkt.offset = .ok v := by
        have hget := congrArg (fun l => peek l 0) h
        simpa [peek, PktAdd.bytes] using hget
      simp only [PktAdd.type, pktGetField, pktGet8, hpeek, ok_bind]
      rfl
  | add16 v =>
      have hread : twoTo16 (pkt.data.drop pkt.offset) = .ok v := by
        rw [h]
        exact twoTo16_be16_append v rest
      simp only [PktAdd.type, pktGetField, pktGet16, hread, ok_bind, PktAdd.bytes, length_be16]
      rfl
  | add32 v =>
      have hread : fourTo32 (pkt.data.drop pkt.offset) = .ok v := by
        rw [h]
        exact fourTo32_be32_append v rest
      simp only [PktAdd.type, pktGetField, pktGet32, hread, ok_bind, PktAdd.bytes, length_be32]
      rfl
  | addraw bs =>
      -- the length survives the cast to 16 bits
      have hcast : (uint16 bs.length).toNat = bs.length :=
        toNat_uint16_of_lt (Nat.lt_succ_of_le hf)
      have hread : peekN pkt.data pkt.offset bs.length = .ok bs := peekN_at h
      simp only [PktAdd.type, pktGetField, pktGetraw, hread, ok_bind, hcast, PktAdd.bytes]
      rfl

/-- A run of reads over the fields in front of the cursor. -/
theorem pktGetAll_at {pkt : Pkt} {fs : List PktAdd} {rest : List UInt8}
    (h : pkt.At (fieldBytes fs ++ rest)) (hfs : ∀ f ∈ fs, f.Short) :
    pktGetAll pkt (fs.map PktAdd.type) =
      .ok (fs, { pkt with offset := pkt.offset + (fieldBytes fs).length }) := by
  induction fs generalizing pkt with
  | nil => rfl
  | cons f fs ih =>
      rw [fieldBytes_cons, List.append_assoc] at h
      have hfirst := pktGetField_at h (hfs f List.mem_cons_self)
      have hrest := ih (h.skip rfl) fun g hg => hfs g (List.mem_cons_of_mem f hg)
      rw [List.map_cons, pktGetAll, hfirst, ok_bind]
      simp only [hrest, ok_bind, fieldBytes_cons, List.length_append, Nat.add_assoc]
      rfl

end

/-- **Packet fields**: fields that fit into a packet are read back by their
types, with the cursor behind them, and every host writes the same bytes. -/
theorem packet_field_codec (fs : List PktAdd) {len : Nat} (hlen : (fieldBytes fs).length ≤ len)
    (hfs : ∀ f ∈ fs, f.Short) :
    (∀ [Host], pktGetAll { pktAddAll (pktInit len) fs with offset := 0 } (fs.map PktAdd.type) =
        .ok (fs, { pktAddAll (pktInit len) fs with offset := (fieldBytes fs).length })) ∧
      ∀ [Host], (pktAddAll (pktInit len) fs).offset = (fieldBytes fs).length ∧
        (pktAddAll (pktInit len) fs).data.take (fieldBytes fs).length = fieldBytes fs := by
  have hwritten : ∀ [Host], (pktAddAll (pktInit len) fs).Holds (fieldBytes fs) := fun {_} =>
    ((holds_pktInit len).addAll fs (by simpa [pktInit] using hlen)).1
  constructor
  · intro _
    obtain ⟨rest, hdata⟩ := hwritten.data_eq
    have hat : Pkt.At { pktAddAll (pktInit len) fs with offset := 0 } (fieldBytes fs ++ rest) :=
      hdata
    rw [pktGetAll_at hat hfs, Nat.zero_add]
  · intro _
    obtain ⟨rest, hdata⟩ := hwritten.data_eq
    exact ⟨hwritten.offset_eq, by rw [hdata, List.take_left]⟩

/-- A byte, a word, a block and a long word. -/
def mixedFields : List PktAdd := [.add8 1, .add16 0x0203, .addraw [4], .add32 0x05060708]

/-- They are read back from a packet of twelve bytes. -/
theorem packet_field_codec_twelve_bytes :
    @pktGetAll littleEndianHost { @pktAddAll littleEndianHost (@pktInit littleEndianHost 12)
        mixedFields with offset := 0 } [.byte, .word, .raw 1, .long] =
      .ok (mixedFields, { @pktAddAll littleEndianHost (@pktInit littleEndianHost 12)
        mixedFields with offset := 8 }) := by
  obtain ⟨hread, -⟩ := @packet_field_codec mixedFields 12 (by decide) (by decide)
  exact @hread littleEndianHost

end Bsflite
