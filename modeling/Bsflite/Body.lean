import Bsflite.Tlv

/-!
# Bsflite.Body

The bodies that the library builds.  A builder counts the size of its packet
by hand and looks at none of the writers' answers, so a body comes out right
only when the size is the sum of the fields.

* `complete_iff` — every field is written and no byte is left over exactly
  when the size was counted right.
* `Carries` — a body that is complete, and read as a list of TLVs.
-/

namespace Bsflite

section
variable [Host]

/-! ## complete packets -/

/-- The answers to a run of `pkt_add` calls. -/
def pktAnswers (pkt : Pkt) : List PktAdd → List ImcommRet
  | [] => []
  | f :: fs => (f.run pkt).2 :: pktAnswers (f.run pkt).1 fs

/-- The fields are all written to a packet of `n` bytes, and fill it. -/
structure Complete (n : Nat) (fs : List PktAdd) : Prop where
  answers : ∀ r ∈ pktAnswers (pktInit n) fs, r = .ok
  filled : (pktAddAll (pktInit n) fs).offset = n

/-- A field that does not fit is answered with an error. -/
theorem run_error {pkt : Pkt} {pre : List UInt8} (h : pkt.Holds pre) (f : PktAdd)
    (hover : pkt.len < pre.length + f.bytes.length) : (f.run pkt).2 = .error := by
  have hfull : pktEmpty pkt < f.bytes.length := by
    have hle := h.le
    rw [h.empty_eq]
    omega
  rw [f.run_eq, pktPut, if_pos hfull]

/-- No answer is an error exactly when the fields fit. -/
theorem pktAnswers_ok_iff {pkt : Pkt} {pre : List UInt8} (h : pkt.Holds pre) (fs : List PktAdd) :
    (∀ r ∈ pktAnswers pkt fs, r = .ok) ↔ pre.length + (fieldBytes fs).length ≤ pkt.len := by
  induction fs generalizing pkt pre with
  | nil => simpa [pktAnswers] using h.le
  | cons f fs ih =>
      rw [pktAnswers, List.forall_mem_cons, fieldBytes_cons, List.length_append]
      by_cases hfit : pre.length + f.bytes.length ≤ pkt.len
      · obtain ⟨hok, hput, hlen⟩ := h.put f.bytes hfit
        rw [← f.run_eq pkt] at hok hput hlen
        have hrest := ih hput
        rw [hlen, List.length_append, Nat.add_assoc] at hrest
        rw [hok, hrest]
        simp
      · have herror := run_error h f (by omega)
        rw [herror]
        refine ⟨fun hall => absurd hall.1 nofun, fun hall => absurd hall ?_⟩
        omega

/-- Whatever fits and whatever does not, the block keeps its size. -/
theorem Pkt.Holds.addAll_any {pkt : Pkt} {pre : List UInt8} (h : pkt.Holds pre) (fs : List PktAdd) :
    ∃ pre', (pktAddAll pkt fs).Holds pre' ∧ (pktAddAll pkt fs).len = pkt.len := by
  induction fs generalizing pkt pre with
  | nil => exact ⟨pre, h, rfl⟩
  | cons f fs ih =>
      by_cases hfit : pre.length + f.bytes.length ≤ pkt.len
      · obtain ⟨-, hput, hlen⟩ := h.put f.bytes hfit
        rw [← f.run_eq pkt] at hput hlen
        obtain ⟨pre', hrest, hlen'⟩ := ih hput
        exact ⟨pre', hrest, hlen'.trans hlen⟩
      · have hsame : (f.run pkt).1 = pkt := by
          have hfull : pktEmpty pkt < f.bytes.length := by
            rw [h.empty_eq]
            have := h.le
            omega
          rw [f.run_eq, pktPut, if_pos hfull]
        obtain ⟨pre', hrest, hlen'⟩ := ih (hsame.symm ▸ h)
        exact ⟨pre', hrest, hlen'.trans (by rw [hsame])⟩

/-- The block of a packet has the size that it was made with. -/
theorem length_pktAddAll_data (n : Nat) (fs : List PktAdd) :
    (pktAddAll (pktInit n) fs).data.length = n ∧ (pktAddAll (pktInit n) fs).len = n := by
  obtain ⟨pre, hholds, hlen⟩ := (holds_pktInit n).addAll_any fs
  exact ⟨hholds.len_eq.trans hlen, hlen⟩

/-- **A packet is complete** exactly when its size is that of its fields. -/
theorem complete_iff (n : Nat) (fs : List PktAdd) :
    Complete n fs ↔ (fieldBytes fs).length = n := by
  have hanswers := pktAnswers_ok_iff (holds_pktInit n) fs
  rw [List.length_nil, Nat.zero_add] at hanswers
  constructor
  · intro hcomplete
    have hfit := hanswers.mp hcomplete.answers
    have hholds := ((holds_pktInit n).addAll fs (by rwa [List.length_nil, Nat.zero_add])).1
    have hoffset := hholds.offset_eq
    rw [hcomplete.filled, List.nil_append] at hoffset
    exact hoffset.symm
  · intro hlen
    refine ⟨hanswers.mpr (Nat.le_of_eq hlen), ?_⟩
    rw [pktAddAll_eq fs hlen]

/-! ## lists of TLVs -/

/-- A type and a value. -/
abbrev Entry := UInt16 × List UInt8

omit [Host] in
/-- The type and the value of a TLV. -/
def Tlv.entry (t : Tlv) : Entry := (t.type, t.value.val)

omit [Host] in
/-- The bytes of a list of types and values. -/
def entryBytes (es : List Entry) : List UInt8 :=
  es.flatMap fun e => be16 e.1 ++ be16 (uint16 e.2.length) ++ e.2

omit [Host] in
theorem entryBytes_nil : entryBytes [] = [] := rfl

omit [Host] in
theorem entryBytes_cons (e : Entry) (es : List Entry) :
    entryBytes (e :: es) = be16 e.1 ++ be16 (uint16 e.2.length) ++ e.2 ++ entryBytes es := rfl

omit [Host] in
theorem length_entryBytes_cons (e : Entry) (es : List Entry) :
    (entryBytes (e :: es)).length = 4 + e.2.length + (entryBytes es).length := by
  simp [entryBytes_cons]
  omega

omit [Host] in
/-- Values that fit make a list of TLVs. -/
theorem exists_tlvs {es : List Entry} (h : (entryBytes es).length ≤ 65535) :
    ∃ ts : List Tlv, ts.map Tlv.entry = es ∧ tlvBytes ts = entryBytes es := by
  induction es with
  | nil => exact ⟨[], rfl, rfl⟩
  | cons e es ih =>
      rw [length_entryBytes_cons] at h
      obtain ⟨ts, hts, hbytes⟩ := ih (by omega)
      exact ⟨⟨e.1, e.2, by omega⟩ :: ts, by rw [List.map_cons, hts]; rfl,
        by rw [tlvBytes_cons, hbytes]; rfl⟩

/-- `tlv_split` reads the list off its bytes. -/
theorem tlvSplit_entryBytes {es : List Entry} (h : (entryBytes es).length ≤ 65535) (numtlv : Nat) :
    ∃ ts, tlvSplit (entryBytes es) (entryBytes es).length numtlv = .ok ts ∧
      ts.map Tlv.entry = es := by
  obtain ⟨ts, hts, hbytes⟩ := exists_tlvs h
  exact ⟨ts, hbytes ▸ tlvSplit_tlvBytes ts numtlv (by rwa [hbytes]), hts⟩

/-- A body of `n` bytes with these fields: it is complete, and behind its
first `skip` bytes it is read as a list of TLVs. -/
structure Carries (n : Nat) (fs : List PktAdd) (skip : Nat) (es : List Entry) : Prop where
  complete : Complete n fs
  split : ∀ numtlv, ∃ ts,
    tlvSplit ((pktAddAll (pktInit n) fs).data.drop skip) (n - skip) numtlv = .ok ts ∧
      ts.map Tlv.entry = es

/-- A body whose size is the sum of its fields, which are those of the
list. -/
theorem carries_of_bytes {n : Nat} {fs : List PktAdd} (front : List UInt8) {es : List Entry}
    (hbytes : fieldBytes fs = front ++ entryBytes es)
    (hn : front.length + (entryBytes es).length = n) (hfit : (entryBytes es).length ≤ 65535) :
    Carries n fs front.length es := by
  have hlen : (fieldBytes fs).length = n := by rw [hbytes, List.length_append, hn]
  refine ⟨(complete_iff n fs).mpr hlen, fun numtlv => ?_⟩
  obtain ⟨ts, hsplit, hts⟩ := tlvSplit_entryBytes hfit numtlv
  refine ⟨ts, ?_, hts⟩
  rw [pktAddAll_eq fs hlen, hbytes, List.drop_left, ← hn, Nat.add_sub_cancel_left]
  exact hsplit

end

end Bsflite
