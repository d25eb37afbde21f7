import Bsflite.Packet

/-!
# Bsflite.Tlv

The type/length/value lists of `imcomm/snac.c`: `tlv_split`, which every
inbound parser rests on, and `count_tlv`.

A TLV on the wire is its type, the length of its value (both 16 bits,
big-endian) and the value.  `tlvBytes` is that encoding; the two halves of
the codec are `tlvSplit_tlvBytes` (what was encoded is read back) and
`tlvSplit_sound` (what is read encodes to the buffer).
-/

namespace Bsflite

/-- `TLVLIST`, one node.  The `len` field of a node is the length of its
value, so it is derived. -/
structure Tlv where
  type : UInt16
  value : { v : List UInt8 // v.length < 65536 }
deriving DecidableEq

namespace Tlv

/-- The `len` field. -/
def len (t : Tlv) : UInt16 := uint16 t.value.val.length

@[simp] theorem toNat_len (t : Tlv) : t.len.toNat = t.value.val.length :=
  toNat_uint16_of_lt t.value.property

/-- The bytes of a TLV on the wire. -/
def bytes (t : Tlv) : List UInt8 := be16 t.type ++ be16 t.len ++ t.value.val

@[simp] theorem length_bytes (t : Tlv) : t.bytes.length = 4 + t.value.val.length := by
  simp only [bytes, List.length_append, length_be16]

/-- The length field is zero exactly for an empty value. -/
theorem len_eq_zero_iff (t : Tlv) : t.len = 0 ↔ t.value.val = [] := by
  rw [← UInt16.toNat_inj, toNat_len]
  exact List.length_eq_zero_iff

end Tlv

/-- The bytes of a TLV list on the wire. -/
def tlvBytes (ts : List Tlv) : List UInt8 := (ts.map Tlv.bytes).flatten

@[simp] theorem tlvBytes_nil : tlvBytes [] = [] := rfl

@[simp] theorem tlvBytes_cons (t : Tlv) (ts : List Tlv) :
    tlvBytes (t :: ts) = t.bytes ++ tlvBytes ts := rfl

@[simp] theorem tlvBytes_append (ts us : List Tlv) :
    tlvBytes (ts ++ us) = tlvBytes ts ++ tlvBytes us := by
  simp [tlvBytes]

/-- Every TLV takes at least four bytes. -/
theorem length_le_length_tlvBytes (ts : List Tlv) : 4 * ts.length ≤ (tlvBytes ts).length := by
  induction ts with
  | nil => simp
  | cons t ts ih =>
      rw [tlvBytes_cons, List.length_append, Tlv.length_bytes, List.length_cons]
      omega

section
variable [Host]

/-! ## `tlv_split` -/

/-- The value block of a node: `malloc` and `memcpy` of `n` bytes. -/
def copyValue (data : List UInt8) (i : Nat) (n : UInt16) :
    Except Fault { v : List UInt8 // v.length < 65536 } :=
  if n = 0 ∨ i + n.toNat ≤ data.length then
    .ok ⟨(data.drop i).take n.toNat, by
      have h := n.toNat_lt
      rw [List.length_take]
      omega⟩
  else .error .oob

/-- The loop of `tlv_split`: `x` is the 16-bit cursor, compared with a
`size_t` length; an empty value is neither copied nor skipped.  The fuel
bounds the iterations. -/
def tlvLoop (data : List UInt8) (len : Nat) : Nat → UInt16 → Except Fault (List Tlv)
  | 0, _ => .error .hang
  | fuel + 1, x =>
    if x.toNat < len then do
      let type ← twoTo16 (data.drop x.toNat)
      let tlen ← twoTo16 (data.drop (x.toNat + 2))
      let x := x + 4
      let value ← copyValue data x.toNat tlen
      let x := if tlen ≠ 0 then x + tlen else x
      let next ← tlvLoop data len fuel x
      return ⟨type, value⟩ :: next
    else return []

/-- `tlv_split`; the argument `numtlv` is not used.  A buffer of at most
65535 bytes is left after one iteration for every four bytes. -/
def tlvSplit (data : List UInt8) (len : Nat) (_numtlv : Nat) : Except Fault (List Tlv) :=
  tlvLoop data len (data.length + 1) 0

/-! ## `count_tlv` -/

/-- The loop of `count_tlv_pkt`. -/
def countTlvPktLoop : Nat → Pkt → Except Fault Nat
  | 0, _ => .error .hang
  | fuel + 1, tp =>
    if tp.offset < tp.len then do
      let (_, tp) ← pktGet16 tp
      let (skipnum, tp) ← pktGet16 tp
      let num ← countTlvPktLoop fuel (pktSkip tp skipnum.toNat)
      return num + 1
    else return 0

/-- `count_tlv_pkt` -/
def countTlvPkt (tp : Pkt) : Except Fault Nat := countTlvPktLoop (tp.len + 1) tp

/-- `count_tlv` -/
def countTlv (data : List UInt8) (len : Nat) : Except Fault Nat :=
  countTlvPkt (pktInitP data (uint16 len))

/-! ## one iteration -/

/-- Reading a word in front of which `pre` stands. -/
theorem twoTo16_drop_append (pre : List UInt8) (v : UInt16) (rest : List UInt8) {i : Nat}
    (h : pre.length = i) : twoTo16 ((pre ++ (be16 v ++ rest)).drop i) = .ok v := by
  rw [drop_append_of_length h, twoTo16_be16_append]

/-- A buffer too short for the word at `i`. -/
theorem twoTo16_drop_error {data : List UInt8} {i : Nat} (h : data.length < i + 2) :
    twoTo16 (data.drop i) = .error .oob :=
  twoTo16_eq_error (by rw [List.length_drop]; omega)

/-- A buffer long enough for the word at `i` holds one there. -/
theorem exists_twoTo16_drop (data : List UInt8) (i : Nat) (h : i + 2 ≤ data.length) :
    ∃ v, twoTo16 (data.drop i) = .ok v ∧ data.drop i = be16 v ++ data.drop (i + 2) := by
  match hd : data.drop i with
  | [] | [_] =>
      have hl := congrArg List.length hd
      simp only [List.length_drop, List.length_nil, List.length_cons] at hl
      omega
  | a :: b :: rest =>
      refine ⟨ofBe16 a b, twoTo16_cons a b rest, ?_⟩
      have hrest : data.drop (i + 2) = rest := by
        rw [← List.drop_drop, hd]; rfl
      rw [be16_ofBe16, hrest]
      rfl

/-- An iteration in front of an encoded TLV reads that TLV and moves behind
it, as long as the cursor does not wrap. -/
theorem tlvLoop_step (pre : List UInt8) (t : Tlv) (rest : List UInt8) (len fuel : Nat) (x : UInt16)
    (hx : x.toNat = pre.length) (hlen : pre.length < len)
    (hwrap : pre.length + t.bytes.length ≤ 65535) :
    tlvLoop (pre ++ (t.bytes ++ rest)) len (fuel + 1) x =
      (tlvLoop (pre ++ (t.bytes ++ rest)) len fuel (x + uint16 t.bytes.length)).map (t :: ·) := by
  rw [Tlv.length_bytes] at hwrap
  have hx4 : (x + 4).toNat = pre.length + 4 := by
    rw [UInt16.toNat_add, hx, show (4 : UInt16).toNat = 4 from rfl]
    omega
  have htype : twoTo16 ((pre ++ (t.bytes ++ rest)).drop x.toNat) = .ok t.type := by
    rw [Tlv.bytes, List.append_assoc, List.append_assoc]
    exact twoTo16_drop_append pre t.type _ hx.symm
  have htlen : twoTo16 ((pre ++ (t.bytes ++ rest)).drop (x.toNat + 2)) = .ok t.len := by
    have h := twoTo16_drop_append (pre ++ be16 t.type) t.len (t.value.val ++ rest)
      (show (pre ++ be16 t.type).length = x.toNat + 2 by
        rw [List.length_append, length_be16, hx])
    simpa [Tlv.bytes, List.append_assoc] using h
  have hvalue : copyValue (pre ++ (t.bytes ++ rest)) (x + 4).toNat t.len = .ok t.value := by
    have hdrop : (pre ++ (t.bytes ++ rest)).drop (pre.length + 4) = t.value.val ++ rest := by
      rw [Tlv.bytes]
      simp only [List.append_assoc]
      rw [← List.drop_drop, drop_append_of_length rfl]
      rfl
    rw [copyValue, if_pos]
    · congr 1
      apply Subtype.ext
      simp only [hx4, hdrop, Tlv.toNat_len, List.take_left']
    · right
      rw [hx4, Tlv.toNat_len]
      simp only [List.length_append, Tlv.length_bytes]
      omega
  have hcursor : (if t.len ≠ 0 then x + 4 + t.len else x + 4) = x + uint16 t.bytes.length := by
    apply UInt16.toNat_inj.mp
    by_cases h0 : t.len = 0
    · have hv := (t.len_eq_zero_iff.mp h0)
      rw [if_neg (not_not.mpr h0), hx4, UInt16.toNat_add, hx, toNat_uint16, Tlv.length_bytes, hv]
      simp only [List.length_nil]
      omega
    · rw [if_pos h0, UInt16.toNat_add, hx4, UInt16.toNat_add, hx, toNat_uint16, Tlv.length_bytes,
        Tlv.toNat_len]
      omega
  have hlt : x.toNat < len := by omega
  rw [tlvLoop, if_pos hlt, htype]
  simp only [bind, Except.bind, htlen, hvalue, hcursor]
  cases tlvLoop (pre ++ (t.bytes ++ rest)) len fuel (x + uint16 t.bytes.length) with
  | error e => rfl
  | ok next => rfl

/-- At the end of the list the loop stops. -/
theorem tlvLoop_end (data : List UInt8) (len fuel : Nat) (x : UInt16) (h : len ≤ x.toNat) :
    tlvLoop data len (fuel + 1) x = .ok [] := by
  rw [tlvLoop, if_neg (by omega)]
  rfl

/-! ## what was encoded is read back -/

/-- The loop in front of an encoded list.  The cursor stays below 2^16
because the list ends where the buffer does. -/
theorem tlvLoop_tlvBytes (pre : List UInt8) (ts : List Tlv) (fuel : Nat) (x : UInt16)
    (hx : x.toNat = pre.length) (hlen : pre.length + (tlvBytes ts).length ≤ 65535)
    (hfuel : ts.length < fuel) :
    tlvLoop (pre ++ tlvBytes ts) (pre.length + (tlvBytes ts).length) fuel x = .ok ts := by
  induction ts generalizing pre fuel x with
  | nil =>
      obtain ⟨fuel, rfl⟩ : ∃ k, fuel = k + 1 := ⟨fuel - 1, by omega⟩
      exact tlvLoop_end _ _ _ _ (by simp [hx])
  | cons t ts ih =>
      obtain ⟨fuel, rfl⟩ : ∃ k, fuel = k + 1 := ⟨fuel - 1, by omega⟩
      rw [tlvBytes_cons, List.length_append] at hlen
      have ht := t.length_bytes
      have hx' : (x + uint16 t.bytes.length).toNat = (pre ++ t.bytes).length := by
        rw [UInt16.toNat_add, hx, toNat_uint16, List.length_append]
        omega
      have hrec := ih (pre ++ t.bytes) fuel (x + uint16 t.bytes.length) hx'
        (by rw [List.length_append]; omega) (by simpa using hfuel)
      rw [tlvBytes_cons, List.length_append, tlvLoop_step pre t (tlvBytes ts) _ fuel x hx
        (by omega) (by omega)]
      rw [List.append_assoc, List.length_append, Nat.add_assoc] at hrec
      rw [hrec]
      rfl

/-- `tlv_split` reads back an encoded list. -/
theorem tlvSplit_tlvBytes (ts : List Tlv) (numtlv : Nat) (h : (tlvBytes ts).length ≤ 65535) :
    tlvSplit (tlvBytes ts) (tlvBytes ts).length numtlv = .ok ts := by
  have hcount := length_le_length_tlvBytes ts
  have hloop :=
    tlvLoop_tlvBytes [] ts ((tlvBytes ts).length + 1) 0 rfl (by simpa using h) (by omega)
  simpa [tlvSplit] using hloop

/-! ## what is read encodes to the buffer -/

/-- An iteration either leaves the buffer or has read the encoding of a TLV
in front of the cursor, which then does not wrap. -/
theorem tlvLoop_cases {data : List UInt8} {len : Nat} {x : UInt16} (fuel : Nat)
    (hlen : data.length ≤ 65535) (hlt : x.toNat < len) :
    tlvLoop data len (fuel + 1) x = .error .oob ∨
    ∃ t : Tlv, data.drop x.toNat = t.bytes ++ data.drop (x.toNat + t.bytes.length) ∧
      (x + uint16 t.bytes.length).toNat = x.toNat + t.bytes.length ∧
      x.toNat + t.bytes.length ≤ data.length ∧
      tlvLoop data len (fuel + 1) x =
        (tlvLoop data len fuel (x + uint16 t.bytes.length)).map (t :: ·) := by
  by_cases hroom : x.toNat + 4 ≤ data.length
  · obtain ⟨type, htype, hd0⟩ := exists_twoTo16_drop data x.toNat (by omega)
    obtain ⟨tlen, htlen, hd2⟩ := exists_twoTo16_drop data (x.toNat + 2) (by omega)
    by_cases hfit : x.toNat + 4 + tlen.toNat ≤ data.length
    · right
      have hvlen : ((data.drop (x.toNat + 4)).take tlen.toNat).length = tlen.toNat := by
        rw [List.length_take, List.length_drop]
        omega
      obtain ⟨t, ht⟩ : ∃ t : Tlv, t = ⟨type, (data.drop (x.toNat + 4)).take tlen.toNat,
        by rw [hvlen]; exact tlen.toNat_lt⟩ := ⟨_, rfl⟩
      have htl : t.len = tlen := by
        apply UInt16.toNat_inj.mp
        rw [Tlv.toNat_len, ht, hvlen]
      have hblen : t.bytes.length = 4 + tlen.toNat := by
        rw [Tlv.length_bytes, ht, hvlen]
      have hdrop : data.drop x.toNat = t.bytes ++ data.drop (x.toNat + t.bytes.length) := by
        rw [hblen, hd0, hd2, Tlv.bytes, htl, ht, List.append_assoc, List.append_assoc,
          ← Nat.add_assoc x.toNat 4, ← List.drop_drop (l := data) (i := tlen.toNat),
          List.take_append_drop]
      have hsplit :
          data.take x.toNat ++ (t.bytes ++ data.drop (x.toNat + t.bytes.length)) = data := by
        rw [← hdrop, List.take_append_drop]
      have htake : x.toNat = (data.take x.toNat).length := by
        rw [List.length_take]
        omega
      have hstep := tlvLoop_step (data.take x.toNat) t (data.drop (x.toNat + t.bytes.length)) len
        fuel x htake (by omega) (by omega)
      rw [hsplit] at hstep
      refine ⟨t, hdrop, ?_, by omega, hstep⟩
      rw [UInt16.toNat_add, toNat_uint16]
      omega
    · left
      have hx4 : (x + 4).toNat = x.toNat + 4 := by
        rw [UInt16.toNat_add, show (4 : UInt16).toNat = 4 from rfl]
        omega
      have hne : tlen ≠ 0 := by
        rintro rfl
        exact hfit hroom
      have hvalue : copyValue data (x + 4).toNat tlen = .error .oob := by
        rw [copyValue, hx4, if_neg (by simp only [hne, false_or]; exact hfit)]
      rw [tlvLoop, if_pos hlt, htype]
      simp only [bind, Except.bind, htlen, hvalue]
  · left
    rw [tlvLoop, if_pos hlt]
    by_cases h2 : x.toNat + 2 ≤ data.length
    · obtain ⟨type, htype, -⟩ := exists_twoTo16_drop data x.toNat h2
      rw [htype, twoTo16_drop_error (by omega)]
      rfl
    · rw [twoTo16_drop_error (by omega)]
      rfl

/-- The loop returns a list that is encoded in front of its cursor, or it
leaves the buffer; it does so whenever the length is more than the buffer
holds. -/
theorem tlvLoop_sound {data : List UInt8} (hlen : data.length ≤ 65535) (len fuel : Nat)
    (x : UInt16) (hx : x.toNat ≤ data.length) (hfuel : data.length < fuel + x.toNat) :
    tlvLoop data len fuel x = .error .oob ∨
    ∃ ts, tlvLoop data len fuel x = .ok ts ∧ len ≤ data.length ∧
      (len = data.length → tlvBytes ts = data.drop x.toNat) := by
  induction fuel generalizing x with
  | zero => omega
  | succ fuel ih =>
      by_cases hlt : x.toNat < len
      · rcases tlvLoop_cases fuel hlen hlt with hout | ⟨t, hdrop, hcursor, hin, hstep⟩
        · exact Or.inl hout
        · have hpos := t.length_bytes
          rcases ih (x + uint16 t.bytes.length) (by omega) (by omega) with
            hout | ⟨ts, hok, hle, hbytes⟩
          · exact Or.inl (by rw [hstep, hout]; rfl)
          · refine Or.inr ⟨t :: ts, by rw [hstep, hok]; rfl, hle, fun heq => ?_⟩
            rw [tlvBytes_cons, hbytes heq, hcursor, hdrop]
      · refine Or.inr ⟨[], tlvLoop_end _ _ _ _ (by omega), by omega, fun heq => ?_⟩
        rw [List.drop_of_length_le (by omega)]
        rfl

/-- `tlv_split` stays inside the buffer and returns a list, or it leaves the
buffer. -/
theorem tlvSplit_cases {data : List UInt8} (hlen : data.length ≤ 65535) (len numtlv : Nat) :
    tlvSplit data len numtlv = .error .oob ∨
    ∃ ts, tlvSplit data len numtlv = .ok ts ∧ len ≤ data.length ∧
      (len = data.length → tlvBytes ts = data) := by
  have h := tlvLoop_sound hlen len (data.length + 1) 0 (Nat.zero_le _) (by simp)
  rwa [UInt16.toNat_zero, List.drop_zero] at h

/-- A buffer on which `tlv_split` stays inside encodes the list it returns. -/
theorem tlvSplit_sound {data : List UInt8} {numtlv : Nat} {ts : List Tlv}
    (hlen : data.length ≤ 65535) (h : tlvSplit data data.length numtlv = .ok ts) :
    tlvBytes ts = data := by
  rcases tlvSplit_cases hlen data.length numtlv with hout | ⟨ts', hok, -, hbytes⟩
  · rw [h] at hout
    contradiction
  · rw [h] at hok
    rw [Except.ok.inj hok]
    exact hbytes rfl

/-! ## counting -/

/-- `count_tlv` walks over an encoded list without looking at the values. -/
theorem countTlvPktLoop_tlvBytes (pre : List UInt8) (ts : List Tlv) (fuel : Nat)
    (hfuel : ts.length < fuel) :
    countTlvPktLoop fuel
        ⟨pre ++ tlvBytes ts, pre.length + (tlvBytes ts).length, pre.length⟩ = .ok ts.length := by
  induction ts generalizing pre fuel with
  | nil =>
      obtain ⟨fuel, rfl⟩ : ∃ k, fuel = k + 1 := ⟨fuel - 1, by omega⟩
      rw [countTlvPktLoop, if_neg (by simp)]
      rfl
  | cons t ts ih =>
      obtain ⟨fuel, rfl⟩ : ∃ k, fuel = k + 1 := ⟨fuel - 1, by omega⟩
      have hrec := ih (pre ++ t.bytes) fuel (by simpa using hfuel)
      have hlt : pre.length < pre.length + (tlvBytes (t :: ts)).length := by
        rw [tlvBytes_cons, List.length_append, Tlv.length_bytes]
        omega
      have htype : twoTo16 ((pre ++ tlvBytes (t :: ts)).drop pre.length) = .ok t.type := by
        rw [tlvBytes_cons, Tlv.bytes, List.append_assoc, List.append_assoc]
        exact twoTo16_drop_append pre t.type _ rfl
      have htlen : twoTo16 ((pre ++ tlvBytes (t :: ts)).drop (pre.length + 2)) = .ok t.len := by
        have h := twoTo16_drop_append (pre ++ be16 t.type) t.len (t.value.val ++ tlvBytes ts)
          (show (pre ++ be16 t.type).length = pre.length + 2 by simp)
        simpa [Tlv.bytes, List.append_assoc] using h
      rw [countTlvPktLoop, if_pos hlt]
      simp only [pktGet16, bind, Except.bind, htype, htlen, pure, Except.pure, pktSkip,
        Tlv.toNat_len]
      rw [tlvBytes_cons, List.length_append, Tlv.length_bytes]
      rw [List.append_assoc, List.length_append, Tlv.length_bytes] at hrec
      rw [show pre.length + (4 + t.value.val.length + (tlvBytes ts).length) =
        pre.length + (4 + t.value.val.length) + (tlvBytes ts).length by omega,
        show pre.length + 2 + 2 + t.value.val.length =
          pre.length + (4 + t.value.val.length) by omega,
        hrec]
      rfl

/-- `count_tlv` counts an encoded list. -/
theorem countTlv_tlvBytes (ts : List Tlv) (h : (tlvBytes ts).length ≤ 65535) :
    countTlv (tlvBytes ts) (tlvBytes ts).length = .ok ts.length := by
  have hcount := length_le_length_tlvBytes ts
  have hlen : (uint16 (tlvBytes ts).length).toNat = (tlvBytes ts).length :=
    toNat_uint16_of_lt (by omega)
  have hloop := countTlvPktLoop_tlvBytes [] ts ((tlvBytes ts).length + 1) (by omega)
  simpa [countTlv, countTlvPkt, pktInitP, hlen] using hloop

/-! ## the codec -/

/-- **TLV codec**: `tlv_split` and `count_tlv` invert the encoding, and a
buffer on which `tlv_split` stays inside is the encoding of the list it
returns. -/
theorem tlv_codec :
    (∀ (ts : List Tlv) (numtlv : Nat), (tlvBytes ts).length ≤ 65535 →
      tlvSplit (tlvBytes ts) (tlvBytes ts).length numtlv = .ok ts ∧
        countTlv (tlvBytes ts) (tlvBytes ts).length = .ok ts.length) ∧
    (∀ (data : List UInt8) (numtlv : Nat) (ts : List Tlv), data.length ≤ 65535 →
      tlvSplit data data.length numtlv = .ok ts →
        tlvBytes ts = data ∧ countTlv data data.length = .ok ts.length) := by
  refine ⟨fun ts numtlv h => ⟨tlvSplit_tlvBytes ts numtlv h, countTlv_tlvBytes ts h⟩, ?_⟩
  intro data numtlv ts hlen hsplit
  have hbytes := tlvSplit_sound hlen hsplit
  subst hbytes
  exact ⟨rfl, countTlv_tlvBytes ts hlen⟩

end

/-- An empty value in front of a value of two bytes, in both directions. -/
theorem tlv_codec_empty_then_two :
    @tlvSplit littleEndianHost [0, 4, 0, 0, 0, 1, 0, 2, 7, 48] 10 0 =
        .ok [⟨4, [], by decide⟩, ⟨1, [7, 48], by decide⟩] ∧
      @countTlv littleEndianHost [0, 4, 0, 0, 0, 1, 0, 2, 7, 48] 10 = .ok 2 ∧
      tlvBytes [⟨4, [], by decide⟩, ⟨1, [7, 48], by decide⟩] = [0, 4, 0, 0, 0, 1, 0, 2, 7, 48] := by
  have hread := (@tlv_codec littleEndianHost).1 [⟨4, [], by decide⟩, ⟨1, [7, 48], by decide⟩] 0
    (by decide)
  have hback := (@tlv_codec littleEndianHost).2 [0, 4, 0, 0, 0, 1, 0, 2, 7, 48] 0
    [⟨4, [], by decide⟩, ⟨1, [7, 48], by decide⟩] (by decide) hread.1
  exact ⟨hread.1, hread.2, hback.1⟩

end Bsflite
