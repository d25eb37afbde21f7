import Bsflite.Inbound
import Bsflite.Inside

/-!
# Bsflite.Safety

Which packets the inbound parsers read without leaving the packet.

`PayloadShape` is a grammar of payloads: for each family and subtype the
fields that must be there and the TLV lists that must be complete.  The
parsers' only own check is the length test at the front of `snac_decode`, so
each theorem below is an equivalence between a parser staying `Inside` and
the shape of what it is given; `inbound_inside` puts them together.
-/

namespace Bsflite

/-! ## shapes -/

/-- A complete TLV list from offset `k` to the end of the payload, in which
a value has at least as many bytes as its type needs. -/
def TlvsFrom (d : List UInt8) (k : Nat) (need : UInt16 → Nat) : Prop :=
  k ≤ d.length ∧ ∃ ts, tlvBytes ts = d.drop k ∧ ∀ t ∈ ts, need t.type ≤ t.value.val.length

/-- TLVs of which no value is looked at, or only as far as it goes. -/
def noNeed (_ : UInt16) : Nat := 0

/-- The idle time, the flags and the sign-on time of a buddy. -/
def signonNeed (type : UInt16) : Nat :=
  if type = 0x0004 then 2 else if type = 0x0001 then 2 else if type = 0x0003 then 4 else 0

/-- The sign-on time of the sender of a message. -/
def incomingNeed (type : UInt16) : Nat := if type = 0x0003 then 4 else 0

/-- The two limits of the privacy rights. -/
def privacyNeed (type : UInt16) : Nat :=
  if type = 0x0001 then 2 else if type = 0x0002 then 2 else 0

/-- The service of a new connection. -/
def subconnectionNeed (type : UInt16) : Nat := if type = 0x000D then 2 else 0

/-- SNAC (03,0C): the name. -/
def SignoffShape (d : List UInt8) : Prop := 11 + (byteAt d 10).toNat ≤ d.length

/-- SNAC (03,0B): the name, two words and the TLVs. -/
def SignonShape (d : List UInt8) : Prop := TlvsFrom d (15 + (byteAt d 10).toNat) signonNeed

/-- The message block of SNAC (04,07): TLVs again, and four bytes in front
of the text. -/
def MessageShape (ts : List Tlv) : Prop :=
  ∀ t, ts.find? (fun trav => trav.type = 0x0002) = some t →
    ∃ us, tlvBytes us = t.value.val ∧
      ∀ u, us.find? (fun trav2 => trav2.type = 0x0101) = some u → 4 ≤ u.value.val.length

/-- SNAC (04,07): the cookie, the channel, the name, two words and the TLVs. -/
def IncomingShape (d : List UInt8) : Prop :=
  25 + (byteAt d 20).toNat ≤ d.length ∧
    ∃ ts, tlvBytes ts = d.drop (25 + (byteAt d 20).toNat) ∧
      (∀ t ∈ ts, incomingNeed t.type ≤ t.value.val.length) ∧ MessageShape ts

/-- `n` items of the server-side list from offset `i` on.  The data of an
item is skipped, so that of the last one may be missing. -/
def SsiItemsFit (d : List UInt8) : Nat → Nat → Prop
  | 0, _ => True
  | n + 1, i =>
    let nameLen := (wordAt d i).toNat
    i + 10 + nameLen ≤ d.length ∧
      SsiItemsFit d n (i + 10 + nameLen + (wordAt d (i + 8 + nameLen)).toNat)

/-- SNAC (13,06): a version, a count, and as many items. -/
def SsiShape (d : List UInt8) : Prop :=
  13 ≤ d.length ∧ SsiItemsFit d (wordAt d 11).toNat 13

/-- SNACs for a child handle. -/
def ChildShape (d : List UInt8) (family subfamily : UInt16) : Prop :=
  family = 0x0001 ∧ subfamily = 0x0003 → 13 ≤ d.length ∧ (byteAt d 12 = 0 → 14 ≤ d.length)

/-- Family 0x0017: the MD5 login. -/
def Md5Shape (d : List UInt8) : Prop :=
  if byteAt d 3 = 0x07 then 12 + (wordAt d 10).toNat ≤ d.length
  else if byteAt d 3 = 0x03 then TlvsFrom d 10 noNeed
  else True

/-- Family 0x0001.  The ids of the rate classes stand 35 bytes apart, at
cursors of 16 bits. -/
def GenericShape (errorCallback : Bool) (d : List UInt8) (subfamily flags : UInt16) : Prop :=
  if subfamily = 0x0003 then 10 ≤ d.length ∧ (d.length - 10) % 2 = 0
  else if subfamily = 0x0005 then TlvsFrom d 18 subconnectionNeed
  else if subfamily = 0x0018 then True
  else if subfamily = 0x0007 then
    12 ≤ d.length ∧ ∀ k < (wordAt d 10).toNat, 10 + (2 + 35 * k) % 65536 + 2 ≤ d.length
  else if subfamily = 0x000a then errorCallback = true → 20 ≤ d.length
  else if subfamily = 0x000f then flags = 0x8000 ∨ SignoffShape d
  else True

/-- Family 0x0002. -/
def LocationShape (d : List UInt8) (subfamily : UInt16) : Prop :=
  if subfamily = 0x0003 then 22 ≤ d.length
  else if subfamily = 0x0006 then TlvsFrom d (15 + (byteAt d 10).toNat) noNeed
  else True

/-- Family 0x0003. -/
def BuddyShape (d : List UInt8) (subfamily : UInt16) : Prop :=
  if subfamily = 0x0003 then TlvsFrom d 10 noNeed
  else if subfamily = 0x0C then SignoffShape d
  else if subfamily = 0x0B then SignonShape d
  else True

/-- Family 0x0004. -/
def IcbmShape (d : List UInt8) (subfamily : UInt16) : Prop :=
  if subfamily = 0x0001 then 12 ≤ d.length
  else if subfamily = 0x0005 then 24 ≤ d.length
  else if subfamily = 0x0007 then IncomingShape d
  else True

/-- A SNAC: nothing of the header, or the family, the subtype and the flags,
and then what the family asks for. -/
def SnacShape (ischild errorCallback : Bool) (d : List UInt8) : Prop :=
  d.length ≤ 4 ∨ 6 ≤ d.length ∧
    if ischild then ChildShape d (wordAt d 0) (wordAt d 2)
    else if wordAt d 0 = 0x0017 then Md5Shape d
    else if wordAt d 0 = 0x0001 then GenericShape errorCallback d (wordAt d 2) (wordAt d 4)
    else if wordAt d 0 = 0x0002 then LocationShape d (wordAt d 2)
    else if wordAt d 0 = 0x0003 then BuddyShape d (wordAt d 2)
    else if wordAt d 0 = 0x0004 then IcbmShape d (wordAt d 2)
    else if wordAt d 0 = 0x0009 then wordAt d 2 = 0x0003 → TlvsFrom d 10 privacyNeed
    else if wordAt d 0 = 0x0013 then wordAt d 2 = 0x0006 → SsiShape d
    else True

/-- The authorization cookie from offset `i` on: a server name and a cookie,
each behind its length, and a word between them. -/
def CookieShape (d : List UInt8) (i : Nat) : Prop :=
  let serverLen := (wordAt d i).toNat
  i + 6 + serverLen ≤ d.length ∧
    i + 6 + serverLen + (wordAt d (i + 4 + serverLen)).toNat ≤ d.length

/-- A frame on channel 4. -/
def SignoffFrameShape (d : List UInt8) : Prop :=
  2 ≤ d.length ∧
    if wordAt d 0 = 0x0009 then 4 ≤ d.length
    else if wordAt d 0 = 0x0001 then
      let snLen := (wordAt d 2).toNat
      6 + snLen ≤ d.length ∧ (wordAt d (4 + snLen) = 0x0005 → CookieShape d (6 + snLen))
    else True

/-- The payload of a frame, by the channel of the frame. -/
def PayloadShape (ischild errorCallback : Bool) (channel : UInt8) (d : List UInt8) : Prop :=
  if channel = 0x02 then SnacShape ischild errorCallback d
  else if channel = 0x04 then SignoffFrameShape d
  else True

section
variable [Host]

/-! ## loops over TLVs -/

/-- What a loop over a TLV list asks of its body: to read a value exactly
as far as its type needs. -/
def ReadsNeed {σ : Type} (step : σ → Tlv → Except Fault σ) (need : UInt16 → Nat) : Prop :=
  ∀ s t, (need t.type ≤ t.value.val.length → ∃ s', step s t = .ok s') ∧
    (¬ need t.type ≤ t.value.val.length → step s t = .error .oob)

/-- A TLV list that runs to the end of the payload, and a loop over it. -/
theorem inside_tlvs {σ β : Type} {step : σ → Tlv → Except Fault σ} {need : UInt16 → Nat}
    (hstep : ReadsNeed step need) {d : List UInt8} (hd : d.length ≤ 65535) {k : Nat}
    (hk : k ≤ 65536) (numtlv : Nat) (s : List Tlv → σ) {f : List Tlv → σ → Except Fault β}
    {Q : List Tlv → Prop} (hf : ∀ ts s, Inside (f ts s) ↔ Q ts) :
    Inside (tlvSplit (d.drop k) (sizeT (d.length - k)) numtlv >>= fun ts =>
        ts.foldlM step (s ts) >>= f ts) ↔
      k ≤ d.length ∧ ∃ ts, tlvBytes ts = d.drop k ∧
        (∀ t ∈ ts, need t.type ≤ t.value.val.length) ∧ Q ts := by
  rw [inside_tlvSplit_drop_bind hd k numtlv hk]
  refine and_congr_right fun _ => exists_congr fun ts => and_congr_right fun _ => ?_
  exact inside_foldlM_bind (fun s t => (hstep s t).1) (fun s t => (hstep s t).2) (s ts) ts (hf ts)

/-- The same, when nothing behind the loop reads. -/
theorem inside_tlvs_return {σ β : Type} {step : σ → Tlv → Except Fault σ} {need : UInt16 → Nat}
    (hstep : ReadsNeed step need) {d : List UInt8} (hd : d.length ≤ 65535) {k : Nat}
    (hk : k ≤ 65536) (numtlv : Nat) (s : List Tlv → σ) {f : List Tlv → σ → Except Fault β}
    (hf : ∀ ts s, Inside (f ts s)) :
    Inside (tlvSplit (d.drop k) (sizeT (d.length - k)) numtlv >>= fun ts =>
        ts.foldlM step (s ts) >>= f ts) ↔ TlvsFrom d k need := by
  rw [inside_tlvs hstep hd hk numtlv s (Q := fun _ => True) (fun ts s => iff_true_intro (hf ts s))]
  simp only [and_true, TlvsFrom]

/-- A value whose first two bytes are read. -/
theorem reads_two {σ : Type} (t : Tlv) (g : UInt16 → σ) :
    (2 ≤ t.value.val.length → ∃ s', (twoTo16 t.value.val >>= fun v => pure (g v)) = .ok s') ∧
      (¬ 2 ≤ t.value.val.length → (twoTo16 t.value.val >>= fun v => pure (g v)) = .error .oob) := by
  rw [twoTo16_eq]
  refine ⟨fun h => ⟨_, by rw [if_pos h]; rfl⟩, fun h => by rw [if_neg h]; rfl⟩

/-- A value whose first four bytes are read. -/
theorem reads_four {σ : Type} (t : Tlv) (g : UInt32 → σ) :
    (4 ≤ t.value.val.length → ∃ s', (fourTo32 t.value.val >>= fun v => pure (g v)) = .ok s') ∧
      (¬ 4 ≤ t.value.val.length →
        (fourTo32 t.value.val >>= fun v => pure (g v)) = .error .oob) := by
  constructor
  · intro h
    obtain ⟨v, hv⟩ := fourTo32_of_le h
    exact ⟨g v, by rw [hv]; rfl⟩
  · intro h
    rw [fourTo32_eq_error (by omega)]
    rfl

omit [Host] in
/-- A value that is not read. -/
theorem reads_none {σ : Type} (t : Tlv) (s : σ) :
    (0 ≤ t.value.val.length → ∃ s', (pure s : Except Fault σ) = .ok s') ∧
      (¬ 0 ≤ t.value.val.length → (pure s : Except Fault σ) = .error .oob) :=
  ⟨fun _ => ⟨s, rfl⟩, fun h => absurd (Nat.zero_le _) h⟩

section
variable {σ : Type} (cbs : Callbacks σ)

theorem readsNeed_signonTlv (sn : Str) : ReadsNeed (signonTlv cbs sn) signonNeed := by
  intro s t
  unfold signonTlv signonNeed
  by_cases h4 : t.type = 0x0004
  · rw [if_pos h4, if_pos h4]
    exact reads_two t _
  rw [if_neg h4, if_neg h4]
  by_cases h1 : t.type = 0x0001
  · -- of the flags only the second byte is read
    rw [if_pos h1, if_pos h1, peek_eq]
    refine ⟨fun h => ?_, fun h => ?_⟩
    · rw [if_pos (by omega), ok_bind]
      split <;> exact ⟨_, rfl⟩
    · rw [if_neg (by omega)]
      rfl
  rw [if_neg h1, if_neg h1]
  by_cases h3 : t.type = 0x0003
  · rw [if_pos h3, if_pos h3]
    exact reads_four t _
  rw [if_neg h3, if_neg h3]
  exact reads_none t s

theorem readsNeed_incomingTlv (sn : Str) : ReadsNeed (incomingTlv cbs sn) incomingNeed := by
  intro s t
  unfold incomingTlv incomingNeed
  by_cases h3 : t.type = 0x0003
  · rw [if_pos h3, if_pos h3]
    exact reads_four t _
  rw [if_neg h3, if_neg h3]
  exact reads_none t _

end

theorem readsNeed_privacyRightsTlv : ReadsNeed privacyRightsTlv privacyNeed := by
  intro s t
  unfold privacyRightsTlv privacyNeed
  by_cases h1 : t.type = 0x0001
  · rw [if_pos h1, if_pos h1]
    exact reads_two t _
  rw [if_neg h1, if_neg h1]
  by_cases h2 : t.type = 0x0002
  · rw [if_pos h2, if_pos h2]
    exact reads_two t _
  rw [if_neg h2, if_neg h2]
  exact reads_none t s

theorem readsNeed_subconnectionTlv : ReadsNeed subconnectionTlv subconnectionNeed := by
  intro s t
  unfold subconnectionTlv subconnectionNeed
  by_cases hd : t.type = 0x000D
  · rw [if_pos hd, if_pos hd]
    exact reads_two t _
  rw [if_neg hd, if_neg hd]
  by_cases h5 : t.type = 0x0005
  · rw [if_pos h5]
    exact reads_none t _
  rw [if_neg h5]
  by_cases h6 : t.type = 0x0006
  · rw [if_pos h6]
    exact reads_none t _
  rw [if_neg h6]
  exact reads_none t s

/-- SNAC (03,03) looks at the lengths of its values. -/
theorem readsNeed_buddyRightsTlv : ReadsNeed buddyRightsTlv noNeed := by
  intro s t
  refine ⟨fun _ => ?_, fun h => absurd (Nat.zero_le _) h⟩
  unfold buddyRightsTlv
  by_cases hlen : 2 ≤ t.len
  · have hvalue : 2 ≤ t.value.val.length := by
      have hle := UInt16.le_iff_toNat_le.mp hlen
      rwa [Tlv.toNat_len] at hle
    simp only [if_pos hlen]
    split
    · exact (reads_two t _).1 hvalue
    · split
      · exact (reads_two t _).1 hvalue
      · split
        · exact (reads_two t _).1 hvalue
        · exact ⟨s, rfl⟩
  · simp only [if_neg hlen, ite_self]
    exact ⟨s, rfl⟩

/-! ## parsers with fixed offsets -/

section
variable {σ : Type} (cbs : Callbacks σ)

omit [Host] in
/-- A name behind its length, as in SNACs (03,0C) and (01,0F). -/
theorem inside_name {β : Type} (d : List UInt8) {f : UInt8 → List UInt8 → Except Fault β}
    (hf : ∀ n sn, Inside (f n sn)) :
    Inside (peek d 10 >>= fun snLen => peekN d 11 snLen.toNat >>= f snLen) ↔ SignoffShape d := by
  rw [inside_peek_bind, inside_peekN_bind, and_iff_left (hf _ _), SignoffShape]
  omega

omit [Host] in
theorem inside_snacGetSignoff (w : World σ) (d : List UInt8) (len : Nat) :
    Inside (snacGetSignoff cbs w d len) ↔ SignoffShape d :=
  inside_name d fun _ _ => inside_pure _

theorem inside_snacDecodeChild (w : World σ) (d : List UInt8) (family subfamily : UInt16) :
    Inside (snacDecodeChild w d family subfamily) ↔ ChildShape d family subfamily := by
  unfold snacDecodeChild ChildShape
  by_cases h1 : family = 0x0001 ∧ subfamily = 0x0003
  · rw [if_pos h1, inside_peek_bind, inside_ite, inside_peek_bind, inside_ite]
    simp only [inside_pure, ite_self, and_true, h1, true_imp_iff, and_self]
    by_cases h12 : byteAt d 12 = 0x00
    · rw [if_pos h12]
      simp only [h12, true_imp_iff]
      omega
    · rw [if_neg h12]
      simp only [h12, false_imp_iff, and_true]
      omega
  · rw [if_neg h1]
    refine iff_of_true ?_ fun h => absurd h h1
    split <;> exact inside_pure _

/-! ## presence and messages -/

theorem inside_snacGetSignon (w : World σ) {d : List UInt8} (hd : d.length ≤ 65535) :
    Inside (snacGetSignon cbs w d d.length) ↔ SignonShape d := by
  have hn := (byteAt d 10).toNat_lt
  have hsize : (d.length : Int) - 11 - ((byteAt d 10).toNat : Int) - 4 =
      (d.length : Int) - ((11 + (byteAt d 10).toNat + 4 : Nat) : Int) := by omega
  have hoff : 11 + (byteAt d 10).toNat + 4 = 15 + (byteAt d 10).toNat := by omega
  rw [snacGetSignon, inside_peek_bind, inside_twoTo16_drop_bind, inside_peekN_bind, hsize,
    inside_tlvs_return (readsNeed_signonTlv cbs _) hd (by omega) _ (fun _ => (w, ⟨0, 0, false⟩))
      (fun _ _ => inside_pure _), hoff, SignonShape]
  refine ⟨fun h => h.2.2.2, fun h => ?_⟩
  have hlen := h.1
  exact ⟨by omega, by omega, by omega, h⟩

/-- The message block is read as far as `MessageShape` says. -/
theorem inside_incomingDeliver (w : World σ) (sn : Str) (autoResp : Bool) (ts : List Tlv) :
    Inside (incomingDeliver cbs w sn autoResp ts) ↔ MessageShape ts := by
  unfold incomingDeliver MessageShape
  cases hf : ts.find? (fun trav => trav.type = 0x0002) with
  | none => simp
  | some t =>
      have ht := t.value.property
      simp only [Tlv.toNat_len, Option.some.injEq, forall_eq']
      rw [inside_tlvSplit_bind (by omega)]
      refine exists_congr fun us => and_congr_right fun _ => ?_
      cases hg : us.find? (fun trav2 => trav2.type = 0x0101) with
      | none => simp
      | some u =>
          have hu := u.value.property
          simp only [Option.some.injEq, forall_eq']
          rw [inside_bind_of_forall _ fun _ => inside_pure _, messageText, Tlv.toNat_len]
          by_cases h4 : 4 ≤ u.value.val.length
          · rw [inside_peekN, sizeT_of_nonneg (by omega)]
            omega
          · have hneg := sizeT_of_neg (i := (u.value.val.length : Int) - 4) (by omega) (by omega)
            exact iff_of_false (not_inside_peekN _ _ (by omega)) h4

theorem inside_snacGetIncomingIm (w : World σ) {d : List UInt8} (hd : d.length ≤ 65535) :
    Inside (snacGetIncomingIm cbs w d d.length) ↔ IncomingShape d := by
  have hn := (byteAt d 20).toNat_lt
  have hsize : (d.length : Int) - 25 - ((byteAt d 20).toNat : Int) =
      (d.length : Int) - ((25 + (byteAt d 20).toNat : Nat) : Int) := by omega
  rw [snacGetIncomingIm, inside_peek_bind, inside_twoTo16_drop_bind, inside_peekN_bind, hsize,
    inside_tlvs (readsNeed_incomingTlv cbs _) hd (by omega) _ (fun _ => (w, false))
      (fun ts s => inside_incomingDeliver cbs _ _ s.2 ts), IncomingShape]
  refine ⟨fun h => h.2.2.2, fun h => ?_⟩
  have hlen := h.1
  exact ⟨by omega, by omega, by omega, h⟩

/-- A loop body that reads nothing. -/
theorem inside_snacGetUserInfo (w : World σ) {d : List UInt8} (hd : d.length ≤ 65535) :
    Inside (snacGetUserInfo cbs w (d.drop 10) (uint16 (d.length - 10))) ↔
      TlvsFrom d (15 + (byteAt d 10).toNat) noNeed := by
  have hn := (byteAt d 10).toNat_lt
  rw [snacGetUserInfo, inside_peek_bind, inside_peekN_bind, inside_peek_bind, byteAt_drop,
    Nat.add_zero, List.length_drop]
  by_cases h10 : 10 ≤ d.length
  · have hlen : (uint16 ((d.length : Int) - 10)).toNat = d.length - 10 := by
      rw [toNat_uint16]
      omega
    have hsize : ((uint16 ((d.length : Int) - 10)).toNat : Int) - 5 - ((byteAt d 10).toNat : Int) =
        (d.length : Int) - ((15 + (byteAt d 10).toNat : Nat) : Int) := by omega
    have hoff : 10 + (5 + (byteAt d 10).toNat) = 15 + (byteAt d 10).toNat := by omega
    rw [hsize, List.drop_drop, hoff, inside_tlvSplit_drop_bind hd _ _ (by omega)]
    simp only [inside_pure, and_true, TlvsFrom, noNeed, Nat.zero_le, implies_true]
    refine ⟨fun h => h.2.2.2, fun h => ?_⟩
    have hle := h.1
    exact ⟨by omega, by omega, by omega, h⟩
  · refine iff_of_false (fun h => ?_) (fun h => ?_)
    · omega
    · have := h.1
      omega

end

/-! ## lists of words and items -/

/-- The loop over the families reads words up to the end of the packet. -/
theorem inside_srvFamiliesLoop (d : List UInt8) (fuel i : Nat) (hi : i ≤ d.length)
    (hfuel : d.length < fuel + i) :
    Inside (srvFamiliesLoop fuel ⟨d, d.length, i⟩) ↔ (d.length - i) % 2 = 0 := by
  induction fuel generalizing i with
  | zero => omega
  | succ fuel ih =>
      rw [srvFamiliesLoop]
      by_cases hend : d.length ≤ i
      · rw [if_pos (by simpa [pktEnd] using hend)]
        refine iff_of_true (inside_pure _) ?_
        omega
      · rw [if_neg (by simpa [pktEnd] using hend), inside_pktGet16_bind,
          inside_bind_of_forall _ fun _ => inside_pure _]
        by_cases hroom : i + 2 ≤ d.length
        · rw [ih (i + 2) hroom (by omega)]
          omega
        · refine iff_of_false (fun h => hroom h.1) ?_
          omega

theorem inside_snacGetSrvFamilies (h : Imcomm) {d : List UInt8} (hd : d.length ≤ 65535) :
    Inside (snacGetSrvFamilies h (d.drop 10) (sizeT (d.length - 10))) ↔
      10 ≤ d.length ∧ (d.length - 10) % 2 = 0 := by
  by_cases h10 : 10 ≤ d.length
  · have hlen : (uint16 (sizeT ((d.length : Int) - 10))).toNat = (d.drop 10).length := by
      rw [sizeT_of_nonneg (by omega), List.length_drop, toNat_uint16]
      omega
    rw [snacGetSrvFamilies, pktInitP, hlen]
    by_cases hend : (d.drop 10).length ≤ 0
    · rw [if_pos (by simpa [pktEnd] using hend)]
      rw [List.length_drop] at hend
      refine iff_of_true (inside_pure _) ?_
      omega
    · rw [if_neg (by simpa [pktEnd] using hend), inside_pktGet16_bind,
        inside_bind_of_forall _ fun _ => inside_pure _]
      by_cases hroom : 0 + 2 ≤ (d.drop 10).length
      · rw [inside_srvFamiliesLoop _ _ _ hroom (by simp only; omega)]
        rw [List.length_drop] at hroom ⊢
        omega
      · rw [List.length_drop] at hroom hend ⊢
        omega
  · have hlen : 0 < (uint16 (sizeT ((d.length : Int) - 10))).toNat := by
      rw [sizeT, if_neg (by omega), toNat_uint16]
      omega
    rw [snacGetSrvFamilies, pktInitP, if_neg (by simpa [pktEnd] using hlen), inside_pktGet16_bind,
      List.length_drop]
    omega

/-- The ids of the rate classes stand at cursors of 16 bits. -/
theorem inside_ackLimitsLoop (d : List UInt8) (n : Nat) (x : UInt16) :
    Inside (ackLimitsLoop d n x) ↔ ∀ k < n, (x.toNat + 35 * k) % 65536 + 2 ≤ d.length := by
  induction n generalizing x with
  | zero => simp [ackLimitsLoop]
  | succ n ih =>
      have hx := x.toNat_lt
      have hnext : (x + 35).toNat = (x.toNat + 35) % 65536 := UInt16.toNat_add x 35
      rw [ackLimitsLoop, inside_twoTo16_drop_bind, inside_bind_of_forall _ fun _ => inside_pure _,
        ih, hnext]
      refine ⟨fun ⟨hhead, htail⟩ k hk => ?_, fun h => ⟨?_, fun k hk => ?_⟩⟩
      · cases k with
        | zero => omega
        | succ k =>
            have := htail k (by omega)
            omega
      · have := h 0 (by omega)
        omega
      · have := h (k + 1) (by omega)
        omega

theorem inside_snacAckLimits (h : Imcomm) (d : List UInt8) (len : Nat) :
    Inside (snacAckLimits h (d.drop 10) len) ↔
      12 ≤ d.length ∧ ∀ k < (wordAt d 10).toNat, 10 + (2 + 35 * k) % 65536 + 2 ≤ d.length := by
  rw [snacAckLimits, inside_twoTo16_bind, wordAt_drop, inside_bind_of_forall, inside_ackLimitsLoop,
    List.length_drop]
  · refine and_congr (by omega) (forall_congr' fun k => imp_congr_right fun _ => ?_)
    rw [show (2 : UInt16).toNat = 2 from rfl]
    omega
  · -- nothing is read behind the loop
    intro ids
    rw [inside_ite]
    split <;> exact inside_pure _

omit [Host] in
/-- The name of an item. -/
theorem inside_ssiName_bind {β : Type} (d : List UInt8) (len i : Nat) (length : UInt16)
    {f : Option Str × Pkt → Except Fault β} {Q : Nat → Prop}
    (hf : ∀ name j, Inside (f (name, ⟨d, len, j⟩)) ↔ Q j) :
    Inside (ssiName ⟨d, len, i⟩ length >>= f) ↔
      (length.toNat = 0 ∨ i + length.toNat ≤ d.length) ∧ Q (i + length.toNat) := by
  unfold ssiName
  by_cases h0 : 0 < length
  · rw [if_pos h0, bind_assoc, inside_pktGetstr_bind]
    simp only [pure_bind]
    rw [hf]
  · have hz : length.toNat = 0 := by
      have := mt UInt16.lt_iff_toNat_lt.mpr h0
      simpa using this
    rw [if_neg h0, pure_bind, hf, hz]
    simp

/-- The items of the server-side list. -/
theorem inside_ssiListLoop (d : List UInt8) (len n i : Nat) (h : Imcomm) (k : Nat)
    (hk : k ≤ d.length) :
    Inside (ssiListLoop n ⟨d.drop k, len, i⟩ h) ↔ SsiItemsFit d n (k + i) := by
  induction n generalizing i h with
  | zero => simp [ssiListLoop, SsiItemsFit]
  | succ n ih =>
      rw [ssiListLoop, inside_pktGet16_bind, SsiItemsFit]
      rw [inside_ssiName_bind (Q := fun j => j + 8 ≤ d.length - k ∧
        SsiItemsFit d n (k + (j + 8 + (wordAt d (k + (j + 6))).toNat)))]
      · rw [List.length_drop, wordAt_drop]
        have hitem : k + i + 8 + (wordAt d (k + i)).toNat =
            k + (i + 2 + (wordAt d (k + i)).toNat + 6) := by omega
        have hnext : k + i + 10 + (wordAt d (k + i)).toNat +
            (wordAt d (k + i + 8 + (wordAt d (k + i)).toNat)).toNat =
            k + (i + 2 + (wordAt d (k + i)).toNat + 8 +
              (wordAt d (k + (i + 2 + (wordAt d (k + i)).toNat + 6))).toNat) := by
          rw [hitem]
          omega
        simp only [hnext]
        refine ⟨fun h => ⟨by omega, h.2.2.2⟩, fun h => ⟨by omega, by omega, by omega, h.2⟩⟩
      · intro name j
        simp only [inside_pktGet16_bind, List.length_drop, pktSkip, ih, wordAt_drop, Nat.add_assoc,
          Nat.reduceAdd]
        refine ⟨fun h => ⟨by omega, h.2.2.2.2⟩,
          fun h => ⟨by omega, by omega, by omega, by omega, h.2⟩⟩

theorem inside_snacSsiGetList (h : Imcomm) (d : List UInt8) (len : Nat) :
    Inside (snacSsiGetList h d len) ↔ SsiShape d := by
  rw [snacSsiGetList, pktInitP, inside_pktGet8_bind, inside_pktGet16_bind, List.length_drop,
    SsiShape]
  simp only [wordAt_drop, Nat.zero_add, Nat.reduceAdd]
  by_cases h13 : 13 ≤ d.length
  · rw [inside_ssiListLoop d _ _ _ _ 10 (by omega)]
    refine ⟨fun h => ⟨h13, h.2.2⟩, fun h => ⟨by omega, by omega, h.2⟩⟩
  · refine iff_of_false (fun h => ?_) fun h => h13 h.1
    omega

/-! ## logging in -/

/-- Counting ends: every TLV moves the cursor on. -/
theorem countTlvPktLoop_ne_hang (d : List UInt8) (len fuel i : Nat) (hpos : 0 < fuel)
    (h : len < fuel + i) :
    countTlvPktLoop fuel ⟨d, len, i⟩ = .error .oob ∨
      ∃ n, countTlvPktLoop fuel ⟨d, len, i⟩ = .ok n := by
  induction fuel generalizing i with
  | zero => omega
  | succ fuel ih =>
      rw [countTlvPktLoop]
      by_cases hlt : i < len
      · rw [if_pos hlt, pktGet16]
        simp only [twoTo16_drop_eq]
        by_cases h2 : i + 2 ≤ d.length
        · rw [if_pos h2]
          simp only [ok_bind, pure_bind, pktGet16, twoTo16_drop_eq]
          by_cases h4 : i + 2 + 2 ≤ d.length
          · rw [if_pos h4]
            simp only [ok_bind, pure_bind, pktSkip]
            rcases ih (i + 2 + 2 + (wordAt d (i + 2)).toNat) (by omega) (by omega) with
              hout | ⟨n, hn⟩
            · exact Or.inl (by rw [hout]; rfl)
            · exact Or.inr ⟨n + 1, by rw [hn]; rfl⟩
          · rw [if_neg h4]
            exact Or.inl rfl
        · rw [if_neg h2]
          exact Or.inl rfl
      · rw [if_neg hlt]
        exact Or.inr ⟨0, rfl⟩

section
variable [Network]

/-- Connecting reads nothing of the packet. -/
theorem inside_bosSignonPhase2 (h : Imcomm) (server : Str) (cookie : List UInt8)
    (cookieLen : UInt16) : Inside (bosSignonPhase2 h server cookie cookieLen) := by
  unfold bosSignonPhase2
  split
  · exact inside_null
  · split <;> exact inside_ok _

variable {σ : Type} (cbs : Callbacks σ)

omit [Network] in
/-- A login reply: `count_tlv` and `tlv_split` over the same list. -/
theorem inside_loginReply {β : Type} {d : List UInt8} (hd : d.length ≤ 65535)
    {f : List Tlv → Except Fault β} (hf : ∀ ts, Inside (f ts)) :
    Inside (countTlv (d.drop 10) (sizeT (d.length - 10)) >>= fun numtlv =>
        tlvSplit (d.drop 10) (sizeT (d.length - 10)) numtlv >>= f) ↔ TlvsFrom d 10 noNeed := by
  have hsplit : ∀ numtlv, Inside (tlvSplit (d.drop 10) (sizeT (d.length - 10)) numtlv >>= f) ↔
      TlvsFrom d 10 noNeed := by
    intro numtlv
    have h := inside_tlvSplit_drop_bind hd 10 numtlv (by omega) f
    simp only [hf, and_true, Nat.cast_ofNat] at h
    simp only [h, TlvsFrom, noNeed, Nat.zero_le, implies_true, and_true]
  have hcount : countTlv (d.drop 10) (sizeT (d.length - 10)) = .error .oob ∨
      ∃ n, countTlv (d.drop 10) (sizeT (d.length - 10)) = .ok n :=
    countTlvPktLoop_ne_hang _ _ _ _ (Nat.succ_pos _) (by simp [pktInitP])
  rcases hcount with hout | ⟨n, hn⟩
  · -- the count does not leave a complete list
    rw [hout, error_bind]
    refine iff_of_false not_inside_oob ?_
    rintro ⟨hle, ts, hts, -⟩
    have hlen : (tlvBytes ts).length = d.length - 10 := by rw [hts, List.length_drop]
    have hok := countTlv_tlvBytes ts (by omega)
    rw [sizeT_of_nonneg (by omega), ← hts, show ((d.length : Int) - 10).toNat =
      (tlvBytes ts).length by omega, hok] at hout
    contradiction
  · rw [hn, ok_bind, hsplit]

theorem inside_bosMd5snac (w : World σ) {d : List UInt8} (hd : d.length ≤ 65535)
    (h6 : 6 ≤ d.length) : Inside (bosMd5snac cbs w d d.length) ↔ Md5Shape d := by
  rw [bosMd5snac, inside_peek_bind, inside_ite, inside_ite, Md5Shape, and_iff_right (by omega)]
  by_cases h7 : byteAt d 3 = 0x07
  · rw [if_pos h7, if_pos h7, inside_twoTo16_drop_bind, inside_peekN_bind]
    refine ⟨fun h => by omega, fun h => ⟨by omega, by omega, ?_⟩⟩
    split
    · exact inside_pure _
    · exact inside_null
  · rw [if_neg h7, if_neg h7]
    by_cases h3 : byteAt d 3 = 0x03
    · rw [if_pos h3, if_pos h3]
      refine inside_loginReply hd fun ts => ?_
      rw [inside_ite]
      split
      · rw [inside_bind_of_forall _ fun _ => inside_pure _]
        exact inside_bosSignonPhase2 _ _ _ _
      · exact inside_pure _
    · rw [if_neg h3, if_neg h3]
      exact iff_of_true (inside_pure _) trivial

theorem inside_snacNewSubconnection (w : World σ) {d : List UInt8} (hd : d.length ≤ 65535)
    (h4 : 4 < d.length) :
    Inside (snacNewSubconnection w (d.drop 18) (uint16 (d.length - 18))) ↔
      TlvsFrom d 18 subconnectionNeed := by
  by_cases h18 : 18 ≤ d.length
  · have hlen : (uint16 ((d.length : Int) - 18)).toNat = sizeT ((d.length : Int) - (18 : Nat)) := by
      rw [toNat_uint16, sizeT_of_nonneg (by omega)]
      omega
    rw [snacNewSubconnection, hlen]
    refine inside_tlvs_return readsNeed_subconnectionTlv hd (by omega) _
      (fun _ => ⟨0, none, [], 0⟩) fun _ s => ?_
    split
    · exact inside_null
    · rw [inside_bind_of_forall _ fun _ => inside_pure _]
      exact inside_bosSignonPhase2 _ _ _ _
  · -- the length wraps to a number near 2^16
    have hdrop : (d.drop 18).length = 0 := by
      rw [List.length_drop]
      omega
    have hlong : (d.drop 18).length < (uint16 ((d.length : Int) - 18)).toNat := by
      rw [toNat_uint16, hdrop]
      omega
    rw [snacNewSubconnection]
    refine iff_of_false (not_inside_tlvSplit_bind (by omega) hlong _ _) fun h => h18 h.1

/-! ## dispatch -/

theorem inside_snacDecodeGeneric (w : World σ) {d : List UInt8} (hd : d.length ≤ 65535)
    (h6 : 6 ≤ d.length) (subfamily flags : UInt16) :
    Inside (snacDecodeGeneric cbs w d d.length subfamily flags) ↔
      GenericShape (cbs.registered .error) d subfamily flags := by
  unfold snacDecodeGeneric GenericShape
  by_cases h3 : subfamily = 0x0003
  · rw [if_pos h3, if_pos h3, inside_bind_of_forall _ fun _ => inside_pure _]
    exact inside_snacGetSrvFamilies w.handle hd
  rw [if_neg h3, if_neg h3]
  by_cases h5 : subfamily = 0x0005
  · rw [if_pos h5, if_pos h5, inside_bind_of_forall _ fun _ => inside_pure _]
    exact inside_snacNewSubconnection w hd (by omega)
  rw [if_neg h5, if_neg h5]
  by_cases h18 : subfamily = 0x0018
  · rw [if_pos h18, if_pos h18]
    exact iff_of_true (inside_pure _) trivial
  rw [if_neg h18, if_neg h18]
  by_cases h7 : subfamily = 0x0007
  · rw [if_pos h7, if_pos h7, inside_bind_of_forall _ fun _ => inside_pure _]
    exact inside_snacAckLimits w.handle d _
  rw [if_neg h7, if_neg h7]
  by_cases ha : subfamily = 0x000a
  · rw [if_pos ha, if_pos ha]
    by_cases hcb : cbs.registered .error = true
    · rw [if_pos hcb, inside_peek_bind, and_iff_left (inside_pure _)]
      simp only [hcb, true_imp_iff]
      omega
    · rw [if_neg hcb]
      exact iff_of_true (inside_pure _) fun h => absurd h hcb
  rw [if_neg ha, if_neg ha]
  by_cases hf : subfamily = 0x000f
  · rw [if_pos hf, if_pos hf]
    by_cases hflags : flags = 0x8000
    · rw [if_pos hflags]
      exact iff_of_true (inside_pure _) (Or.inl hflags)
    · rw [if_neg hflags, inside_name d fun _ _ => inside_pure _]
      simp only [hflags, false_or]
  rw [if_neg hf, if_neg hf]
  exact iff_of_true (inside_pure _) trivial

omit [Network] in
theorem inside_snacDecodeLocation (w : World σ) {d : List UInt8} (hd : d.length ≤ 65535)
    (subfamily : UInt16) :
    Inside (snacDecodeLocation cbs w d d.length subfamily) ↔ LocationShape d subfamily := by
  unfold snacDecodeLocation LocationShape
  by_cases h3 : subfamily = 0x0003
  · rw [if_pos h3, if_pos h3, inside_twoTo16_drop_bind, inside_twoTo16_drop_bind,
      and_iff_left (inside_pure _)]
    omega
  rw [if_neg h3, if_neg h3]
  by_cases h6 : subfamily = 0x0006
  · rw [if_pos h6, if_pos h6, inside_bind_of_forall _ fun _ => inside_pure _]
    exact inside_snacGetUserInfo cbs w hd
  rw [if_neg h6, if_neg h6]
  exact iff_of_true (inside_pure _) trivial

omit [Network] in
theorem inside_snacDecodeBuddy (w : World σ) {d : List UInt8} (hd : d.length ≤ 65535)
    (subfamily : UInt16) :
    Inside (snacDecodeBuddy cbs w d d.length subfamily) ↔ BuddyShape d subfamily := by
  unfold snacDecodeBuddy BuddyShape
  by_cases h3 : subfamily = 0x0003
  · rw [if_pos h3, if_pos h3]
    exact inside_tlvs_return readsNeed_buddyRightsTlv hd (by omega) 3 (fun _ => w.handle)
      fun _ _ => inside_pure _
  rw [if_neg h3, if_neg h3]
  by_cases hc : subfamily = 0x0C
  · rw [if_pos hc, if_pos hc]
    exact inside_snacGetSignoff cbs w d _
  rw [if_neg hc, if_neg hc]
  by_cases hb : subfamily = 0x0B
  · rw [if_pos hb, if_pos hb]
    exact inside_snacGetSignon cbs w hd
  rw [if_neg hb, if_neg hb]
  exact iff_of_true (inside_pure _) trivial

omit [Network] in
theorem inside_snacDecodeIcbm (w : World σ) {d : List UInt8} (hd : d.length ≤ 65535)
    (subfamily : UInt16) :
    Inside (snacDecodeIcbm cbs w d d.length subfamily) ↔ IcbmShape d subfamily := by
  unfold snacDecodeIcbm IcbmShape
  by_cases h1 : subfamily = 0x0001
  · rw [if_pos h1, if_pos h1, inside_peek_bind, inside_ite]
    simp only [inside_pure, ite_self, and_true]
    omega
  rw [if_neg h1, if_neg h1]
  by_cases h5 : subfamily = 0x0005
  · rw [if_pos h5, if_pos h5]
    simp only [inside_twoTo16_drop_bind, inside_pure, and_true]
    omega
  rw [if_neg h5, if_neg h5]
  by_cases h7 : subfamily = 0x0007
  · rw [if_pos h7, if_pos h7]
    exact inside_snacGetIncomingIm cbs w hd
  rw [if_neg h7, if_neg h7]
  exact iff_of_true (inside_pure _) trivial

/-- `snac_decode` stays inside exactly the SNACs of the grammar. -/
theorem inside_snacDecode (w : World σ) {d : List UInt8} (len : UInt16)
    (hd : len.toNat = d.length) : Inside (snacDecode cbs w d len) ↔
      SnacShape w.handle.ischild (cbs.registered .error) d := by
  have hmax : d.length ≤ 65535 := by
    have := len.toNat_lt
    omega
  have hle : len ≤ 4 ↔ d.length ≤ 4 := by
    rw [UInt16.le_iff_toNat_le, hd]
    rfl
  rw [snacDecode, SnacShape, hd]
  by_cases h4 : d.length ≤ 4
  · rw [if_pos (hle.mpr h4)]
    exact iff_of_true (inside_pure _) (Or.inl h4)
  rw [if_neg (mt hle.mp h4), or_iff_right h4, inside_twoTo16_bind, inside_twoTo16_drop_bind,
    inside_twoTo16_drop_bind]
  by_cases h6 : 6 ≤ d.length
  · rw [and_iff_right (by omega), and_iff_right (by omega), and_iff_right (by omega),
      and_iff_right h6]
    by_cases hchild : w.handle.ischild = true
    · rw [if_pos hchild, if_pos hchild]
      exact inside_snacDecodeChild w d _ _
    rw [if_neg hchild, if_neg hchild]
    by_cases h17 : wordAt d 0 = 0x0017
    · rw [if_pos h17, if_pos h17, inside_bind_of_forall _ fun _ => inside_pure _]
      exact inside_bosMd5snac cbs w hmax h6
    rw [if_neg h17, if_neg h17]
    by_cases h1 : wordAt d 0 = 0x0001
    · rw [if_pos h1, if_pos h1]
      exact inside_snacDecodeGeneric cbs w hmax h6 _ _
    rw [if_neg h1, if_neg h1]
    by_cases h2 : wordAt d 0 = 0x0002
    · rw [if_pos h2, if_pos h2]
      exact inside_snacDecodeLocation cbs w hmax _
    rw [if_neg h2, if_neg h2]
    by_cases h3 : wordAt d 0 = 0x0003
    · rw [if_pos h3, if_pos h3]
      exact inside_snacDecodeBuddy cbs w hmax _
    rw [if_neg h3, if_neg h3]
    by_cases hicbm : wordAt d 0 = 0x0004
    · rw [if_pos hicbm, if_pos hicbm]
      exact inside_snacDecodeIcbm cbs w hmax _
    rw [if_neg hicbm, if_neg hicbm]
    by_cases h9 : wordAt d 0 = 0x0009
    · rw [if_pos h9, if_pos h9]
      by_cases hsub : wordAt d 2 = 0x0003
      · rw [if_pos hsub, inside_bind_of_forall _ fun _ => inside_pure _]
        simp only [hsub, true_imp_iff]
        exact inside_tlvs_return readsNeed_privacyRightsTlv hmax (by omega) 2 (fun _ => w.handle)
          fun _ _ => inside_pure _
      · rw [if_neg hsub]
        exact iff_of_true (inside_pure _) fun h => absurd h hsub
    rw [if_neg h9, if_neg h9]
    by_cases h13 : wordAt d 0 = 0x0013
    · rw [if_pos h13, if_pos h13]
      by_cases hsub : wordAt d 2 = 0x0006
      · rw [if_pos hsub, inside_bind_of_forall _ fun _ => inside_pure _]
        simp only [hsub, true_imp_iff]
        exact inside_snacSsiGetList w.handle d _
      · rw [if_neg hsub]
        exact iff_of_true (inside_pure _) fun h => absurd h hsub
    rw [if_neg h13, if_neg h13]
    exact iff_of_true (inside_pure _) trivial
  · refine iff_of_false (fun h => h6 ?_) fun h => h6 h.1
    have := h.2.2.1
    omega

theorem inside_srvCookie (w : World σ) (d : List UInt8) (len i : Nat) :
    Inside (srvCookie cbs w ⟨d, len, i⟩) ↔ CookieShape d i := by
  rw [srvCookie, inside_pktGet16_bind, inside_pktGetstr_bind, inside_pktGet16_bind,
    inside_pktGet16_bind, inside_pktGetstr_bind, inside_bind_of_forall _ fun _ => inside_pure _,
    and_iff_left (inside_bosSignonPhase2 _ _ _ _), CookieShape]
  have hoff : i + 2 + (wordAt d i).toNat + 2 = i + 4 + (wordAt d i).toNat := by omega
  rw [hoff]
  omega

/-- Channel 4 has no length check at all. -/
theorem inside_flapDecodeSignoff (w : World σ) (d : List UInt8) (len : Nat) :
    Inside (flapDecodeSignoff cbs w ⟨d, len, 0⟩) ↔ SignoffFrameShape d := by
  rw [flapDecodeSignoff, inside_pktGet16_bind, SignoffFrameShape]
  refine and_congr (by omega) ?_
  dsimp only
  by_cases h9 : wordAt d 0 = 0x0009
  · rw [if_pos h9, if_pos h9, inside_pktGet16_bind, inside_ite]
    simp only [inside_pure, ite_self, and_true, Nat.zero_add, Nat.reduceAdd]
  rw [if_neg h9, if_neg h9]
  by_cases h1 : wordAt d 0 = 0x0001
  · rw [if_pos h1, if_pos h1, inside_pktGet16_bind, inside_pktGetstr_bind, inside_pktGet16_bind]
    have hsub : 0 + 2 + 2 + (wordAt d 2).toNat = 4 + (wordAt d 2).toNat := by omega
    have hnext : 4 + (wordAt d 2).toNat + 2 = 6 + (wordAt d 2).toNat := by omega
    simp only [Nat.zero_add, Nat.reduceAdd, hnext]
    by_cases h5 : wordAt d (4 + (wordAt d 2).toNat) = 0x0005
    · simp only [h5, if_true, true_imp_iff, inside_srvCookie]
      refine ⟨fun h => ⟨by omega, h.2.2.2⟩, fun h => ⟨by omega, by omega, by omega, h.2⟩⟩
    · simp only [h5, if_false, false_imp_iff, inside_ite, inside_pure, ite_self, and_true]
      omega
  rw [if_neg h1, if_neg h1]
  exact iff_of_true (inside_pure _) trivial

/-- **Inbound decoding stays inside the packet exactly for the payloads of
the grammar**: whatever the handle, the client and its callbacks, every read
of `flap_decode` lies inside the payload and inside the TLV values if and
only if the payload has the shape that its channel, family and subtype ask
for. -/
theorem inbound_inside (w : World σ) (f : Flap) :
    flapDecode cbs w f.header f.payload.val ≠ .error .oob ↔
      PayloadShape w.handle.ischild (cbs.registered .error) f.channel f.payload.val := by
  have hlen : twoTo16 (f.header.drop 4) = .ok (uint16 f.payload.val.length) := by
    rw [Flap.drop_header]
    simpa using twoTo16_be16_append (uint16 f.payload.val.length) []
  have hchannel : peek f.header 1 = .ok f.channel := rfl
  have hn : (uint16 f.payload.val.length).toNat = f.payload.val.length :=
    toNat_uint16_of_lt f.payload.property
  change Inside _ ↔ _
  rw [flapDecode, hlen, hchannel, ok_bind, ok_bind, PayloadShape]
  by_cases h2 : f.channel = 0x02
  · rw [if_pos h2, if_pos h2]
    exact inside_snacDecode cbs w _ hn
  rw [if_neg h2, if_neg h2]
  by_cases h4 : f.channel = 0x04
  · rw [if_pos h4, if_pos h4]
    exact inside_flapDecodeSignoff cbs w _ _
  rw [if_neg h4, if_neg h4]
  exact iff_of_true (inside_pure _) trivial

end

end

/-- A payload of five bytes passes the length test, and the flags are read
behind its end. -/
theorem inbound_outside_five_bytes :
    @flapDecode littleEndianHost refusingNetwork _ recorder
      ⟨imcommCreateHandle zeroBlock, [], []⟩ [0x2A, 2, 0, 0, 0, 5] [0, 3, 0, 0x0C, 0] =
        .error .oob := by
  rfl

end Bsflite
