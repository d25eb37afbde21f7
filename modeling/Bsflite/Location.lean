import Bsflite.Body
import Bsflite.Requests

/-!
# Bsflite.Location

The location packet, as the fields that `snac_set_location_info` writes and
the size that it counts for them.

The encoding string is written twice, in front of the profile and in front of
the away message, whether there is a profile or not; the size counts the
second one only together with the profile.
-/

namespace Bsflite

/-- The size that `snac_set_location_info` counts. -/
def locationInfoSize (h : Imcomm) : Nat :=
  (match h.profileStr with
    | some profile => 8 + idstr.length + profile.length
    | none => 0) +
  (match h.awayMsg with
    | some away => away.length
    | none => 0) + 10 + 8 + 4 + idstr.length + capabilities.length

/-- The fields that it writes, in order. -/
def locationInfoFields (h : Imcomm) : List PktAdd :=
  let profileFields : List PktAdd :=
    match h.profileStr with
    | some profile => [.add16 0x0002, .add16 (uint16 profile.length), .addraw profile]
    | none => []
  let awayFields : List PktAdd :=
    match h.awayMsg with
    | some away => [.add16 (uint16 away.length), .addraw (away.take (uint16 away.length).toNat)]
    | none => [.add16 0x0000]
  [[.add16 0x0001, .add16 (uint16 idstr.length), .addraw idstr], profileFields,
    [.add16 0x0003, .add16 (uint16 idstr.length), .addraw idstr, .add16 0x0004], awayFields,
    [.add16 0x0005, .add16 (uint16 capabilities.length), .addraw capabilities,
      .add16 0x0006, .add16 0x0006, .add16 0x0004, .add32 0x00020002]].flatten

/-- The list that the packet is meant to be. -/
def locationEntries (h : Imcomm) : List Entry :=
  (0x0001, idstr) :: (h.profileStr.map fun profile => (0x0002, profile)).toList ++
    [(0x0003, idstr), (0x0004, h.awayMsg.getD []), (0x0005, capabilities),
      (0x0006, [0x00, 0x04, 0x00, 0x02, 0x00, 0x02])]

section
variable [Host]

/-- The packet is these fields in a block of that size. -/
theorem locationInfoPacket_eq (h : Imcomm) :
    locationInfoPacket h = pktAddAll (pktInit (locationInfoSize h)) (locationInfoFields h) := rfl

/-- The update that goes first leaves the profile and the away message. -/
theorem snacSetLocationInfo_eq (h : Imcomm) :
    snacSetLocationInfo h =
      ((snacSendpkt (snacSendCliUpdate h).1 0x02 0x04 (locationInfoPacket h) 0).1, .ok) := by
  obtain ⟨link, seqnum, snacreq, isidle, hupdate⟩ := snacSendpkt_frame h 0x01 0x1e
    (pktAddAll (pktInit 8)
      [.add16 0x0006, .add16 0x0004, .add32 (if h.isinvisible then 0x00000100 else 0x00000000)]) 0
  have hsame : (snacSendCliUpdate h).1 =
      { h with link := link, seqnum := seqnum, snacreq := snacreq, isidle := isidle } := hupdate
  rw [snacSetLocationInfo, hsame]
  rfl

omit [Host] in
/-- The size is right when there is a profile; without one it is 37 bytes
short. -/
theorem length_locationEntries (h : Imcomm) :
    (entryBytes (locationEntries h)).length =
      locationInfoSize h + if h.profileStr.isSome then 0 else 37 := by
  have hid : idstr.length = 33 := by decide
  have hcap : capabilities.length = 48 := rfl
  have haway : (match h.awayMsg with
      | some away => away.length
      | none => 0) = (h.awayMsg.getD []).length := by
    cases h.awayMsg <;> rfl
  rw [locationEntries, locationInfoSize, haway]
  cases h.profileStr with
  | none =>
      simp only [Option.map_none, Option.toList_none, List.cons_append, List.nil_append,
        length_entryBytes_cons, entryBytes_nil, hid, hcap, List.length_cons, List.length_nil,
        Option.isSome_none, Bool.false_eq_true, if_false]
      omega
  | some profile =>
      simp only [Option.map_some, Option.toList_some, List.cons_append, List.nil_append,
        length_entryBytes_cons, entryBytes_nil, hid, hcap, List.length_cons, List.length_nil,
        Option.isSome_some, if_true]
      omega

omit [Host] in
/-- The fields are the bytes of the list, when its values fit. -/
theorem locationInfoFields_bytes {h : Imcomm}
    (hfit : (entryBytes (locationEntries h)).length ≤ 65535) :
    fieldBytes (locationInfoFields h) = entryBytes (locationEntries h) := by
  have haway : ∀ away, h.awayMsg = some away → (uint16 away.length).toNat = away.length := by
    intro away heq
    refine toNat_uint16_of_lt ?_
    rw [length_locationEntries, locationInfoSize, heq] at hfit
    simp only at hfit
    omega
  rw [locationInfoFields, locationEntries]
  cases h.profileStr <;> cases hmsg : h.awayMsg <;>
    (simp [PktAdd.bytes, entryBytes_cons, entryBytes_nil, haway, hmsg]; rfl)

/-- **The location packet** comes out as it is meant to exactly when there is
a profile. -/
theorem location_info_complete (h : Imcomm)
    (hfit : (entryBytes (locationEntries h)).length ≤ 65525) :
    snacSetLocationInfo h = ((snacSendpkt (snacSendCliUpdate h).1 0x02 0x04
        (pktAddAll (pktInit (locationInfoSize h)) (locationInfoFields h)) 0).1, .ok) ∧
      (Carries (locationInfoSize h) (locationInfoFields h) 0 (locationEntries h) ↔
        h.profileStr.isSome) := by
  have hbytes := locationInfoFields_bytes (h := h) (by omega)
  have hlen := length_locationEntries h
  refine ⟨locationInfoPacket_eq h ▸ snacSetLocationInfo_eq h, fun hcarries => ?_, fun hsome => ?_⟩
  · have hsize := (complete_iff _ _).mp hcarries.complete
    rw [hbytes, hlen] at hsize
    by_contra hnone
    rw [if_neg hnone] at hsize
    omega
  · rw [if_pos hsome] at hlen
    exact carries_of_bytes [] hbytes
      (by rw [List.length_nil, Nat.zero_add, hlen, Nat.add_zero]) (by omega)

end

/-- A handle with the profile "hi" and no away message. -/
theorem location_info_complete_profile :
    @Carries littleEndianHost
      (locationInfoSize { imcommCreateHandle zeroBlock with profileStr := some (ascii "hi") })
      (locationInfoFields { imcommCreateHandle zeroBlock with profileStr := some (ascii "hi") }) 0
      (locationEntries { imcommCreateHandle zeroBlock with profileStr := some (ascii "hi") }) :=
  (@location_info_complete littleEndianHost
    { imcommCreateHandle zeroBlock with profileStr := some (ascii "hi") }
    (by decide +kernel)).2.mpr rfl

/-- A fresh handle has no profile: the capabilities do not fit, and eleven
bytes of the block that were never written go out. -/
theorem location_info_truncated :
    ¬ ((entryBytes (locationEntries (imcommCreateHandle zeroBlock))).length ≤ 65525 →
      @Carries littleEndianHost (locationInfoSize (imcommCreateHandle zeroBlock))
        (locationInfoFields (imcommCreateHandle zeroBlock)) 0
        (locationEntries (imcommCreateHandle zeroBlock))) := by
  intro h
  have hfit : (entryBytes (locationEntries (imcommCreateHandle zeroBlock))).length ≤ 65525 := by
    decide +kernel
  obtain ⟨hcomplete, -⟩ := h hfit
  have hsize := (@complete_iff littleEndianHost _ _).mp hcomplete
  rw [locationInfoFields_bytes (Nat.le_trans hfit (by decide)), length_locationEntries,
    if_neg (show ¬ (imcommCreateHandle zeroBlock).profileStr.isSome = true by decide)] at hsize
  omega

end Bsflite
