import Bsflite.Inbound

/-!
# Bsflite.UserInfo

The answer to a request for a profile or an away message.  Behind the name
the server puts what it says about the user, a TLV list whose length it
gives, and behind that two more TLVs with the encoding and the text.
`snac_get_user_info` reads one list: it drops two TLVs in front, and takes an
away message of two bytes for an idle time.

* `snacGetUserInfo_reply` — what it makes of such an answer.
* `user_info_replies` — when that is the text.
-/

namespace Bsflite

/-! ## the answer -/

/-- What the server says about a user. -/
structure InfoReply where
  name : Str
  warning : UInt16
  infos : List Tlv
  name_ne_nil : name ≠ []
  name_length : name.length ≤ 255

namespace InfoReply

/-- The answer with the bytes that follow the user info block; the number of
TLVs in the block is given in front of it. -/
def payload (r : InfoReply) (tail : List UInt8) : List UInt8 :=
  [UInt8.ofNat r.name.length] ++ r.name ++ be16 r.warning ++ be16 (uint16 r.infos.length) ++
    tlvBytes r.infos ++ tail

theorem length_payload (r : InfoReply) (tail : List UInt8) :
    (r.payload tail).length = 5 + r.name.length + (tlvBytes r.infos).length + tail.length := by
  simp [payload]
  omega

theorem toNat_nameLength (r : InfoReply) : (UInt8.ofNat r.name.length).toNat = r.name.length := by
  have h := r.name_length
  rw [UInt8.toNat_ofNat']
  omega

theorem drop_payload (r : InfoReply) (tail : List UInt8) :
    (r.payload tail).drop (5 + r.name.length) = tlvBytes r.infos ++ tail := by
  rw [payload, List.append_assoc (_ ++ be16 (uint16 r.infos.length))]
  exact drop_append_of_length (by simp; omega)

end InfoReply

/-- The value of a TLV. -/
abbrev TlvValue := { v : List UInt8 // v.length < 65536 }

/-- The away message of a user. -/
def awayTail (encoding text : TlvValue) : List Tlv := [⟨0x0003, encoding⟩, ⟨0x0004, text⟩]

/-- The profile of a user. -/
def profileTail (encoding text : TlvValue) : List Tlv := [⟨0x0001, encoding⟩, ⟨0x0002, text⟩]

/-! ## what is found -/

/-- The text of a profile. -/
def profileText (t : Tlv) : Option Str := if t.type = 0x02 then some (cstr t.value.val) else none

/-- The text of an away message, by its type and length. -/
def awayText (t : Tlv) : Option Str :=
  if t.type = 0x04 ∧ t.value.val.length ≠ 2 then some (cstr t.value.val) else none

/-- One TLV replaces what was found before. -/
theorem userInfoTlv_eq (s : Option Str × Option Str) (t : Tlv) :
    userInfoTlv s t = ((profileText t).or s.1, (awayText t).or s.2) := by
  have hlen : t.len = 2 ↔ t.value.val.length = 2 := by
    rw [← UInt16.toNat_inj, Tlv.toNat_len]
    rfl
  rw [userInfoTlv, profileText, awayText]
  by_cases h2 : t.type = 0x02
  · rw [if_pos h2, if_pos h2, if_neg fun h => absurd (h2.symm.trans h.1) (by decide)]
    rfl
  · rw [if_neg h2, if_neg h2]
    by_cases h4 : t.type = 0x04
    · rw [if_pos h4]
      by_cases hidle : t.len = 2
      · rw [if_pos hidle, if_neg fun h => h.2 (hlen.mp hidle)]
        rfl
      · rw [if_neg hidle, if_pos ⟨h4, fun h => hidle (hlen.mpr h)⟩]
        rfl
    · rw [if_neg h4, if_neg fun h => h4 h.1]
      rfl

/-- The last texts are found. -/
theorem foldl_userInfoTlv (ts : List Tlv) (s : Option Str × Option Str) :
    ts.foldl userInfoTlv s =
      ((ts.filterMap profileText).getLast?.or s.1, (ts.filterMap awayText).getLast?.or s.2) := by
  have hlast (f : Tlv → Option Str) (t : Tlv) (ts : List Tlv) (o : Option Str) :
      ((t :: ts).filterMap f).getLast?.or o = (ts.filterMap f).getLast?.or ((f t).or o) := by
    cases ht : f t with
    | none =>
        rw [List.filterMap_cons_none ht]
        rfl
    | some text =>
        rw [List.filterMap_cons_some ht, List.getLast?_cons]
        cases (ts.filterMap f).getLast? <;> rfl
  induction ts generalizing s with
  | nil => rfl
  | cons t ts ih => rw [List.foldl_cons, ih, userInfoTlv_eq, hlast, hlast]

/-- Behind an encoding the text is found, unless it is taken for an idle
time. -/
theorem foldl_drop_two {infos : List Tlv} (hne : infos ≠ []) (type : UInt16) (h2 : type ≠ 0x02)
    (h4 : type ≠ 0x04) (encoding : TlvValue) (text : Tlv) :
    ((infos ++ [⟨type, encoding⟩, text]).drop 2).foldl userInfoTlv (none, none) =
      ((profileText text).or ((infos.drop 2).filterMap profileText).getLast?,
        (awayText text).or ((infos.drop 2).filterMap awayText).getLast?) := by
  have hskip (s : Option Str × Option Str) : userInfoTlv s ⟨type, encoding⟩ = s := by
    rw [userInfoTlv, if_neg h2, if_neg h4]
  match infos with
  -- of a single TLV in the block it skips the encoding too
  | [_] =>
      show [text].foldl userInfoTlv (none, none) = _
      rw [List.foldl_cons, List.foldl_nil, userInfoTlv_eq]
      rfl
  | _ :: _ :: rest =>
      show (rest ++ [⟨type, encoding⟩, text]).foldl userInfoTlv (none, none) = _
      rw [List.foldl_append, List.foldl_cons, List.foldl_cons, List.foldl_nil, hskip,
        foldl_userInfoTlv, userInfoTlv_eq, Option.or_none, Option.or_none]
      rfl

/-! ## what is called -/

/-- A call about a profile or an away message. -/
def Callback.isInfo (c : Callback) : Bool := c.event = .imProfile ∨ c.event = .imAwaymsg

/-- The call for what was found: a profile goes before an away message. -/
def infoCall (sn : Str) : Option Str × Option Str → List Callback
  | (some profilestr, _) => [.imProfile sn profilestr]
  | (none, some awaymsg) => [.imAwaymsg sn awaymsg]
  | (none, none) => []

theorem filter_infoCall (sn : Str) (found : Option Str × Option Str) :
    (infoCall sn found).filter Callback.isInfo = infoCall sn found := by
  rcases found with ⟨_ | profilestr, _ | awaymsg⟩ <;> rfl

/-- Further calls are written down. -/
def World.records (w : World (List Callback)) (calls : List Callback) : World (List Callback) :=
  { w with client := w.client ++ calls }

theorem World.records_nil (w : World (List Callback)) : w.records [] = w := by
  rw [World.records, List.append_nil]

theorem userInfoDeliver_recorder (w : World (List Callback)) (sn : Str) (ts : List Tlv) :
    userInfoDeliver recorder w sn ts =
      w.records (infoCall sn ((ts.drop 2).foldl userInfoTlv (none, none))) := by
  match ts with
  | [] | [_] => exact w.records_nil.symm
  | _ :: _ :: rest =>
      rw [userInfoDeliver, List.drop_succ_cons, List.drop_succ_cons, List.drop_zero]
      rcases rest.foldl userInfoTlv (none, none) with ⟨_ | profilestr, _ | awaymsg⟩
      · exact w.records_nil.symm
      · rfl
      · rfl
      · rfl

/-- A name without a NUL is given to the client as it is. -/
theorem cstr_eq_iff {s : Str} : cstr s = s ↔ 0 ∉ s := by
  constructor
  · intro h
    rw [← h]
    exact zero_notMem_cstr s
  · exact cstr_of_no_nul

theorem infoCall_imAwaymsg {sn name text : Str} {p a : Option Str} :
    infoCall sn (p, a) = [.imAwaymsg name text] ↔ sn = name ∧ p = none ∧ a = some text := by
  rcases p with _ | profilestr <;> rcases a with _ | awaymsg <;> simp [infoCall]

theorem infoCall_imProfile {sn name text : Str} {p a : Option Str} :
    infoCall sn (p, a) = [.imProfile name text] ↔ sn = name ∧ p = some text := by
  rcases p with _ | profilestr <;> rcases a with _ | awaymsg <;> simp [infoCall]

/-- No profile is found where there is none. -/
theorem getLast?_profileText {ts : List Tlv} :
    (ts.filterMap profileText).getLast? = none ↔ ∀ t ∈ ts, t.type ≠ 0x02 := by
  rw [List.getLast?_eq_none_iff, List.filterMap_eq_nil_iff]
  refine forall₂_congr fun t _ => ?_
  rw [profileText, ite_eq_right_iff]
  exact ⟨fun h h2 => absurd (h h2) (Option.some_ne_none _), fun h h2 => absurd h2 h⟩

section
variable [Host]

/-- The parser on an answer: it reads the name, and both TLV lists as one. -/
theorem snacGetUserInfo_reply (w : World (List Callback)) (r : InfoReply) (ts : List Tlv)
    (hfits : (r.payload (tlvBytes ts)).length ≤ 65535) :
    snacGetUserInfo recorder w (r.payload (tlvBytes ts))
        (uint16 (r.payload (tlvBytes ts)).length) =
      .ok (w.records
        (infoCall (cstr r.name) (((r.infos ++ ts).drop 2).foldl userInfoTlv (none, none)))) := by
  have hsn := r.toNat_nameLength
  have hlength := r.length_payload (tlvBytes ts)
  have hpeek : peek (r.payload (tlvBytes ts)) 0 = .ok (UInt8.ofNat r.name.length) := rfl
  have hname : peekN (r.payload (tlvBytes ts)) 1 r.name.length = .ok r.name := by
    have hsplit : r.payload (tlvBytes ts) = [UInt8.ofNat r.name.length] ++
        (r.name ++ (be16 r.warning ++ be16 (uint16 r.infos.length) ++ tlvBytes r.infos ++
          tlvBytes ts)) := by
      simp [InfoReply.payload]
    rw [hsplit]
    exact peekN_append rfl
  obtain ⟨numtlv, hcount⟩ : ∃ numtlv, peek (r.payload (tlvBytes ts)) (r.name.length + 4) =
      .ok numtlv := by
    have hin : r.name.length + 4 < (r.payload (tlvBytes ts)).length := by omega
    exact ⟨_, by rw [peek, List.getElem?_eq_getElem hin]⟩
  have hbytes : (r.payload (tlvBytes ts)).drop (5 + r.name.length) = tlvBytes (r.infos ++ ts) := by
    rw [r.drop_payload, tlvBytes_append]
  have hlen : (uint16 (r.payload (tlvBytes ts)).length).toNat =
      (r.payload (tlvBytes ts)).length := toNat_uint16_of_lt (by omega)
  have hsize : sizeT (((r.payload (tlvBytes ts)).length : Int) - 5 - (r.name.length : Int)) =
      (tlvBytes (r.infos ++ ts)).length := by
    rw [sizeT_of_nonneg (by omega), tlvBytes_append, List.length_append]
    omega
  have hsplit := tlvSplit_tlvBytes (r.infos ++ ts) (numtlv.toNat + 2)
    (by rw [tlvBytes_append, List.length_append]; omega)
  rw [snacGetUserInfo, hpeek, ok_bind, hsn, hname, ok_bind, hcount, ok_bind, hbytes, hlen, hsize,
    hsplit, ok_bind, userInfoDeliver_recorder]
  rfl

/-- The parser calls the client back with `c`, once, and with nothing else
about profiles and away messages. -/
def Reports (w : World (List Callback)) (data : List UInt8) (c : Callback) : Prop :=
  ∃ calls, snacGetUserInfo recorder w data (uint16 data.length) = .ok (w.records calls) ∧
    calls.filter Callback.isInfo = [c]

theorem reports_iff {w : World (List Callback)} {r : InfoReply} {ts : List Tlv} {c : Callback}
    (hfits : (r.payload (tlvBytes ts)).length ≤ 65535) :
    Reports w (r.payload (tlvBytes ts)) c ↔
      infoCall (cstr r.name) (((r.infos ++ ts).drop 2).foldl userInfoTlv (none, none)) = [c] := by
  have hrun := snacGetUserInfo_reply w r ts hfits
  refine ⟨fun ⟨calls, hcalls, hone⟩ => ?_, fun h => ⟨_, hrun, (filter_infoCall _ _).trans h⟩⟩
  have hsame := congrArg World.client (Except.ok.inj (hcalls.symm.trans hrun))
  rw [List.append_cancel_left hsame, filter_infoCall] at hone
  exact hone

/-- **User info**: the profile arrives when the server says anything about
the user; the away message arrives when it does so too, when none of this
looks like a profile from the third TLV on, and when the text is not two bytes
long (or the same text was found there). -/
theorem user_info_replies (w : World (List Callback)) (r : InfoReply) (encoding text : TlvValue)
    (htext : 0 ∉ text.val)
    (hfits : (r.payload (tlvBytes (awayTail encoding text))).length ≤ 65535) :
    (Reports w (r.payload (tlvBytes (awayTail encoding text))) (.imAwaymsg r.name text.val) ↔
      0 ∉ r.name ∧ r.infos ≠ [] ∧ (∀ t ∈ r.infos.drop 2, t.type ≠ 0x02) ∧
        (text.val.length ≠ 2 ∨
          ((r.infos.drop 2).filterMap awayText).getLast? = some text.val)) ∧
    (Reports w (r.payload (tlvBytes (profileTail encoding text))) (.imProfile r.name text.val) ↔
      0 ∉ r.name ∧ r.infos ≠ []) := by
  have hcstr := cstr_of_no_nul htext
  have hfits' : (r.payload (tlvBytes (profileTail encoding text))).length ≤ 65535 := by
    have hsame : (tlvBytes (profileTail encoding text)).length =
        (tlvBytes (awayTail encoding text)).length := by
      simp [profileTail, awayTail]
    rwa [r.length_payload, hsame, ← r.length_payload]
  rw [reports_iff hfits, reports_iff hfits']
  by_cases hinfos : r.infos = []
  · have hnothing (encoding text : Tlv) :
        ((r.infos ++ [encoding, text]).drop 2).foldl userInfoTlv (none, none) = (none, none) := by
      rw [hinfos]
      rfl
    rw [awayTail, profileTail, hnothing, hnothing]
    exact ⟨⟨fun h => (nomatch h), fun h => absurd hinfos h.2.1⟩,
      ⟨fun h => (nomatch h), fun h => absurd hinfos h.2⟩⟩
  · have haway := foldl_drop_two hinfos 0x0003 (by decide) (by decide) encoding ⟨0x0004, text⟩
    have hprofile := foldl_drop_two hinfos 0x0001 (by decide) (by decide) encoding ⟨0x0002, text⟩
    rw [awayTail, profileTail, haway, hprofile, infoCall_imAwaymsg, infoCall_imProfile, cstr_eq_iff]
    constructor
    · have hno : profileText ⟨0x0004, text⟩ = none := rfl
      have htwo : (awayText ⟨0x0004, text⟩).or ((r.infos.drop 2).filterMap awayText).getLast? =
            some text.val ↔
          text.val.length ≠ 2 ∨
            ((r.infos.drop 2).filterMap awayText).getLast? = some text.val := by
        by_cases hlen : text.val.length = 2
        · have hidle : awayText ⟨0x0004, text⟩ = none := if_neg fun h => h.2 hlen
          rw [hidle, Option.none_or, or_iff_right (not_not_intro hlen)]
        · have hfound : awayText ⟨0x0004, text⟩ = some (cstr text.val) := if_pos ⟨rfl, hlen⟩
          rw [hfound, Option.some_or, hcstr]
          exact iff_of_true rfl (.inl hlen)
      rw [hno, Option.none_or, getLast?_profileText, htwo, and_iff_right hinfos]
    · have hfound : profileText ⟨0x0002, text⟩ = some (cstr text.val) := rfl
      rw [hfound, Option.some_or, hcstr]
      exact and_congr_right fun _ => iff_of_true rfl hinfos

end

/-- What the server says about Bob: what kind of user he is, and for how long
he has been online. -/
def bobInfo : InfoReply where
  name := ascii "bob"
  warning := 0
  infos := [⟨0x0001, be16 0x0010, by decide⟩, ⟨0x000F, be32 256, by decide⟩]
  name_ne_nil := by decide
  name_length := by decide

/-- The encoding of a text. -/
def textEncoding : TlvValue := ⟨ascii "us-ascii", by decide +kernel⟩

/-- Nobody has been called yet. -/
def unheard : World (List Callback) where
  handle := imcommCreateHandle zeroBlock
  client := []
  children := []

/-- Bob is away, and has a profile. -/
theorem user_info_replies_lunch :
    @Reports littleEndianHost unheard
      (bobInfo.payload (tlvBytes (awayTail textEncoding ⟨ascii "lunch", by decide +kernel⟩)))
      (.imAwaymsg (ascii "bob") (ascii "lunch")) ∧
    @Reports littleEndianHost unheard
      (bobInfo.payload (tlvBytes (profileTail textEncoding ⟨ascii "lunch", by decide +kernel⟩)))
      (.imProfile (ascii "bob") (ascii "lunch")) := by
  have h := @user_info_replies littleEndianHost unheard bobInfo textEncoding
    ⟨ascii "lunch", by decide +kernel⟩ (by decide +kernel) (by decide +kernel)
  exact ⟨h.1.mpr (by decide +kernel), h.2.mpr (by decide +kernel)⟩

/-- "ok" is taken for an idle time, and nobody is called. -/
theorem user_info_two_bytes :
    ¬ ∀ (w : World (List Callback)) (r : InfoReply) (encoding text : TlvValue),
      0 ∉ r.name → 0 ∉ text.val →
      (r.payload (tlvBytes (awayTail encoding text))).length ≤ 65535 →
      @Reports littleEndianHost w (r.payload (tlvBytes (awayTail encoding text)))
        (.imAwaymsg r.name text.val) ∧
      @Reports littleEndianHost w (r.payload (tlvBytes (profileTail encoding text)))
        (.imProfile r.name text.val) := by
  intro h
  have hfits : (bobInfo.payload (tlvBytes (awayTail textEncoding
      ⟨ascii "ok", by decide +kernel⟩))).length ≤ 65535 := by
    decide +kernel
  obtain ⟨haway, -⟩ := h unheard bobInfo textEncoding ⟨ascii "ok", by decide +kernel⟩
    (by decide +kernel) (by decide +kernel) hfits
  have hnothing : infoCall (cstr bobInfo.name)
      (((bobInfo.infos ++ awayTail textEncoding ⟨ascii "ok", by decide +kernel⟩).drop 2).foldl
        userInfoTlv (none, none)) = [] := by
    decide +kernel
  have hcalled := (@reports_iff littleEndianHost _ _ _ _ hfits).mp haway
  rw [hnothing] at hcalled
  cases hcalled

end Bsflite
