import Bsflite.Framing
import Bsflite.Inbound

/-!
# Bsflite.Stream

Whole streams of frames, over as many calls as they take.

* `ssl_receive_framing` — on the whole-packet path over TLS the n-th call
  decodes the n-th frame and consumes nothing else.
* `delivers_full`, `delivers_byte` — what a path makes of a stream, read off
  its calls by `delivers_step`.
* `receive_paths_agree` — the other three paths hand over the same frames
  exactly when no frame is empty.
-/

namespace Bsflite

section
variable [Host] {σ : Type} (cbs : Callbacks σ) (decode : Decoder σ)

/-- The call of `flap_decode` that belongs to a frame. -/
def Flap.decoded (f : Flap) : Outcome := .decoded f.header f.payload.val

/-- **Framing over TLS.** However the reads are split, `n` calls decode the
first `n` frames in order, each once, and leave the rest of the stream. -/
theorem ssl_receive_framing {c : Conn σ} {fs : List Flap} {rest : List UInt8} {tail : Feed}
    (hc : c.Ready true (flapBytes fs ++ rest) tail) (hkeep : decode.KeepsOpen fs) {fuel : Nat}
    (hfuel : 65535 ≤ fuel) {n : Nat} (hn : n ≤ fs.length) :
    ∃ c', polls cbs decode true fuel n c = .ok (c', (fs.take n).map Flap.decoded) ∧
      c'.Ready true (flapBytes (fs.drop n) ++ rest) tail := by
  induction n generalizing c fs with
  | zero => exact ⟨c, rfl, hc⟩
  | succ n ih =>
      cases fs with
      | nil => simp at hn
      | cons f fs =>
          rw [flapBytes_cons, List.append_assoc] at hc
          obtain ⟨s, hselect, hout, hready⟩ := select_frame cbs decode hc (.inl rfl) hkeep
            List.mem_cons_self hfuel
          have hkeep' : decode.KeepsOpen fs := fun g hg => hkeep g (List.mem_cons_of_mem f hg)
          obtain ⟨c', hpolls, hready'⟩ := ih hready hkeep' (by simpa using hn)
          have hfirst : polls cbs decode true fuel (n + 1) c =
              .ok (c', s.outcome :: (fs.take n).map Flap.decoded) := by
            rw [polls, hselect, ok_bind, hpolls]
            rfl
          refine ⟨c', ?_, hready'⟩
          rw [hfirst, hout]
          rfl

end

/-- `flap_decode` does nothing with a frame that is neither a SNAC nor a
sign-off. -/
theorem flapDecode_keepsOpen [Host] [Network] {σ : Type} (cbs : Callbacks σ) {fs : List Flap}
    (h : ∀ f ∈ fs, f.channel ≠ 0x02 ∧ f.channel ≠ 0x04) :
    Decoder.KeepsOpen (flapDecode cbs) fs := by
  intro f hf w
  obtain ⟨h2, h4⟩ := h f hf
  have hchannel : peek f.header 1 = .ok f.channel := rfl
  refine ⟨w, .ok, ?_, rfl, rfl, rfl⟩
  rw [flapDecode, twoTo16_header, ok_bind, hchannel, ok_bind, if_neg h2, if_neg h4]
  rfl

/-- A keepalive frame; `flap_send` makes them without a payload. -/
def keepaliveFrame (seqnum : UInt16) (payload : { p : List UInt8 // p.length < 65536 }) : Flap :=
  ⟨0x2A, 0x05, seqnum, payload⟩

/-- A connected handle of the recording client. -/
def recording (ssl : Bool) (feed : Feed) : Conn (List Callback) :=
  ⟨⟨{ zeroBlock with socket := 3, useSsl := ssl }, [], []⟩, feed, fun _ => 0⟩

/-- `flap_decode` of the recording client. -/
def recordingDecode : Decoder (List Callback) :=
  @flapDecode littleEndianHost refusingNetwork _ recorder

/-- Two keepalive frames, the second with one byte of payload, that arrive
in three pieces. -/
theorem ssl_receive_framing_two_keepalives :
    ∃ c', @polls littleEndianHost _ recorder recordingDecode true 65535 2 (recording true
        (.piece 0x2A [0x05, 0x00] (.piece 0x01 [0x00, 0x00, 0x2A, 0x05]
          (.piece 0x00 [0x02, 0x00, 0x01, 0x07] .quiet)))) =
        .ok (c', [(keepaliveFrame 1 ⟨[], by decide⟩).decoded,
          (keepaliveFrame 2 ⟨[0x07], by decide⟩).decoded]) ∧
      c'.Ready true [] .quiet :=
  @ssl_receive_framing littleEndianHost _ recorder recordingDecode _
    [keepaliveFrame 1 ⟨[], by decide⟩, keepaliveFrame 2 ⟨[0x07], by decide⟩] [] .quiet
    ⟨by decide, rfl, rfl, rfl, rfl⟩
    (@flapDecode_keepsOpen littleEndianHost refusingNetwork _ recorder _ (by decide))
    65535 (Nat.le_refl _) 2 (Nat.le_refl _)

/-! ## what a path delivers -/

/-- The header and payload of a call of `flap_decode`. -/
def Outcome.frame : Outcome → Option (List UInt8 × List UInt8)
  | .decoded header data => some (header, data)
  | _ => none

/-- The header and payload of a frame. -/
def Flap.parts (f : Flap) : List UInt8 × List UInt8 := (f.header, f.payload.val)

section
variable [Host] {σ : Type} (cbs : Callbacks σ) (decode : Decoder σ)

/-- Calls of `imcomm_select` that use up what has arrived, without a
disconnect, and pass exactly these headers and payloads to `flap_decode`. -/
def Delivers (full : Bool) (fuel : Nat) (c : Conn σ) (frames : List (List UInt8 × List UInt8)) :
    Prop :=
  ∃ n c' outcomes, polls cbs decode full fuel n c = .ok (c', outcomes) ∧ c'.feed = .quiet ∧
    outcomes.filterMap Outcome.frame = frames ∧ .disconnected ∉ outcomes

variable {full : Bool} {fuel : Nat}

/-- As long as something has arrived, there is another call. -/
theorem delivers_cases {c : Conn σ} {frames : List (List UInt8 × List UInt8)}
    (hfeed : c.feed ≠ .quiet) (h : Delivers cbs decode full fuel c frames) :
    ∃ s rest, imcommSelect cbs decode full fuel c = .ok s ∧ s.outcome ≠ .disconnected ∧
      frames = s.outcome.frame.toList ++ rest ∧ Delivers cbs decode full fuel s.conn rest := by
  obtain ⟨n, c', outcomes, hpolls, hquiet, hframes, hconn⟩ := h
  cases n with
  | zero =>
      cases hpolls
      exact absurd hquiet hfeed
  | succ n =>
      rw [polls] at hpolls
      cases hselect : imcommSelect cbs decode full fuel c with
      | error e => simp [hselect] at hpolls
      | ok s =>
          rw [hselect, ok_bind] at hpolls
          cases hrest : polls cbs decode full fuel n s.conn with
          | error e => simp [hrest] at hpolls
          | ok r =>
              rw [hrest, ok_bind] at hpolls
              cases hpolls
              rw [List.mem_cons, not_or] at hconn
              refine ⟨s, r.2.filterMap Outcome.frame, rfl, Ne.symm hconn.1, ?_, ?_⟩
              · rw [← hframes, List.filterMap_cons]
                cases s.outcome.frame <;> rfl
              · exact ⟨n, r.1, r.2, hrest, hquiet, rfl, hconn.2⟩

/-- A call that goes well takes its part of the frames. -/
theorem delivers_step {c : Conn σ} {s : Selected σ} (hfeed : c.feed ≠ .quiet)
    (hselect : imcommSelect cbs decode full fuel c = .ok s) (hconn : s.outcome ≠ .disconnected)
    (frames : List (List UInt8 × List UInt8)) :
    Delivers cbs decode full fuel c frames ↔
      ∃ rest, frames = s.outcome.frame.toList ++ rest ∧
        Delivers cbs decode full fuel s.conn rest := by
  constructor
  · intro h
    obtain ⟨s', rest, hselect', -, hframes, hrest⟩ := delivers_cases cbs decode hfeed h
    rw [hselect] at hselect'
    cases hselect'
    exact ⟨rest, hframes, hrest⟩
  · rintro ⟨rest, hframes, n, c', outcomes, hpolls, hquiet, hrest, hnot⟩
    refine ⟨n + 1, c', s.outcome :: outcomes, ?_, hquiet, ?_, ?_⟩
    · rw [polls, hselect, ok_bind, hpolls]
      rfl
    · rw [hframes, ← hrest, List.filterMap_cons]
      cases s.outcome.frame <;> rfl
    · simpa using ⟨Ne.symm hconn, hnot⟩

/-- When everything that arrived is used up, nothing more is delivered. -/
theorem delivers_quiet {c : Conn σ} (hfeed : c.feed = .quiet) (hsocket : c.world.handle.socket ≠ -1)
    (frames : List (List UInt8 × List UInt8)) :
    Delivers cbs decode full fuel c frames ↔ frames = [] := by
  constructor
  · rintro ⟨n, c', outcomes, hpolls, -, hframes, -⟩
    cases n with
    | zero =>
        cases hpolls
        exact hframes.symm
    | succ n =>
        have hhang : imcommSelect cbs decode full fuel c = .error .hang := by
          rw [imcommSelect, if_neg hsocket]
          cases full with
          | true =>
              simp only [selectFull, hfeed, if_true]
              rw [readLoop_quiet _ _ _ (by decide)]
          | false =>
              simp only [selectByte, hfeed, Bool.false_eq_true, if_false]
              rfl
        rw [polls, hhang] at hpolls
        simp at hpolls
  · rintro rfl
    exact ⟨0, c, [], rfl, hfeed, rfl, List.not_mem_nil⟩

omit [Host] in
/-- A feed with bytes is not quiet. -/
theorem Feed.ne_quiet {feed : Feed} {b : UInt8} {bytes : List UInt8}
    (h : feed.bytes = b :: bytes) : feed ≠ .quiet := by
  rintro rfl
  exact (List.cons_ne_nil b bytes) h.symm

omit [Host] in
/-- A feed without bytes is what comes behind them. -/
theorem Feed.eq_of_bytes {feed tail : Feed} (h : feed.bytes = []) (htail : feed.tail = tail) :
    feed = tail :=
  (Feed.eq_tail_of_bytes h).symm.trans htail

/-! ## the whole-packet paths -/

/-- The whole-packet paths deliver a stream of frames; on a plain socket
only when no frame is empty. -/
theorem delivers_full {c : Conn σ} {ssl : Bool} {fs : List Flap}
    (hc : c.Ready ssl (flapBytes fs) .quiet) (hkeep : decode.KeepsOpen fs)
    (hfuel : 65535 ≤ fuel) :
    Delivers cbs decode true fuel c (fs.map Flap.parts) ↔
      ssl = true ∨ ∀ f ∈ fs, f.payload.val ≠ [] := by
  induction fs generalizing c with
  | nil =>
      have hquiet := Feed.eq_of_bytes hc.feed_bytes hc.feed_tail
      simp [delivers_quiet cbs decode hquiet hc.socket_ne]
  | cons f fs ih =>
      have hfeed : c.feed ≠ .quiet := Feed.ne_quiet hc.feed_bytes
      by_cases hok : ssl = true ∨ f.payload.val ≠ []
      · obtain ⟨s, hselect, hout, hready⟩ := select_frame cbs decode hc hok hkeep
          List.mem_cons_self hfuel
        have hkeep' : decode.KeepsOpen fs := fun g hg => hkeep g (List.mem_cons_of_mem f hg)
        have hnext := ih hready hkeep'
        rw [delivers_step cbs decode hfeed hselect (by rw [hout]; exact Outcome.noConfusion), hout]
        constructor
        · rintro ⟨rest, hframes, hrest⟩
          obtain ⟨-, rfl⟩ := List.cons.inj hframes
          cases hnext.mp hrest with
          | inl hssl => exact .inl hssl
          | inr hall =>
              cases hok with
              | inl hssl => exact .inl hssl
              | inr hne => exact .inr (List.forall_mem_cons.mpr ⟨hne, hall⟩)
        · intro h
          refine ⟨fs.map Flap.parts, rfl, hnext.mpr ?_⟩
          exact h.imp_right fun hall => (List.forall_mem_cons.mp hall).2
      · rw [not_or, not_not] at hok
        obtain ⟨hplain, hempty⟩ := hok
        rw [Bool.not_eq_true] at hplain
        subst hplain
        obtain ⟨s, hselect, hout⟩ := select_empty cbs decode hc hempty hfuel
        constructor
        · intro h
          obtain ⟨s', -, hselect', hconn, -⟩ := delivers_cases cbs decode hfeed h
          rw [hselect] at hselect'
          cases hselect'
          exact absurd hout hconn
        · intro h
          simp [hempty] at h

/-! ## the byte-at-a-time path -/

/-- A call that only takes a byte delivers nothing itself. -/
theorem delivers_waiting {c : Conn σ} {s : Selected σ} (hfeed : c.feed ≠ .quiet)
    (hselect : imcommSelect cbs decode full fuel c = .ok s) (hout : s.outcome = .waiting)
    (frames : List (List UInt8 × List UInt8)) :
    Delivers cbs decode full fuel c frames ↔ Delivers cbs decode full fuel s.conn frames := by
  rw [delivers_step cbs decode hfeed hselect (by rw [hout]; exact Outcome.noConfusion), hout]
  simp [Outcome.frame]

/-- The bytes of a header, one call each. -/
theorem delivers_header (fuel : Nat) {f : Flap} {bytes : List UInt8} (need : List UInt8)
    {c : Conn σ} {got : List UInt8} (hc : c.InHeader got (need ++ bytes) .quiet)
    (hheader : got ++ need = f.header) (hne : need ≠ []) :
    ∃ c', c'.InPayload f.header f.payload.val.length [] bytes .quiet ∧ ∀ frames,
      (Delivers cbs decode false fuel c frames ↔ Delivers cbs decode false fuel c' frames) := by
  induction need generalizing c got with
  | nil => exact absurd rfl hne
  | cons b need ih =>
      have hfeed : c.feed ≠ .quiet := Feed.ne_quiet hc.feed_bytes
      cases need with
      | nil =>
          obtain ⟨s, hselect, hout, hpayload⟩ := header_last cbs decode hc hheader fuel
          exact ⟨s.conn, hpayload, delivers_waiting cbs decode hfeed hselect hout⟩
      | cons b' need =>
          have hlen : got.length + (need.length + 1 + 1) = 6 := by
            rw [← f.length_header, ← hheader, List.length_append]
            rfl
          obtain ⟨s, hselect, hout, hnext⟩ := header_step cbs decode hc (by omega) fuel
          obtain ⟨c', hpayload, hsame⟩ := ih hnext (by rw [List.append_assoc]; exact hheader)
            (List.cons_ne_nil b' need)
          exact ⟨c', hpayload, fun frames =>
            (delivers_waiting cbs decode hfeed hselect hout frames).trans (hsame frames)⟩

/-- The bytes of a payload, one call each; the last one delivers the frame. -/
theorem delivers_payload (fuel : Nat) {f : Flap} {bytes : List UInt8} {fs : List Flap}
    (hkeep : decode.KeepsOpen fs) (hf : f ∈ fs) (need : List UInt8) {c : Conn σ} {got : List UInt8}
    (hc : c.InPayload f.header f.payload.val.length got (need ++ bytes) .quiet)
    (hpayload : got ++ need = f.payload.val) (hne : need ≠ []) :
    ∃ c', c'.InHeader [] bytes .quiet ∧ ∀ frames,
      (Delivers cbs decode false fuel c frames ↔
        ∃ rest, frames = f.parts :: rest ∧ Delivers cbs decode false fuel c' rest) := by
  induction need generalizing c got with
  | nil => exact absurd rfl hne
  | cons b need ih =>
      have hfeed : c.feed ≠ .quiet := Feed.ne_quiet hc.feed_bytes
      cases need with
      | nil =>
          obtain ⟨s, hselect, hout, hheader⟩ := payload_last cbs decode hc hpayload hkeep hf fuel
          refine ⟨s.conn, hheader, fun frames => ?_⟩
          rw [delivers_step cbs decode hfeed hselect (by rw [hout]; exact Outcome.noConfusion),
            hout]
          rfl
      | cons b' need =>
          have hlen : got.length + (need.length + 1 + 1) = f.payload.val.length := by
            rw [← hpayload, List.length_append]
            rfl
          obtain ⟨s, hselect, hout, hnext⟩ := payload_step cbs decode hc (by omega) fuel
          obtain ⟨c', hheader, hsame⟩ := ih hnext (by rw [List.append_assoc]; exact hpayload)
            (List.cons_ne_nil b' need)
          exact ⟨c', hheader, fun frames =>
            (delivers_waiting cbs decode hfeed hselect hout frames).trans (hsame frames)⟩

/-- The byte behind the header of an empty frame is stored outside its
block. -/
theorem selectByte_empty {c : Conn σ} {header bytes : List UInt8} {b : UInt8} {tail : Feed}
    (hc : c.InPayload header 0 [] (b :: bytes) tail) :
    imcommSelect cbs decode false fuel c = .error .oob := by
  obtain ⟨feed, hread, -, -⟩ := read_one hc.feed_bytes
  obtain ⟨buf, hdata, hbuf, -⟩ := hc.data_eq
  have hnlt : ¬ c.world.handle.headerPos < 6 := by
    rw [hc.header_pos]
    decide
  rw [imcommSelect, if_neg hc.socket_ne, if_neg (by decide), selectByte]
  simp only [hread, hdata]
  rw [if_neg hnlt, if_neg (by decide), if_pos (by omega)]

/-- An empty frame is not delivered. -/
theorem not_delivers_empty {c : Conn σ} {f : Flap} {bytes : List UInt8}
    (hc : c.InPayload f.header 0 [] bytes .quiet) (rest : List (List UInt8 × List UInt8)) :
    ¬ Delivers cbs decode false fuel c (f.parts :: rest) := by
  intro h
  cases bytes with
  | nil =>
      have hquiet := Feed.eq_of_bytes hc.feed_bytes hc.feed_tail
      rw [delivers_quiet cbs decode hquiet hc.socket_ne] at h
      cases h
  | cons b bytes =>
      have hfeed : c.feed ≠ .quiet := Feed.ne_quiet hc.feed_bytes
      obtain ⟨s, _, hselect, -⟩ := delivers_cases cbs decode hfeed h
      rw [selectByte_empty cbs decode hc] at hselect
      cases hselect

/-- The byte-at-a-time path delivers a stream of frames exactly when no
frame is empty. -/
theorem delivers_byte {c : Conn σ} {fs : List Flap} (hc : c.InHeader [] (flapBytes fs) .quiet)
    (hkeep : decode.KeepsOpen fs) :
    Delivers cbs decode false fuel c (fs.map Flap.parts) ↔ ∀ f ∈ fs, f.payload.val ≠ [] := by
  induction fs generalizing c with
  | nil =>
      have hquiet := Feed.eq_of_bytes hc.feed_bytes hc.feed_tail
      simp [delivers_quiet cbs decode hquiet hc.socket_ne]
  | cons f fs ih =>
      rw [flapBytes_cons, Flap.bytes, List.append_assoc] at hc
      obtain ⟨c₁, hpayload, hheader⟩ := delivers_header cbs decode fuel f.header hc rfl
        (List.cons_ne_nil _ _)
      rw [hheader, List.map_cons]
      by_cases hne : f.payload.val = []
      · rw [hne] at hpayload
        constructor
        · exact fun h => absurd h (not_delivers_empty cbs decode hpayload _)
        · exact fun h => absurd hne (h f List.mem_cons_self)
      · have hkeep' : decode.KeepsOpen fs := fun g hg => hkeep g (List.mem_cons_of_mem f hg)
        obtain ⟨c₂, hnext, hsame⟩ := delivers_payload cbs decode fuel hkeep
          List.mem_cons_self f.payload.val hpayload rfl hne
        rw [hsame, List.forall_mem_cons]
        constructor
        · rintro ⟨rest, hframes, hrest⟩
          obtain ⟨-, rfl⟩ := List.cons.inj hframes
          exact ⟨hne, (ih hnext hkeep').mp hrest⟩
        · rintro ⟨-, hall⟩
          exact ⟨fs.map Flap.parts, rfl, (ih hnext hkeep').mpr hall⟩

/-! ## all paths -/

/-- The connection with the handle told to use TLS or not. -/
def Conn.over (c : Conn σ) (ssl : Bool) : Conn σ := c.store { c.world.handle with useSsl := ssl }

/-- **The receive paths agree** on exactly the streams without an empty
frame.  The whole-packet path over TLS delivers every stream; each of the
other three delivers the same frames if and only if none is empty. -/
theorem receive_paths_agree {c : Conn σ} {fs : List Flap} (hsocket : c.world.handle.socket ≠ -1)
    (hpos : c.world.handle.headerPos = 0) (hlen : c.world.handle.header.length = 6)
    (hbytes : c.feed.bytes = flapBytes fs) (htail : c.feed.tail = .quiet)
    (hkeep : decode.KeepsOpen fs) (hfuel : 65535 ≤ fuel) :
    Delivers cbs decode true fuel (c.over true) (fs.map Flap.parts) ∧
      ∀ full ssl, (full && ssl) = false →
        (Delivers cbs decode full fuel (c.over ssl) (fs.map Flap.parts) ↔
          ∀ f ∈ fs, f.payload.val ≠ []) := by
  have hready : ∀ ssl, (c.over ssl).Ready ssl (flapBytes fs) .quiet :=
    fun ssl => ⟨hsocket, rfl, hlen, hbytes, htail⟩
  have hbyte : ∀ ssl, (c.over ssl).InHeader [] (flapBytes fs) .quiet :=
    fun ssl => ⟨hsocket, congrArg UInt8.toNat hpos, hlen, rfl, hbytes, htail⟩
  constructor
  · exact (delivers_full cbs decode (hready true) hkeep hfuel).mpr (.inl rfl)
  · intro full ssl hother
    cases full with
    | false => exact delivers_byte cbs decode (hbyte ssl) hkeep
    | true =>
        rw [Bool.true_and] at hother
        subst hother
        rw [delivers_full cbs decode (hready false) hkeep hfuel]
        simp

end

/-- The receive paths on a keepalive frame with one byte of payload. -/
theorem receive_paths_agree_one_byte :
    @Delivers littleEndianHost _ recorder recordingDecode true 65535
        ((recording true (.piece 0x2A [5, 0, 1, 0, 1, 7] .quiet)).over true)
        [(keepaliveFrame 1 ⟨[7], by decide⟩).parts] ∧
      ∀ full ssl, (full && ssl) = false →
        (@Delivers littleEndianHost _ recorder recordingDecode full 65535
            ((recording true (.piece 0x2A [5, 0, 1, 0, 1, 7] .quiet)).over ssl)
            [(keepaliveFrame 1 ⟨[7], by decide⟩).parts] ↔
          ∀ f ∈ [keepaliveFrame 1 ⟨[7], by decide⟩], f.payload.val ≠ []) :=
  @receive_paths_agree littleEndianHost _ recorder recordingDecode 65535
    (recording true (.piece 0x2A [5, 0, 1, 0, 1, 7] .quiet)) [keepaliveFrame 1 ⟨[7], by decide⟩]
    (by decide) rfl rfl rfl rfl
    (@flapDecode_keepsOpen littleEndianHost refusingNetwork _ recorder _ (by decide))
    (Nat.le_refl _)

/-- An empty keepalive frame is delivered by the whole-packet path over TLS
and by none of the others. -/
theorem receive_paths_differ_keepalive :
    @Delivers littleEndianHost _ recorder recordingDecode true 65535
        (recording true (.piece 0x2A [5, 0, 1, 0, 0] .quiet)) [([0x2A, 5, 0, 1, 0, 0], [])] ∧
      ∀ full ssl, (full && ssl) = false →
        ¬ @Delivers littleEndianHost _ recorder recordingDecode full 65535
          (recording ssl (.piece 0x2A [5, 0, 1, 0, 0] .quiet)) [([0x2A, 5, 0, 1, 0, 0], [])] := by
  have hkeep : recordingDecode.KeepsOpen [keepaliveFrame 1 ⟨[], by decide⟩] :=
    @flapDecode_keepsOpen littleEndianHost refusingNetwork _ recorder _ (by decide)
  have hempty : ¬ ∀ f ∈ [keepaliveFrame 1 ⟨[], by decide⟩], f.payload.val ≠ [] := by decide
  constructor
  · exact (@delivers_full littleEndianHost _ recorder recordingDecode 65535 _ true _
      ⟨by decide, rfl, rfl, rfl, rfl⟩ hkeep (Nat.le_refl _)).mpr (.inl rfl)
  · intro full ssl hother h
    cases full with
    | true =>
        rw [Bool.true_and] at hother
        subst hother
        have hall := (@delivers_full littleEndianHost _ recorder recordingDecode 65535 _ false _
          ⟨by decide, rfl, rfl, rfl, rfl⟩ hkeep (Nat.le_refl _)).mp h
        exact hempty (hall.resolve_left Bool.false_ne_true)
    | false =>
        exact hempty ((@delivers_byte littleEndianHost _ recorder recordingDecode 65535 _ _
          ⟨by cases ssl <;> decide, rfl, rfl, rfl, rfl, rfl⟩ hkeep).mp h)

end Bsflite
