import Bsflite.Stream

/-!
# Bsflite.Disconnect

A connection that is lost in the middle of a frame, on the whole-packet
paths.

* `readLoop_skip` — a read loop goes through the bytes that did arrive.
* `readLoop_seen`, `readLoop_missed` — what it does when the reads then fail
  depends on how many bytes it had.
* `loss_detected` — a call reports the loss exactly when the loop it is in
  sees it; otherwise it need not return.
-/

namespace Bsflite

/-! ## scripts of reads -/

/-- How a connection is lost. -/
inductive Failure where
  /-- end of stream -/
  | eof
  /-- a read that fails with the result `r` -/
  | error (r : Int) (negative : r < 0)

/-- The reads from the failure on; behind an error comes what may. -/
def Failure.feed : Failure → Feed → Feed
  | eof, _ => .eof
  | error r _, rest => .error r rest

/-- Reads that get these pieces, and then the rest. -/
def Feed.cut (pieces : List (UInt8 × List UInt8)) (rest : Feed) : Feed :=
  pieces.foldr (fun p feed => .piece p.1 p.2 feed) rest

/-- The bytes of some pieces. -/
def pieceBytes (pieces : List (UInt8 × List UInt8)) : List UInt8 :=
  pieces.flatMap fun p => p.1 :: p.2

@[simp] theorem Failure.bytes_feed (failure : Failure) (rest : Feed) :
    (failure.feed rest).bytes = [] := by
  cases failure <;> rfl

@[simp] theorem Failure.tail_feed (failure : Failure) (rest : Feed) :
    (failure.feed rest).tail = failure.feed rest := by
  cases failure <;> rfl

@[simp] theorem Feed.bytes_cut (pieces : List (UInt8 × List UInt8)) (rest : Feed) :
    (Feed.cut pieces rest).bytes = pieceBytes pieces ++ rest.bytes := by
  induction pieces with
  | nil => rfl
  | cons p pieces ih =>
      have hcons : (Feed.cut (p :: pieces) rest).bytes =
          p.1 :: p.2 ++ (Feed.cut pieces rest).bytes := rfl
      rw [hcons, ih, ← List.append_assoc]
      rfl

@[simp] theorem Feed.tail_cut (pieces : List (UInt8 × List UInt8)) (rest : Feed) :
    (Feed.cut pieces rest).tail = rest.tail := by
  induction pieces with
  | nil => rfl
  | cons p pieces ih => exact ih

/-- The loops notice the failure with `k` bytes there: over TLS an error, on
a plain socket what brings the count down to 0. -/
def Failure.Seen (ssl : Bool) (k : Nat) : Failure → Prop
  | eof => ssl = false ∧ k = 0
  | error r _ => ssl = true ∨ (k : Int) + r ≤ 0

/-! ## read loops -/

/-- A loop that finds fewer bytes than it wants stores them and goes on with
what is behind them. -/
theorem readLoop_skip (ssl : Bool) {feed : Feed} {need : List UInt8} (hbytes : feed.bytes = need)
    {want k : Nat} (buf : List UInt8) (hshort : k + need.length < want) :
    ∃ used buf', ∀ fuel, readLoop ssl want (used + fuel) feed buf k =
      readLoop ssl want fuel feed.tail buf' (k + need.length) := by
  induction hn : need.length using Nat.strong_induction_on generalizing feed need k buf with
  | _ n ih =>
      by_cases hempty : need = []
      · have htail := Feed.eq_tail_of_bytes (hbytes.trans hempty)
        subst hempty
        refine ⟨0, buf, fun fuel => ?_⟩
        rw [htail, ← hn, Nat.zero_add]
        rfl
      · obtain ⟨got, feed', hread, hgot, hle, hcut, htail⟩ := Feed.read_of_bytes
          (show 0 < want - k by omega) (by rw [hbytes]; exact hempty)
        have hlen : n = got.length + feed'.bytes.length := by
          rw [← hn, ← hbytes, hcut, List.length_append]
        have htest : readFailed ssl k got.length = false := by
          cases ssl <;> simp [readFailed]
          omega
        have hk : ((k : Int) + (got.length : Int)).toNat = k + got.length := by omega
        obtain ⟨used, buf', hrest⟩ := ih feed'.bytes.length (by omega) rfl (poke buf k got)
          (show k + got.length + feed'.bytes.length < want by omega) rfl
        refine ⟨used + 1, buf', fun fuel => ?_⟩
        rw [Nat.add_right_comm, readLoop, hread]
        simp only [htest, Bool.false_eq_true, if_false, hk]
        rw [if_pos (by omega), hrest, htail, hlen, Nat.add_assoc]

/-- A loop that sees the failure ends there. -/
theorem readLoop_seen {failure : Failure} {ssl : Bool} {want k : Nat} (hk : k < want)
    (hseen : failure.Seen ssl k) (rest : Feed) (buf : List UInt8) (fuel : Nat) :
    ∃ buf' feed, readLoop ssl want (fuel + 1) (failure.feed rest) buf k =
      some ⟨false, buf', feed⟩ := by
  cases failure with
  | eof =>
      obtain ⟨rfl, rfl⟩ := hseen
      refine ⟨poke buf 0 [], .eof, ?_⟩
      rw [readLoop, Failure.feed, Feed.read, if_neg (by omega)]
      rfl
  | error r hr =>
      have htest : readFailed ssl k r = true := by
        cases ssl with
        | true => simpa [readFailed] using hr
        | false => simpa [readFailed, Failure.Seen] using hseen
      refine ⟨poke buf k [], rest, ?_⟩
      rw [readLoop, Failure.feed, Feed.read, if_neg (by omega)]
      simp only [htest, if_true]

/-- A loop that takes an end of stream for a read of nothing spins. -/
theorem readLoop_eof {ssl : Bool} {want k : Nat} (hk : k < want) (hspin : ssl = true ∨ 0 < k)
    (buf : List UInt8) (fuel : Nat) : readLoop ssl want fuel .eof buf k = none := by
  induction fuel generalizing buf with
  | zero => rfl
  | succ fuel ih =>
      have htest : readFailed ssl k 0 = false := by
        cases hspin with
        | inl hssl => simp [readFailed, hssl]
        | inr hpos =>
            simp [readFailed]
            omega
      have hsame : ((k : Int) + 0).toNat = k := by omega
      rw [readLoop, Feed.read, if_neg (by omega)]
      simp only [htest, Bool.false_eq_true, if_false, hsame]
      rw [if_pos hk]
      exact ih _

/-- A loop that does not see the failure need not end: it spins when the
connection stays at its end. -/
theorem readLoop_missed {failure : Failure} {ssl : Bool} {want k : Nat} (hk : k < want)
    (hmissed : ¬ failure.Seen ssl k) (buf : List UInt8) (fuel : Nat) :
    readLoop ssl want fuel (failure.feed .eof) buf k = none := by
  cases failure with
  | eof =>
      apply readLoop_eof hk
      rw [Failure.Seen, not_and_or, Bool.not_eq_false] at hmissed
      exact hmissed.imp_right Nat.pos_of_ne_zero
  | error r hr =>
      rw [Failure.Seen, not_or, Bool.not_eq_true] at hmissed
      obtain ⟨rfl, hpos⟩ := hmissed
      cases fuel with
      | zero => rfl
      | succ fuel =>
          have htest : readFailed false k r = false := by simpa [readFailed] using hpos
          rw [readLoop, Failure.feed, Feed.read, if_neg (by omega)]
          simp only [htest, Bool.false_eq_true, if_false]
          rw [if_pos (by omega)]
          exact readLoop_eof (by omega) (.inr (by omega)) _ fuel

/-- A loop that gets a part of what it wants and then sees the failure. -/
theorem readLoop_part_seen {failure : Failure} {ssl : Bool} {want : Nat} {rest feed : Feed}
    (htail : feed.tail = failure.feed rest) (hshort : feed.bytes.length < want)
    (hseen : failure.Seen ssl feed.bytes.length) (buf : List UInt8) :
    ∃ fuel buf' feed', readLoop ssl want fuel feed buf 0 = some ⟨false, buf', feed'⟩ := by
  obtain ⟨used, buf', hskip⟩ := readLoop_skip ssl rfl buf (by rwa [Nat.zero_add])
  obtain ⟨buf'', feed', hend⟩ := readLoop_seen hshort hseen rest buf' 0
  refine ⟨used + (0 + 1), buf'', feed', ?_⟩
  rw [hskip, htail, Nat.zero_add feed.bytes.length, hend]

/-- A loop that gets a part of what it wants and does not see the failure. -/
theorem readLoop_part_missed {failure : Failure} {ssl : Bool} {want : Nat} {feed : Feed}
    (htail : feed.tail = failure.feed .eof) (hshort : feed.bytes.length < want)
    (hmissed : ¬ failure.Seen ssl feed.bytes.length) (buf : List UInt8) (fuel : Nat) :
    readLoop ssl want fuel feed buf 0 = none := by
  obtain ⟨used, buf', hskip⟩ := readLoop_skip ssl rfl buf (by rwa [Nat.zero_add])
  have hhang : readLoop ssl want (used + fuel) feed buf 0 = none := by
    rw [hskip, htail, Nat.zero_add]
    exact readLoop_missed hshort hmissed buf' fuel
  cases h : readLoop ssl want fuel feed buf 0 with
  | none => rfl
  | some e =>
      rw [readLoop_mono h (Nat.le_add_left fuel used)] at hhang
      cases hhang

/-! ## one call -/

section
variable [Host] {σ : Type} (cbs : Callbacks σ) (decode : Decoder σ)

/-- More fuel does not change the result of a call. -/
theorem selectPayload_mono {c : Conn σ} {h : Imcomm} {s : Selected σ} {fuel fuel' : Nat}
    (hok : selectPayload cbs decode fuel c h = .ok s) (hle : fuel ≤ fuel') :
    selectPayload cbs decode fuel' c h = .ok s := by
  rw [selectPayload] at hok ⊢
  cases hlen : twoTo16 (h.header.drop 4) with
  | error e => simp [hlen] at hok
  | ok dataLen =>
      simp only [hlen, ok_bind] at hok ⊢
      cases hloop : readLoop h.useSsl dataLen.toNat fuel c.feed (malloc dataLen.toNat) 0 with
      | none => simp [hloop] at hok
      | some e =>
          simp only [hloop] at hok
          simpa only [readLoop_mono hloop hle] using hok

theorem selectFull_mono {c : Conn σ} {s : Selected σ} {fuel fuel' : Nat}
    (hok : selectFull cbs decode fuel c = .ok s) (hle : fuel ≤ fuel') :
    selectFull cbs decode fuel' c = .ok s := by
  rw [selectFull] at hok ⊢
  cases hloop : readLoop c.world.handle.useSsl 6 fuel c.feed c.world.handle.header 0 with
  | none => simp [hloop] at hok
  | some e =>
      obtain ⟨done, header, feed⟩ := e
      simp only [hloop] at hok
      simp only [readLoop_mono hloop hle]
      cases done with
      | false => exact hok
      | true => exact selectPayload_mono cbs decode hok hle

/-- The loss of a connection is reported: the call fails, the handle is
closed, the client is told once, and nothing was decoded. -/
structure Reported (w : World (List Callback)) (s : Selected (List Callback)) : Prop where
  ret : s.ret = .error
  outcome : s.outcome = .disconnected
  socket : s.conn.world.handle.socket = -1
  connected : s.conn.world.handle.connected = false
  data : s.conn.world.handle.data = none
  client : s.conn.world.client = w.client ++ [.error .errorDisconnected none]

omit [Host] in
/-- `Conn.disconnect` is such a report. -/
theorem disconnect_reported (c : Conn (List Callback)) (h : Imcomm) :
    Reported c.world (c.disconnect recorder h) :=
  ⟨rfl, rfl, rfl, rfl, rfl, rfl⟩

/-- The bytes of the header, or else of the payload, among the first `n`
bytes of a frame. -/
def arrived (n : Nat) : Nat := if n < 6 then n else n - 6

/-- A call that loses the connection inside a header. -/
theorem selectFull_header_lost (decode : Decoder (List Callback)) {c : Conn (List Callback)}
    (hshort : c.feed.bytes.length < 6) (failure : Failure) :
    (failure.Seen c.world.handle.useSsl c.feed.bytes.length →
        ∀ rest, c.feed.tail = failure.feed rest →
          ∃ fuel s, selectFull recorder decode fuel c = .ok s ∧ Reported c.world s) ∧
      (¬ failure.Seen c.world.handle.useSsl c.feed.bytes.length →
        c.feed.tail = failure.feed .eof →
          ∀ fuel, selectFull recorder decode fuel c = .error .hang) := by
  constructor
  · intro hseen rest htail
    obtain ⟨fuel, buf, feed, hloop⟩ :=
      readLoop_part_seen htail hshort hseen c.world.handle.header
    refine ⟨fuel, _, ?_, disconnect_reported { c with feed := feed }
      { c.world.handle with header := buf }⟩
    rw [selectFull]
    simp only [hloop]
    rfl
  · intro hmissed htail fuel
    rw [selectFull]
    simp only [readLoop_part_missed htail hshort hmissed]

/-- A call that loses the connection inside a payload. -/
theorem selectPayload_lost (decode : Decoder (List Callback)) {c : Conn (List Callback)} {f : Flap}
    {h : Imcomm} (hheader : h.header = f.header)
    (hshort : c.feed.bytes.length < f.payload.val.length) (failure : Failure) :
    (failure.Seen h.useSsl c.feed.bytes.length → ∀ rest, c.feed.tail = failure.feed rest →
        ∃ fuel s, selectPayload recorder decode fuel c h = .ok s ∧ Reported c.world s) ∧
      (¬ failure.Seen h.useSsl c.feed.bytes.length → c.feed.tail = failure.feed .eof →
        ∀ fuel, selectPayload recorder decode fuel c h = .error .hang) := by
  have hlen : (uint16 f.payload.val.length).toNat = f.payload.val.length :=
    toNat_uint16_of_lt f.payload.property
  constructor
  · intro hseen rest htail
    obtain ⟨fuel, buf, feed, hloop⟩ :=
      readLoop_part_seen htail hshort hseen (malloc f.payload.val.length)
    refine ⟨fuel, _, ?_, disconnect_reported { c with feed := feed }
      { h with dataLen := uint16 f.payload.val.length }⟩
    rw [selectPayload, hheader, twoTo16_header, ok_bind]
    simp only [hlen, hloop]
    rfl
  · intro hmissed htail fuel
    rw [selectPayload, hheader, twoTo16_header, ok_bind]
    simp only [hlen, readLoop_part_missed htail hshort hmissed]

/-- **Loss of connection.**  Part of a frame arrives, in any pieces, and then
the connection is lost.  Whatever the reads behind the failure would give,
the call reports the loss, if and only if the failure is one that the loop
sees after as many bytes of the header or of the payload as there were. -/
theorem loss_detected (decode : Decoder (List Callback)) (w : World (List Callback))
    (clock : Nat → Int) (hsocket : w.handle.socket ≠ -1) (hlen : w.handle.header.length = 6)
    (f : Flap) (pieces : List (UInt8 × List UInt8)) (hpart : pieceBytes pieces <+: f.bytes)
    (hshort : (pieceBytes pieces).length < f.bytes.length) (failure : Failure) :
    (∀ rest, ∃ fuel s, imcommSelect recorder decode true fuel
          ⟨w, Feed.cut pieces (failure.feed rest), clock⟩ = .ok s ∧ Reported w s) ↔
      failure.Seen w.handle.useSsl (arrived (pieceBytes pieces).length) := by
  have hfull : ∀ rest fuel, imcommSelect recorder decode true fuel
      ⟨w, Feed.cut pieces (failure.feed rest), clock⟩ =
      selectFull recorder decode fuel ⟨w, Feed.cut pieces (failure.feed rest), clock⟩ := by
    intro rest fuel
    rw [imcommSelect, if_neg hsocket, if_pos rfl]
  have hbytes : ∀ rest, (Feed.cut pieces (failure.feed rest)).bytes = pieceBytes pieces := by simp
  have htail : ∀ rest, (Feed.cut pieces (failure.feed rest)).tail = failure.feed rest := by simp
  simp only [hfull]
  by_cases hheader : (pieceBytes pieces).length < 6
  · have hlost : ∀ rest, _ := fun rest => selectFull_header_lost decode
      (c := ⟨w, Feed.cut pieces (failure.feed rest), clock⟩) (by rwa [hbytes]) failure
    simp only [hbytes, htail] at hlost
    rw [arrived, if_pos hheader]
    constructor
    · intro h
      by_contra hmissed
      obtain ⟨fuel, s, hselect, -⟩ := h .eof
      rw [(hlost .eof).2 hmissed rfl fuel] at hselect
      cases hselect
    · exact fun hseen rest => (hlost rest).1 hseen rest rfl
  · rw [not_lt] at hheader
    obtain ⟨part, hsplit⟩ : f.header <+: pieceBytes pieces :=
      List.prefix_of_prefix_length_le (List.prefix_append f.header f.payload.val) hpart hheader
    have hpartlen : (pieceBytes pieces).length = 6 + part.length := by
      rw [← hsplit, List.length_append, f.length_header]
    rw [Flap.length_bytes] at hshort
    have hready : ∀ rest, Conn.Ready ⟨w, Feed.cut pieces (failure.feed rest), clock⟩
        w.handle.useSsl (f.header ++ part) (failure.feed rest) :=
      fun rest => ⟨hsocket, rfl, hlen, (hbytes rest).trans hsplit.symm, htail rest⟩
    rw [arrived, if_neg (by omega), hpartlen, Nat.add_sub_cancel_left]
    constructor
    · intro h
      by_contra hmissed
      obtain ⟨fuel, s, hselect, -⟩ := h .eof
      obtain ⟨feed, hfeed, hend, hnext⟩ := selectFull_header recorder decode (hready .eof)
      have hlost := (selectPayload_lost decode
        (c := ⟨w, feed, clock⟩) (h := { w.handle with header := f.header }) rfl
        (show feed.bytes.length < _ by rw [hfeed]; omega) failure).2
      have hmax := selectFull_mono recorder decode hselect (Nat.le_max_left fuel 6)
      rw [hnext (Nat.le_max_right fuel 6), hlost (by rwa [hfeed]) hend] at hmax
      cases hmax
    · intro hseen rest
      obtain ⟨feed, hfeed, hend, hnext⟩ := selectFull_header recorder decode (hready rest)
      have hlost := (selectPayload_lost decode
        (c := ⟨w, feed, clock⟩) (h := { w.handle with header := f.header }) rfl
        (show feed.bytes.length < _ by rw [hfeed]; omega) failure).1
      obtain ⟨fuel, s, hselect, hreport⟩ := hlost (by rwa [hfeed]) rest hend
      refine ⟨max fuel 6, s, ?_, hreport⟩
      rw [hnext (Nat.le_max_right fuel 6)]
      exact selectPayload_mono recorder decode hselect (Nat.le_max_left fuel 6)

end

/-- A plain socket that fails with -1 after the first byte of a header. -/
theorem loss_detected_plain_first_byte :
    (∀ rest, ∃ fuel s, @imcommSelect littleEndianHost _ recorder recordingDecode true fuel
          ⟨(recording false .quiet).world,
            Feed.cut [(0x2A, [])] ((Failure.error (-1) (by decide)).feed rest),
            fun _ => 0⟩ = .ok s ∧
        Reported (recording false .quiet).world s) ↔
      (Failure.error (-1) (by decide)).Seen false (arrived 1) :=
  @loss_detected littleEndianHost recordingDecode (recording false .quiet).world (fun _ => 0)
    (by decide) rfl (keepaliveFrame 1 ⟨[], by decide⟩) [(0x2A, [])] (by decide) (by decide)
    (.error (-1) (by decide))

/-- Over TLS, the end of the stream in front of a frame is never reported:
the call does not return. -/
theorem loss_undetected_tls_eof :
    ¬ ∃ fuel s, @imcommSelect littleEndianHost _ recorder recordingDecode true fuel
        (recording true .eof) = .ok s ∧ Reported (recording true .eof).world s := by
  rintro ⟨fuel, s, hselect, -⟩
  have hhang := (@selectFull_header_lost littleEndianHost recordingDecode (recording true .eof)
    (by decide) .eof).2 (fun h => Bool.false_ne_true h.1.symm) rfl fuel
  have hfull : @imcommSelect littleEndianHost _ recorder recordingDecode true fuel
      (recording true .eof) = @selectFull littleEndianHost _ recorder recordingDecode fuel
        (recording true .eof) := rfl
  rw [hfull, hhang] at hselect
  cases hselect

end Bsflite
