import Bsflite.Receive

/-!
# Bsflite.Framing

What one call on a receive path makes of a stream of FLAP frames; `Bsflite.Stream`
is about whole streams.

* `readLoop_full` — a read loop collects exactly the bytes it wants.
* `select_frame`, `select_empty` — one call on the whole-packet path; a plain
  socket takes an empty payload for a disconnect.
* `header_step` … `payload_last` — one byte on the byte-at-a-time path.
-/

namespace Bsflite

/-! ## read loops -/

/-- A loop that finds the bytes it wants puts them behind those already in
the buffer, however they are cut, on either test of the result. -/
theorem readLoop_full (ssl : Bool) (fuel : Nat) (feed : Feed) {want k : Nat} {buf : List UInt8}
    (need rest : List UInt8) (hne : need ≠ []) (hwant : k + need.length = want)
    (hbuf : buf.length = want) (hbytes : feed.bytes = need ++ rest) (hfuel : need.length ≤ fuel) :
    ∃ feed', readLoop ssl want fuel feed buf k = some ⟨true, buf.take k ++ need, feed'⟩ ∧
      feed'.bytes = rest ∧ feed'.tail = feed.tail := by
  have hpos : 0 < need.length := List.length_pos_iff.mpr hne
  induction fuel generalizing feed buf k need with
  | zero => omega
  | succ fuel ih =>
      obtain ⟨got, feed', hread, hgot, hle, hcut, htail⟩ := Feed.read_of_bytes
        (show 0 < want - k by omega) (by rw [hbytes]; simp [hne])
      have hlen : got.length ≤ need.length := by omega
      have hneed : need = got ++ need.drop got.length := by
        have htake := congrArg (List.take got.length) (hcut.symm.trans hbytes)
        rw [List.take_left', List.take_append_of_le_length hlen] at htake
        · conv_lhs => rw [← List.take_append_drop got.length need, ← htake]
        · rfl
      have hrest : feed'.bytes = need.drop got.length ++ rest := by
        have hdrop := hcut.symm.trans hbytes
        rw [hneed, List.append_assoc, List.append_cancel_left_eq] at hdrop
        simpa using hdrop
      have htest : readFailed ssl k got.length = false := by
        cases ssl <;> simp [readFailed]
        omega
      have hk : ((k : Int) + (got.length : Int)).toNat = k + got.length := by omega
      have hpoke : (poke buf k got).length = want := by
        rw [length_poke (by omega), hbuf]
      have hfront : (poke buf k got).take (k + got.length) = buf.take k ++ got :=
        take_poke (by omega)
      rw [readLoop, hread]
      simp only [htest, Bool.false_eq_true, if_false, hk]
      by_cases hmore : k + got.length < want
      · have hlen' : (need.drop got.length).length = need.length - got.length := List.length_drop
        obtain ⟨feed'', hloop, hbytes'', htail''⟩ := ih feed' (need.drop got.length)
          (List.ne_nil_of_length_pos (by omega))
          (show k + got.length + (need.drop got.length).length = want by omega) hpoke hrest
          (by omega) (by omega)
        refine ⟨feed'', ?_, hbytes'', htail''.trans htail⟩
        rw [if_pos hmore, hloop, hfront, List.append_assoc, ← hneed]
      · have hall : need.drop got.length = [] := List.drop_of_length_le (by omega)
        rw [hall, List.append_nil] at hneed
        rw [hall, List.nil_append] at hrest
        refine ⟨feed', ?_, hrest, htail⟩
        rw [if_neg hmore, hneed, ← hfront, List.take_of_length_le (by omega)]

/-- More fuel does not change a result. -/
theorem readLoop_mono {ssl : Bool} {want fuel fuel' : Nat} {feed : Feed} {buf : List UInt8}
    {k : Nat} {e : LoopEnd} (h : readLoop ssl want fuel feed buf k = some e) (hle : fuel ≤ fuel') :
    readLoop ssl want fuel' feed buf k = some e := by
  induction fuel generalizing fuel' feed buf k with
  | zero => cases h
  | succ fuel ih =>
      obtain ⟨fuel', rfl⟩ : ∃ n, fuel' = n + 1 := ⟨fuel' - 1, by omega⟩
      rw [readLoop] at h ⊢
      cases hread : feed.read (want - k) with
      | none => simp [hread] at h
      | some r =>
          obtain ⟨r, got, rest⟩ := r
          simp only [hread] at h ⊢
          by_cases hfail : readFailed ssl k r = true
          · rwa [if_pos hfail] at h ⊢
          · rw [if_neg hfail] at h ⊢
            by_cases hmore : ((k : Int) + r).toNat < want
            · rw [if_pos hmore] at h ⊢
              exact ih h (Nat.le_of_succ_le_succ hle)
            · rwa [if_neg hmore] at h ⊢

/-- A loop that wants nothing: over TLS it ends at once, on a plain socket
it takes the empty read for a failure. -/
theorem readLoop_zero (ssl : Bool) (fuel : Nat) (feed : Feed) (buf : List UInt8) :
    readLoop ssl 0 (fuel + 1) feed buf 0 = some ⟨ssl, buf, feed⟩ := by
  cases ssl <;> simp [readLoop, Feed.read, readFailed]

/-- A loop on a quiet connection blocks. -/
theorem readLoop_quiet (ssl : Bool) {want k : Nat} (fuel : Nat) (buf : List UInt8) (h : k < want) :
    readLoop ssl want fuel .quiet buf k = none := by
  cases fuel with
  | zero => rfl
  | succ fuel =>
      rw [readLoop, Feed.read, if_neg (by omega)]

/-! ## one call on the whole-packet path -/

section
variable [Host] {σ : Type} (cbs : Callbacks σ) (decode : Decoder σ)

/-- A send that does not update the idle time changes the transport and the
sequence number only. -/
theorem flapSend_fields (h : Imcomm) (channel : UInt8) (packet : List UInt8) :
    ∃ link seqnum, (flapSend h channel packet 0).1 = { h with link := link, seqnum := seqnum } := by
  rw [flapSend]
  simp only
  split
  · exact ⟨_, _, rfl⟩
  · rw [if_neg (by decide)]
    exact ⟨_, _, rfl⟩

/-- A keepalive leaves the receive state of the handle alone. -/
theorem keepalive_handle (c : Conn σ) :
    ∃ link seqnum time, c.keepalive.world.handle =
      { c.world.handle with link := link, seqnum := seqnum, lastKeepaliveTime := time } := by
  rw [Conn.keepalive]
  simp only
  split
  · split
    · exact ⟨_, _, _, rfl⟩
    · obtain ⟨link, seqnum, hsend⟩ := flapSend_fields
        { c.world.handle with lastKeepaliveTime := c.clock 1 } 0x05 []
      exact ⟨link, seqnum, c.clock 1, hsend⟩
  · exact ⟨_, _, _, rfl⟩

/-- Nothing is read for it. -/
theorem keepalive_feed (c : Conn σ) : c.keepalive.feed = c.feed := by
  rw [Conn.keepalive]
  split <;> rfl

/-- On these frames `flap_decode` returns, and neither closes the handle nor
touches what the receive paths keep in it. -/
def Decoder.KeepsOpen (decode : Decoder σ) (fs : List Flap) : Prop :=
  ∀ f ∈ fs, ∀ w, ∃ w' ret, decode w f.header f.payload.val = .ok (w', ret) ∧
    w'.handle.socket = w.handle.socket ∧ w'.handle.useSsl = w.handle.useSsl ∧
    w'.handle.header = w.handle.header

/-- A connected handle whose transport has `bytes` and then `tail`. -/
structure Conn.Ready (c : Conn σ) (ssl : Bool) (bytes : List UInt8) (tail : Feed) : Prop where
  socket_ne : c.world.handle.socket ≠ -1
  use_ssl : c.world.handle.useSsl = ssl
  header_length : c.world.handle.header.length = 6
  feed_bytes : c.feed.bytes = bytes
  feed_tail : c.feed.tail = tail

theorem Conn.Ready.keepalive {c : Conn σ} {ssl : Bool} {bytes : List UInt8} {tail : Feed}
    (hc : c.Ready ssl bytes tail) : c.keepalive.Ready ssl bytes tail := by
  obtain ⟨_, _, _, hkeep⟩ := keepalive_handle c
  constructor
  · rw [hkeep]
    exact hc.socket_ne
  · rw [hkeep]
    exact hc.use_ssl
  · rw [hkeep]
    exact hc.header_length
  · rw [keepalive_feed]
    exact hc.feed_bytes
  · rw [keepalive_feed]
    exact hc.feed_tail

/-- The length field of a header is the length of the payload. -/
theorem twoTo16_header (f : Flap) :
    twoTo16 (f.header.drop 4) = .ok (uint16 f.payload.val.length) := by
  rw [Flap.drop_header]
  simpa using twoTo16_be16_append (uint16 f.payload.val.length) []

/-- A call that finds the header of a frame goes on with its payload. -/
theorem selectFull_header {c : Conn σ} {ssl : Bool} {f : Flap} {rest : List UInt8} {tail : Feed}
    (hc : c.Ready ssl (f.header ++ rest) tail) :
    ∃ feed : Feed, feed.bytes = rest ∧ feed.tail = tail ∧ ∀ {fuel : Nat}, 6 ≤ fuel →
      selectFull cbs decode fuel c = selectPayload cbs decode fuel { c with feed := feed }
        { c.world.handle with header := f.header } := by
  have hheader := f.length_header
  obtain ⟨feed, hloop, hbytes, htail⟩ := readLoop_full c.world.handle.useSsl 6 c.feed
    f.header rest (List.ne_nil_of_length_pos (by omega))
    (show 0 + f.header.length = 6 by omega) hc.header_length hc.feed_bytes (by omega)
  refine ⟨feed, hbytes, htail.trans hc.feed_tail, fun hfuel => ?_⟩
  rw [List.take_zero, List.nil_append] at hloop
  rw [selectFull]
  simp only [readLoop_mono hloop hfuel, if_true]

/-- The call then reads the payload and decodes the frame. -/
theorem selectPayload_frame {c : Conn σ} {f : Flap} {rest : List UInt8}
    (hbytes : c.feed.bytes = f.payload.val ++ rest) {h : Imcomm} (hheader : h.header = f.header)
    (hok : h.useSsl = true ∨ f.payload.val ≠ []) {fuel : Nat} (hfuel : 65535 ≤ fuel) :
    ∃ feed : Feed, feed.bytes = rest ∧ feed.tail = c.feed.tail ∧
      selectPayload cbs decode fuel c h = (({ c with feed := feed } : Conn σ).decodeFrame decode
          { h with dataLen := uint16 f.payload.val.length } f.header f.payload.val >>=
        fun s => .ok { s with conn := s.conn.keepalive }) := by
  have hlen : (uint16 f.payload.val.length).toNat = f.payload.val.length :=
    toNat_uint16_of_lt f.payload.property
  have hmax := f.payload.property
  have hloop : ∃ feed : Feed, feed.bytes = rest ∧ feed.tail = c.feed.tail ∧
      readLoop h.useSsl f.payload.val.length fuel c.feed (malloc f.payload.val.length) 0 =
        some ⟨true, f.payload.val, feed⟩ := by
    by_cases hne : f.payload.val = []
    · have hssl := hok.resolve_right (not_not.mpr hne)
      obtain ⟨fuel, rfl⟩ : ∃ k, fuel = k + 1 := ⟨fuel - 1, by omega⟩
      rw [hne] at hbytes ⊢
      exact ⟨c.feed, hbytes, rfl, by rw [hssl]; exact readLoop_zero true fuel c.feed []⟩
    · obtain ⟨feed, hloop, hrest, htail⟩ := readLoop_full h.useSsl fuel c.feed
        f.payload.val rest hne (Nat.zero_add _) (length_malloc _) hbytes (by omega)
      exact ⟨feed, hrest, htail, by rw [hloop]; rfl⟩
  obtain ⟨feed, hrest, htail, hloop⟩ := hloop
  refine ⟨feed, hrest, htail, ?_⟩
  rw [selectPayload, hheader, twoTo16_header, ok_bind]
  simp only [hlen, hloop]
  rfl

/-- A plain socket takes an empty payload for a disconnect. -/
theorem selectPayload_empty {c : Conn σ} {f : Flap} {h : Imcomm} (hheader : h.header = f.header)
    (hplain : h.useSsl = false) (hempty : f.payload.val = []) {fuel : Nat} (hfuel : 65535 ≤ fuel) :
    ∃ s, selectPayload cbs decode fuel c h = .ok s ∧ s.outcome = .disconnected := by
  obtain ⟨fuel, rfl⟩ : ∃ k, fuel = k + 1 := ⟨fuel - 1, by omega⟩
  rw [selectPayload, hheader, twoTo16_header, ok_bind, hempty]
  simp only [hplain]
  have hloop := readLoop_zero false fuel c.feed (malloc (uint16 ([] : List UInt8).length).toNat)
  have hzero : (uint16 (([] : List UInt8).length : Int)).toNat = 0 := rfl
  rw [hzero] at hloop ⊢
  rw [hloop]
  exact ⟨_, rfl, rfl⟩

omit [Host] in
/-- After a frame is decoded the handle is ready for the next. -/
theorem decodeFrame_ready {c : Conn σ} {ssl : Bool} {bytes rest : List UInt8} {tail : Feed}
    (hc : c.Ready ssl bytes tail) {fs : List Flap} (hkeep : decode.KeepsOpen fs) {f : Flap}
    (hf : f ∈ fs) {feed : Feed} (hbytes : feed.bytes = rest) (htail : feed.tail = tail)
    {h : Imcomm} (hsocket : h.socket = c.world.handle.socket)
    (hssl : h.useSsl = c.world.handle.useSsl) (hheader : h.header.length = 6) :
    ∃ s, ({ c with feed := feed } : Conn σ).decodeFrame decode h f.header f.payload.val = .ok s ∧
      s.outcome = .decoded f.header f.payload.val ∧ s.conn.Ready ssl rest tail := by
  obtain ⟨w', ret, hdecode, hsocket', hssl', hheader'⟩ := hkeep f hf
    { c.world with handle := { h with data := some f.payload.val } }
  have hframe : ({ c with feed := feed } : Conn σ).decodeFrame decode h f.header f.payload.val =
      .ok ⟨{ c with feed := feed, world := { w' with handle := { w'.handle with data := none } } },
        ret, .decoded f.header f.payload.val⟩ := by
    rw [Conn.decodeFrame, hdecode]
    rfl
  refine ⟨_, hframe, rfl, ?_⟩
  constructor
  · exact fun h => hc.socket_ne (hsocket.symm.trans (hsocket'.symm.trans h))
  · exact hssl'.trans (hssl.trans hc.use_ssl)
  · exact (congrArg List.length hheader').trans hheader
  · exact hbytes
  · exact htail

/-- **One call on a whole-packet path** decodes the frame in front of it and
is ready behind it, when the frame has a payload or the path is TLS. -/
theorem select_frame {c : Conn σ} {ssl : Bool} {f : Flap} {rest : List UInt8} {tail : Feed}
    (hc : c.Ready ssl (f.bytes ++ rest) tail) (hok : ssl = true ∨ f.payload.val ≠ [])
    {fs : List Flap} (hkeep : decode.KeepsOpen fs) (hf : f ∈ fs) {fuel : Nat}
    (hfuel : 65535 ≤ fuel) :
    ∃ s, imcommSelect cbs decode true fuel c = .ok s ∧
      s.outcome = .decoded f.header f.payload.val ∧ s.conn.Ready ssl rest tail := by
  rw [Flap.bytes, List.append_assoc] at hc
  obtain ⟨feed, hbytes, htail, hheader⟩ := selectFull_header cbs decode hc
  have hok' : c.world.handle.useSsl = true ∨ f.payload.val ≠ [] := by rwa [hc.use_ssl]
  obtain ⟨feed', hbytes', htail', hpayload⟩ := selectPayload_frame cbs decode
    (c := { c with feed := feed }) (h := { c.world.handle with header := f.header })
    hbytes rfl hok' hfuel
  have hfull : imcommSelect cbs decode true fuel c = selectFull cbs decode fuel c := by
    rw [imcommSelect, if_neg hc.socket_ne, if_pos rfl]
  obtain ⟨s, hframe, hout, hready⟩ := decodeFrame_ready decode hc hkeep hf hbytes'
    (htail'.trans htail)
    (h := { c.world.handle with
      header := f.header, dataLen := uint16 f.payload.val.length }) rfl rfl f.length_header
  refine ⟨{ s with conn := s.conn.keepalive }, ?_, hout, hready.keepalive⟩
  rw [hfull, hheader (by omega), hpayload, hframe]
  rfl

/-- One call on the whole-packet path of a plain socket reports a disconnect
when the frame in front of it has no payload. -/
theorem select_empty {c : Conn σ} {f : Flap} {rest : List UInt8} {tail : Feed}
    (hc : c.Ready false (f.bytes ++ rest) tail) (hempty : f.payload.val = []) {fuel : Nat}
    (hfuel : 65535 ≤ fuel) :
    ∃ s, imcommSelect cbs decode true fuel c = .ok s ∧ s.outcome = .disconnected := by
  rw [Flap.bytes, List.append_assoc] at hc
  obtain ⟨feed, -, -, hheader⟩ := selectFull_header cbs decode hc
  obtain ⟨s, hpayload, hout⟩ := selectPayload_empty cbs decode (c := { c with feed := feed })
    (h := { c.world.handle with header := f.header }) rfl hc.use_ssl hempty hfuel
  have hfull : imcommSelect cbs decode true fuel c = selectFull cbs decode fuel c := by
    rw [imcommSelect, if_neg hc.socket_ne, if_pos rfl]
  exact ⟨s, hfull.trans ((hheader (by omega)).trans hpayload), hout⟩

/-! ## one byte -/

/-- A handle on the byte-at-a-time path, with the bytes `got` of a header
read. -/
structure Conn.InHeader (c : Conn σ) (got bytes : List UInt8) (tail : Feed) : Prop where
  socket_ne : c.world.handle.socket ≠ -1
  header_pos : c.world.handle.headerPos.toNat = got.length
  header_length : c.world.handle.header.length = 6
  header_take : c.world.handle.header.take got.length = got
  feed_bytes : c.feed.bytes = bytes
  feed_tail : c.feed.tail = tail

/-- A handle on the byte-at-a-time path, with a header for `len` bytes of
payload and the bytes `got` of the payload read. -/
structure Conn.InPayload (c : Conn σ) (header : List UInt8) (len : Nat) (got bytes : List UInt8)
    (tail : Feed) : Prop where
  socket_ne : c.world.handle.socket ≠ -1
  header_pos : c.world.handle.headerPos = 6
  header_eq : c.world.handle.header = header
  header_length : header.length = 6
  data_len : c.world.handle.dataLen.toNat = len
  data_eq : ∃ buf, c.world.handle.data = some buf ∧ buf.length = len ∧ buf.take got.length = got
  data_pos : c.world.handle.dataPos.toNat = got.length
  feed_bytes : c.feed.bytes = bytes
  feed_tail : c.feed.tail = tail

theorem Conn.InHeader.keepalive {c : Conn σ} {got bytes : List UInt8} {tail : Feed}
    (hc : c.InHeader got bytes tail) : c.keepalive.InHeader got bytes tail := by
  obtain ⟨_, _, _, hkeep⟩ := keepalive_handle c
  constructor
  · rw [hkeep]
    exact hc.socket_ne
  · rw [hkeep]
    exact hc.header_pos
  · rw [hkeep]
    exact hc.header_length
  · rw [hkeep]
    exact hc.header_take
  · rw [keepalive_feed]
    exact hc.feed_bytes
  · rw [keepalive_feed]
    exact hc.feed_tail

theorem Conn.InPayload.keepalive {c : Conn σ} {header : List UInt8} {len : Nat}
    {got bytes : List UInt8} {tail : Feed} (hc : c.InPayload header len got bytes tail) :
    c.keepalive.InPayload header len got bytes tail := by
  obtain ⟨_, _, _, hkeep⟩ := keepalive_handle c
  constructor
  · rw [hkeep]
    exact hc.socket_ne
  · rw [hkeep]
    exact hc.header_pos
  · rw [hkeep]
    exact hc.header_eq
  · exact hc.header_length
  · rw [hkeep]
    exact hc.data_len
  · rw [hkeep]
    exact hc.data_eq
  · rw [hkeep]
    exact hc.data_pos
  · rw [keepalive_feed]
    exact hc.feed_bytes
  · rw [keepalive_feed]
    exact hc.feed_tail

omit [Host] in
/-- A read of one byte. -/
theorem read_one {feed : Feed} {b : UInt8} {bytes : List UInt8} (h : feed.bytes = b :: bytes) :
    ∃ rest, feed.read 1 = some (1, [b], rest) ∧ rest.bytes = bytes ∧ rest.tail = feed.tail := by
  obtain ⟨got, rest, hread, hpos, hle, hcut, htail⟩ := Feed.read_of_bytes Nat.one_pos
    (show feed.bytes ≠ [] by rw [h]; exact List.cons_ne_nil b bytes)
  have hlen : got.length = 1 := by omega
  obtain ⟨x, rfl⟩ := List.length_eq_one_iff.mp hlen
  rw [h, List.singleton_append, List.cons.injEq] at hcut
  obtain ⟨rfl, rfl⟩ := hcut
  exact ⟨rest, hread, rfl, htail⟩

omit [Host] in
/-- One more byte is counted. -/
theorem toNat_succ8 {x : UInt8} {n : Nat} (hx : x.toNat = n) (hn : n + 1 < 256) :
    (x + 1).toNat = n + 1 := by
  have hone : (1 : UInt8).toNat = 1 := rfl
  rw [UInt8.toNat_add]
  omega

omit [Host] in
theorem toNat_succ16 {x : UInt16} {n : Nat} (hx : x.toNat = n) (hn : n + 1 < 65536) :
    (x + 1).toNat = n + 1 := by
  have hone : (1 : UInt16).toNat = 1 := rfl
  rw [UInt16.toNat_add]
  omega

omit [Host] in
/-- The last byte fills a buffer. -/
theorem poke_last {buf got : List UInt8} {b : UInt8} (hbuf : buf.length = got.length + 1)
    (hgot : buf.take got.length = got) : poke buf got.length [b] = got ++ [b] := by
  rw [poke, hgot, List.drop_of_length_le (by simp; omega), List.append_nil]

/-- The handle after a byte of the header is stored. -/
def storeHeader (h : Imcomm) (pos : Nat) (b : UInt8) : Imcomm :=
  { h with header := poke h.header pos [b], headerPos := h.headerPos + 1 }

/-- One call while the header is read. -/
theorem imcommSelect_header {c : Conn σ} (hsocket : c.world.handle.socket ≠ -1)
    (hlt6 : c.world.handle.headerPos < 6) {b : UInt8} {feed : Feed}
    (hread : c.feed.read 1 = some (1, [b], feed)) {h : Imcomm}
    (hbyte : headerByte c.world.handle [b] = .ok h) (fuel : Nat) :
    imcommSelect cbs decode false fuel c =
      .ok ⟨(Conn.store { c with feed := feed } h).keepalive, .ok, .waiting⟩ := by
  rw [imcommSelect, if_neg hsocket, if_neg (by decide), selectByte]
  simp only [hread]
  rw [if_pos hlt6, if_neg (by decide), hbyte]
  rfl

/-- A byte of the header that is not its last. -/
theorem header_step {c : Conn σ} {got bytes : List UInt8} {tail : Feed} {b : UInt8}
    (hc : c.InHeader got (b :: bytes) tail) (hlt : got.length + 1 < 6) (fuel : Nat) :
    ∃ s, imcommSelect cbs decode false fuel c = .ok s ∧ s.outcome = .waiting ∧
      s.conn.InHeader (got ++ [b]) bytes tail := by
  obtain ⟨feed, hread, hbytes, htail⟩ := read_one hc.feed_bytes
  have hpos := hc.header_pos
  have hlength := hc.header_length
  have hlt6 : c.world.handle.headerPos < 6 := by
    rw [UInt8.lt_iff_toNat_lt, hpos]
    exact Nat.lt_of_succ_lt hlt
  have hnext := toNat_succ8 hpos (by omega)
  have hne6 : c.world.handle.headerPos + 1 ≠ 6 := by
    intro h
    have hsix : (6 : UInt8).toNat = 6 := rfl
    rw [h] at hnext
    omega
  have hbyte : headerByte c.world.handle [b] = .ok (storeHeader c.world.handle got.length b) := by
    rw [headerByte, hpos]
    exact if_neg hne6
  refine ⟨_, imcommSelect_header cbs decode hc.socket_ne hlt6 hread hbyte fuel, rfl, ?_⟩
  apply Conn.InHeader.keepalive
  constructor
  · exact hc.socket_ne
  · rw [List.length_append]
    exact hnext
  · exact (length_poke (by simp; omega)).trans hlength
  · rw [List.length_append]
    exact (take_poke (by omega)).trans (by rw [hc.header_take])
  · exact hbytes
  · exact htail.trans hc.feed_tail

/-- The last byte of the header of a frame. -/
theorem header_last {c : Conn σ} {f : Flap} {got bytes : List UInt8} {tail : Feed} {b : UInt8}
    (hc : c.InHeader got (b :: bytes) tail) (hheader : got ++ [b] = f.header) (fuel : Nat) :
    ∃ s, imcommSelect cbs decode false fuel c = .ok s ∧ s.outcome = .waiting ∧
      s.conn.InPayload f.header f.payload.val.length [] bytes tail := by
  obtain ⟨feed, hread, hbytes, htail⟩ := read_one hc.feed_bytes
  have hpos := hc.header_pos
  have hlength := hc.header_length
  have hfive : got.length + 1 = 6 := by
    rw [← f.length_header, ← hheader, List.length_append]
    rfl
  have hlt6 : c.world.handle.headerPos < 6 := by
    rw [UInt8.lt_iff_toNat_lt, hpos]
    exact Nat.lt_of_succ_le (Nat.le_of_eq hfive)
  have hsix : c.world.handle.headerPos + 1 = 6 := by
    apply UInt8.toNat_inj.mp
    rw [toNat_succ8 hpos (by omega), hfive]
    rfl
  have hpoke : poke c.world.handle.header got.length [b] = f.header := by
    rw [poke_last (by omega) hc.header_take, hheader]
  have hlen : (uint16 f.payload.val.length).toNat = f.payload.val.length :=
    toNat_uint16_of_lt f.payload.property
  have hbyte : headerByte c.world.handle [b] = .ok
      { storeHeader c.world.handle got.length b with
        dataLen := uint16 f.payload.val.length
        data := some (malloc f.payload.val.length)
        dataPos := 0 } := by
    have htwo := twoTo16_header f
    rw [← hpoke] at htwo
    rw [headerByte, hpos]
    simp only [hsix, if_true, htwo, ok_bind, hlen, storeHeader]
    rfl
  refine ⟨_, imcommSelect_header cbs decode hc.socket_ne hlt6 hread hbyte fuel, rfl, ?_⟩
  apply Conn.InPayload.keepalive
  constructor
  · exact hc.socket_ne
  · exact hsix
  · exact hpoke
  · exact f.length_header
  · exact hlen
  · exact ⟨malloc f.payload.val.length, rfl, length_malloc _, rfl⟩
  · rfl
  · exact hbytes
  · exact htail.trans hc.feed_tail

/-- The handle after a byte of the payload is stored. -/
def storePayload (h : Imcomm) (buf : List UInt8) (pos : Nat) (b : UInt8) : Imcomm :=
  { h with data := some (poke buf pos [b]), dataPos := h.dataPos + 1 }

/-- A byte of the payload that is not its last. -/
theorem payload_step {c : Conn σ} {header got bytes : List UInt8} {len : Nat} {tail : Feed}
    {b : UInt8} (hc : c.InPayload header len got (b :: bytes) tail) (hlt : got.length + 1 < len)
    (fuel : Nat) :
    ∃ s, imcommSelect cbs decode false fuel c = .ok s ∧ s.outcome = .waiting ∧
      s.conn.InPayload header len (got ++ [b]) bytes tail := by
  obtain ⟨feed, hread, hbytes, htail⟩ := read_one hc.feed_bytes
  obtain ⟨buf, hdata, hbuf, hgot⟩ := hc.data_eq
  have hpos := hc.data_pos
  have hmax := c.world.handle.dataLen.toNat_lt
  have hlen := hc.data_len
  have hnext := toNat_succ16 hpos (by omega)
  have hnlt6 : ¬ c.world.handle.headerPos < 6 := by
    rw [hc.header_pos]
    decide
  have hmore : c.world.handle.dataPos + 1 ≠ c.world.handle.dataLen := by
    intro h
    rw [h] at hnext
    omega
  have hselect : imcommSelect cbs decode false fuel c = .ok
      ⟨(Conn.store { c with feed := feed }
        (storePayload c.world.handle buf got.length b)).keepalive, .ok, .waiting⟩ := by
    rw [imcommSelect, if_neg hc.socket_ne, if_neg (by decide), selectByte]
    simp only [hread, hdata]
    rw [if_neg hnlt6, if_neg (by decide), if_neg (by omega), if_neg hmore, hpos]
    rfl
  refine ⟨_, hselect, rfl, ?_⟩
  apply Conn.InPayload.keepalive
  constructor
  · exact hc.socket_ne
  · exact hc.header_pos
  · exact hc.header_eq
  · exact hc.header_length
  · exact hlen
  · refine ⟨poke buf got.length [b], rfl, ?_, ?_⟩
    · exact (length_poke (by simp; omega)).trans hbuf
    · rw [List.length_append]
      exact (take_poke (by omega)).trans (by rw [hgot])
  · rw [List.length_append]
    exact hnext
  · exact hbytes
  · exact htail.trans hc.feed_tail

/-- The last byte of the payload: the frame is decoded. -/
theorem payload_last {c : Conn σ} {f : Flap} {got bytes : List UInt8} {tail : Feed} {b : UInt8}
    (hc : c.InPayload f.header f.payload.val.length got (b :: bytes) tail)
    (hpayload : got ++ [b] = f.payload.val) {fs : List Flap} (hkeep : decode.KeepsOpen fs)
    (hf : f ∈ fs) (fuel : Nat) :
    ∃ s, imcommSelect cbs decode false fuel c = .ok s ∧
      s.outcome = .decoded f.header f.payload.val ∧ s.conn.InHeader [] bytes tail := by
  obtain ⟨feed, hread, hbytes, htail⟩ := read_one hc.feed_bytes
  obtain ⟨buf, hdata, hbuf, hgot⟩ := hc.data_eq
  have hpos := hc.data_pos
  have hlast : got.length + 1 = f.payload.val.length := by
    rw [← hpayload, List.length_append]
    rfl
  have hmax := f.payload.property
  have hnext := toNat_succ16 hpos (by omega)
  have hnlt6 : ¬ c.world.handle.headerPos < 6 := by
    rw [hc.header_pos]
    decide
  have hdone : c.world.handle.dataPos + 1 = c.world.handle.dataLen := by
    apply UInt16.toNat_inj.mp
    rw [hnext, hlast, hc.data_len]
  have hpoke : poke buf got.length [b] = f.payload.val := by
    rw [poke_last (by omega) hgot, hpayload]
  have hready : c.Ready c.world.handle.useSsl (b :: bytes) tail :=
    ⟨hc.socket_ne, rfl, by rw [hc.header_eq, f.length_header], hc.feed_bytes, hc.feed_tail⟩
  obtain ⟨s, hframe, hout, hnext⟩ := decodeFrame_ready decode hready hkeep hf hbytes
    (htail.trans hc.feed_tail) (h := storePayload c.world.handle buf got.length b) rfl rfl
    (show c.world.handle.header.length = 6 by rw [hc.header_eq, f.length_header])
  have hselect : imcommSelect cbs decode false fuel c = .ok
      { s with conn := (s.conn.store { s.conn.world.handle with headerPos := 0 }).keepalive } := by
    rw [imcommSelect, if_neg hc.socket_ne, if_neg (by decide), selectByte]
    simp only [hread, hdata]
    rw [if_neg hnlt6, if_neg (by decide), if_neg (by omega), if_pos hdone, hpos, hc.header_eq,
      hpoke]
    rw [storePayload, hpoke, hc.header_eq] at hframe
    rw [hframe]
    rfl
  refine ⟨_, hselect, hout, ?_⟩
  apply Conn.InHeader.keepalive
  constructor
  · exact hnext.socket_ne
  · rfl
  · exact hnext.header_length
  · rfl
  · exact hnext.feed_bytes
  · exact hnext.feed_tail

end

end Bsflite
