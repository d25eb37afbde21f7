import Bsflite.Frame
import Bsflite.Flap

/-!
# Bsflite.Receive

The receive paths of `imcomm_select`.  A `Feed` is what the transport will
deliver, cut into the pieces in which it arrives; a read takes at most what
was asked for out of the first piece.  The path a handle takes is decided
by its `use_ssl` and by the build option `FULL_PACKET_AT_ONCE`:

* `selectFull` reads a whole frame in two loops, whose tests of the read
  result differ between TLS and plain sockets;
* `selectByte` reads one byte per call and keeps its place in the handle.

The loops have fuel, since some of them do not end.
-/

namespace Bsflite

/-! ## the transport -/

/-- What the transport delivers from now on. -/
inductive Feed where
  /-- a piece of at least one byte -/
  | piece (b : UInt8) (bs : List UInt8) (rest : Feed)
  /-- nothing arrives, and the connection stays open -/
  | quiet
  /-- end of stream: every read returns 0 -/
  | eof
  /-- one read fails with the result `r` -/
  | error (r : Int) (rest : Feed)
deriving DecidableEq, Repr

namespace Feed

/-- The bytes in front of the first interruption. -/
def bytes : Feed → List UInt8
  | piece b bs rest => b :: bs ++ rest.bytes
  | _ => []

/-- The first interruption, and what comes behind it. -/
def tail : Feed → Feed
  | piece _ _ rest => rest.tail
  | feed => feed

/-- The rest of a piece of which `n` bytes were taken. -/
def leave (bs : List UInt8) (rest : Feed) : Feed :=
  match bs with
  | [] => rest
  | b :: bs => piece b bs rest

/-- `SSL_read` or `recv` with room for `n` bytes: the result, the bytes, and
what is left.  A read of nothing returns 0; `none` is a read that blocks. -/
def read (feed : Feed) (n : Nat) : Option (Int × List UInt8 × Feed) :=
  if n = 0 then some (0, [], feed)
  else
    match feed with
    | piece b bs rest =>
      let got := (b :: bs).take n
      some (got.length, got, leave ((b :: bs).drop n) rest)
    | quiet => none
    | eof => some (0, [], eof)
    | error r rest => some (r, [], rest)

@[simp] theorem bytes_leave (bs : List UInt8) (rest : Feed) :
    (leave bs rest).bytes = bs ++ rest.bytes := by
  cases bs <;> simp [leave, bytes]

@[simp] theorem tail_leave (bs : List UInt8) (rest : Feed) : (leave bs rest).tail = rest.tail := by
  cases bs <;> simp [leave, tail]

/-- A read of a feed that has bytes gets some of them. -/
theorem read_of_bytes {feed : Feed} {n : Nat} (hn : 0 < n) (h : feed.bytes ≠ []) :
    ∃ got rest, feed.read n = some (got.length, got, rest) ∧ 0 < got.length ∧ got.length ≤ n ∧
      feed.bytes = got ++ rest.bytes ∧ rest.tail = feed.tail := by
  cases feed with
  | piece b bs rest =>
      refine ⟨(b :: bs).take n, leave ((b :: bs).drop n) rest, ?_, ?_, ?_, ?_, ?_⟩
      · rw [read, if_neg (by omega)]
      · simp; omega
      · simp
      · rw [bytes_leave, ← List.append_assoc, List.take_append_drop]
        rfl
      · rw [tail_leave]
        rfl
  | quiet => simp [bytes] at h
  | eof => simp [bytes] at h
  | error r rest => simp [bytes] at h

/-- A feed without bytes is its own interruption. -/
theorem eq_tail_of_bytes {feed : Feed} (h : feed.bytes = []) : feed.tail = feed := by
  cases feed with
  | piece b bs rest => simp [bytes] at h
  | quiet => rfl
  | eof => rfl
  | error r rest => rfl

end Feed

/-! ## `imcomm_select` for one handle -/

/-- What a call of `imcomm_select` did for a handle. -/
inductive Outcome where
  /-- it called `flap_decode`, once, with this header and this payload -/
  | decoded (header data : List UInt8)
  /-- it took a byte, or found the handle closed -/
  | waiting
  /-- it reported `IMCOMM_ERROR_DISCONNECTED` -/
  | disconnected
deriving DecidableEq, Repr

/-- A handle, its transport, and the times that `time(NULL)` will tell. -/
structure Conn (σ : Type) where
  world : World σ
  feed : Feed
  clock : Nat → Int

/-- The result of a call. -/
structure Selected (σ : Type) where
  conn : Conn σ
  ret : ImcommRet
  outcome : Outcome

/-- `flap_decode`, as far as the receive paths are concerned. -/
abbrev Decoder (σ : Type) :=
  World σ → List UInt8 → List UInt8 → Except Fault (World σ × ImcommRet)

/-- The end of a read loop: whether the buffer is full, the buffer, and
what the transport still has. -/
structure LoopEnd where
  full : Bool
  buf : List UInt8
  feed : Feed
deriving DecidableEq, Repr

/-- The test of a read result: over TLS a negative result fails; on a plain
socket the result is added to `bytesread` first, and the sum is tested. -/
def readFailed (ssl : Bool) (bytesread : Nat) (r : Int) : Bool :=
  if ssl then r < 0 else (bytesread : Int) + r ≤ 0

/-- The read loops of the whole-packet paths, with `bytesread` bytes already
there; `none` when the loop does not end within the fuel. -/
def readLoop (ssl : Bool) (want : Nat) : Nat → Feed → List UInt8 → Nat → Option LoopEnd
  | 0, _, _, _ => none
  | fuel + 1, feed, buf, bytesread =>
    match feed.read (want - bytesread) with
    | none => none
    | some (r, got, feed) =>
      let buf := poke buf bytesread got
      if readFailed ssl bytesread r then some ⟨false, buf, feed⟩
      else
        let bytesread := ((bytesread : Int) + r).toNat
        if bytesread < want then readLoop ssl want fuel feed buf bytesread
        else some ⟨true, buf, feed⟩

section
variable [Host] {σ : Type} (cbs : Callbacks σ) (decode : Decoder σ)

/-- The connection with another state of its handle. -/
def Conn.store (c : Conn σ) (h : Imcomm) : Conn σ :=
  { c with world := { c.world with handle := h } }

/-- The handle is closed and the client told. -/
def Conn.disconnect (c : Conn σ) (h : Imcomm) : Selected σ :=
  let w := { c.world with handle := { h with socket := -1, connected := false, data := none } }
  ⟨{ c with world := w.fire cbs (.error .errorDisconnected none) }, .error, .disconnected⟩

/-- The end of the loop body: a keepalive frame after five minutes. -/
def Conn.keepalive (c : Conn σ) : Conn σ :=
  let h := c.world.handle
  if 300 < c.clock 0 - h.lastKeepaliveTime then
    let h := { h with lastKeepaliveTime := c.clock 1 }
    let h := if h.srvPause then h else (flapSend h 0x05 [] 0).1
    { c with world := { c.world with handle := h }, clock := fun n => c.clock (n + 2) }
  else { c with clock := fun n => c.clock (n + 1) }

/-- `flap_decode` on a complete frame; the buffer is gone afterwards. -/
def Conn.decodeFrame (c : Conn σ) (h : Imcomm) (header data : List UInt8) :
    Except Fault (Selected σ) := do
  let (w, ret) ← decode { c.world with handle := { h with data := some data } } header data
  let w := { w with handle := { w.handle with data := none } }
  return ⟨{ c with world := w }, ret, .decoded header data⟩

/-- The second half of the whole-packet paths, with the header in `h`. -/
def selectPayload (fuel : Nat) (c : Conn σ) (h : Imcomm) : Except Fault (Selected σ) := do
  let dataLen ← twoTo16 (h.header.drop 4)
  let h := { h with dataLen := dataLen }
  match readLoop h.useSsl dataLen.toNat fuel c.feed (malloc dataLen.toNat) 0 with
  | none => .error .hang
  | some ⟨false, _, feed⟩ => return ({ c with feed := feed } : Conn σ).disconnect cbs h
  | some ⟨true, data, feed⟩ =>
    let s ← ({ c with feed := feed } : Conn σ).decodeFrame decode h h.header data
    return { s with conn := s.conn.keepalive }

/-- The whole-packet paths. -/
def selectFull (fuel : Nat) (c : Conn σ) : Except Fault (Selected σ) :=
  let h := c.world.handle
  match readLoop h.useSsl 6 fuel c.feed h.header 0 with
  | none => .error .hang
  | some ⟨full, header, feed⟩ =>
    let c := { c with feed := feed }
    let h := { h with header := header }
    if full then selectPayload cbs decode fuel c h else .ok (c.disconnect cbs h)

/-- The handle after a byte of the header. -/
def headerByte (h : Imcomm) (got : List UInt8) : Except Fault Imcomm := do
  let h := { h with header := poke h.header h.headerPos.toNat got, headerPos := h.headerPos + 1 }
  if h.headerPos = 6 then
    let dataLen ← twoTo16 (h.header.drop 4)
    return { h with dataLen := dataLen, data := some (malloc dataLen.toNat), dataPos := 0 }
  else return h

/-- The byte-at-a-time paths; those for TLS and for plain sockets are the
same.  A payload byte is stored at `data_pos`, which may lie behind the
block. -/
def selectByte (c : Conn σ) : Except Fault (Selected σ) :=
  let h := c.world.handle
  match c.feed.read 1 with
  | none => .error .hang
  | some (r, got, feed) =>
    let c := { c with feed := feed }
    if h.headerPos < 6 then
      if r ≤ 0 then .ok (c.disconnect cbs { h with headerPos := 0 })
      else do
        let h ← headerByte h got
        return ⟨(c.store h).keepalive, .ok, .waiting⟩
    else
      match h.data with
      | none => .error .null
      | some data =>
        if r ≤ 0 then .ok (c.disconnect cbs { h with headerPos := 0 })
        else if data.length ≤ h.dataPos.toNat then .error .oob
        else
          let data := poke data h.dataPos.toNat got
          let h := { h with data := some data, dataPos := h.dataPos + 1 }
          if h.dataPos = h.dataLen then do
            let s ← c.decodeFrame decode h h.header data
            let c := s.conn.store { s.conn.world.handle with headerPos := 0 }
            return { s with conn := c.keepalive }
          else .ok ⟨(c.store h).keepalive, .ok, .waiting⟩

/-- `imcomm_select`, when it finds the handle readable: the body of its loop
for that handle.  `full` is the build option `FULL_PACKET_AT_ONCE`. -/
def imcommSelect (full : Bool) (fuel : Nat) (c : Conn σ) : Except Fault (Selected σ) :=
  if c.world.handle.socket = -1 then .ok ⟨c, .ok, .waiting⟩
  else if full then selectFull cbs decode fuel c
  else selectByte cbs decode c

/-- `n` calls of `imcomm_select` that find the handle readable. -/
def polls (full : Bool) (fuel : Nat) : Nat → Conn σ → Except Fault (Conn σ × List Outcome)
  | 0, c => .ok (c, [])
  | n + 1, c => do
    let s ← imcommSelect cbs decode full fuel c
    let (c, outcomes) ← polls full fuel n s.conn
    return (c, s.outcome :: outcomes)

end

end Bsflite
