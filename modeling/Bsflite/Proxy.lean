import Bsflite.CString
import Bsflite.Receive
import Bsflite.Signon

/-!
# Bsflite.Proxy

The handshake with an HTTPS proxy: `connect_https` of `proxy.c`.  The reply
comes out of a `Feed`, cut into the pieces in which it arrives; what is left
of the feed goes to the readers of `imcomm_select`.

* `ProxyReply` — a status line, headers, a blank line, and the bytes of the tunnel.
* `blankLine_headBytes` — the blank line is at the end of the head only.
* `readReply_code` — what the first result of `recv` decides.
* `handshake_iff` — the cuts with which the handshake goes as it should.
-/

namespace Bsflite

/-! ## `connect_https` -/

/-- The calls of `IMCOMM_ERROR` in `connect_https`. -/
inductive HttpsError where
  /-- `IMCOMM_ERROR_PROXY` with `PROXY_ERROR_CONNECT` -/
  | connect
  /-- `IMCOMM_ERROR_PROXY` with `PROXY_ERROR_PROXYCONNECT` -/
  | proxyConnect
  /-- `IMCOMM_ERROR_DISCONNECTED` -/
  | disconnected
deriving DecidableEq, Repr

/-- What the system calls before the reply return, and what is in `sockbuf`. -/
structure HttpsCalls where
  socket : Int
  connect : Int
  send : Int
  sockbuf : Vector UInt8 512

/-- How `connect_https` ends: the socket of the handle, the error it reports,
its result, and what is left to receive. -/
structure HttpsEnd where
  socket : Int
  error : Option HttpsError
  ret : ImcommRet
  feed : Feed
deriving DecidableEq, Repr

/-- The request for a tunnel. -/
def connectRequest (host : Str) (port : UInt16) : Str :=
  ascii "CONNECT " ++ host ++ ascii ":" ++ ascii (toString port.toNat) ++ ascii " HTTP/1.0\r\n" ++
    ascii "User-agent: Mozilla/5.0 (Windows; U; Windows NT 5.1; en-US; rv:1.0.2) " ++
    ascii "Gecko/20021120 Netscape/7.01\r\n\r\n"

/-- `recv` into `sockbuf`, and the NUL at `received`. -/
def recvString (sockbuf : List UInt8) (feed : Feed) : Except Fault (List UInt8 × Feed) :=
  match feed.read 512 with
  | none => .error .hang
  | some (received, bs, feed) => do
    let sockbuf ← storeN sockbuf 0 bs
    if received < 0 then .error .oob
    else
      let sockbuf ← storeN sockbuf received.toNat [0]
      return (sockbuf, feed)

/-- The end of the header. -/
def blankLine : Str := [13, 10, 13, 10]

/-- The loop of `connect_https`. -/
def blankLoop : Nat → List UInt8 → Feed → Except Fault Feed
  | 0, _, _ => .error .hang
  | fuel + 1, sockbuf, feed => do
    let found ← strstr blankLine sockbuf
    if found then return feed
    else
      let (sockbuf, feed) ← recvString sockbuf feed
      blankLoop fuel sockbuf feed

/-- `connect_https`, from the reply on. -/
def readReply (fuel : Nat) (socket : Int) (sockbuf : List UInt8) (feed : Feed) :
    Except Fault HttpsEnd := do
  let (sockbuf, feed) ← recvString sockbuf feed
  let sptr ← strchr sockbuf 0 32
  match sptr with
  | none => .error .null
  | some sptr =>
    let code ← strAt sockbuf (sptr + 1)
    if atoi code ≠ 200 then return ⟨-1, some .proxyConnect, .error, feed⟩
    else
      let feed ← blankLoop fuel sockbuf feed
      return ⟨socket, none, .ok, feed⟩

/-- `connect_https` -/
def connectHttps (fuel : Nat) (calls : HttpsCalls) (host : Str) (port : UInt16) (feed : Feed) :
    Except Fault HttpsEnd :=
  if calls.socket = -1 then return ⟨-1, some .connect, .error, feed⟩
  else if calls.connect = -1 then return ⟨calls.socket, some .connect, .error, feed⟩
  else do
    let sockbuf ← storeN calls.sockbuf.toList 0 (terminated ((connectRequest host port).take 511))
    if calls.send < 0 then return ⟨-1, some .disconnected, .error, feed⟩
    else readReply fuel calls.socket sockbuf feed

/-! ## replies -/

/-- Without line ends. -/
def OneLine (line : Str) : Prop := 13 ∉ line ∧ 10 ∉ line

instance (line : Str) : Decidable (OneLine line) :=
  inferInstanceAs (Decidable (13 ∉ line ∧ 10 ∉ line))

/-- The bytes of some lines and of the blank line behind them. -/
def headBytes : List Str → Str
  | [] => [13, 10]
  | line :: lines => line ++ [13, 10] ++ headBytes lines

/-- The reply of a proxy: a status line with a numeric code, headers, and
behind a blank line what comes through the tunnel. -/
structure ProxyReply where
  version : Str
  code : Str
  /-- the rest of the status line -/
  reason : Str
  headers : List Str
  tunnelled : List UInt8
  version_text : OneLine version ∧ 0 ∉ version ∧ 32 ∉ version
  code_digits : code ≠ [] ∧ ∀ c ∈ code, 48 ≤ c ∧ c ≤ 57
  code_int : digits 0 code < 2 ^ 31
  reason_text : OneLine reason ∧ (reason = [] ∨ reason.head? = some 32)
  headers_text : ∀ line ∈ headers, line ≠ [] ∧ OneLine line

namespace ProxyReply

variable (reply : ProxyReply)

/-- The numeric code. -/
def status : Nat := digits 0 reply.code

/-- The status line. -/
def statusLine : Str := reply.version ++ 32 :: (reply.code ++ reply.reason)

/-- The bytes up to and including the blank line. -/
def head : Str := headBytes (reply.statusLine :: reply.headers)

/-- The whole reply. -/
def bytes : List UInt8 := reply.head ++ reply.tunnelled

end ProxyReply

/-- The pieces in front of the first interruption. -/
def Feed.pieces : Feed → List (List UInt8)
  | .piece b bs rest => (b :: bs) :: rest.pieces
  | _ => []

/-- **The handshake**: it ends, inside its buffer; it succeeds when the code is
200; and then the bytes of the tunnel are left. -/
def HandshakeGood (reply : ProxyReply) (feed : Feed) : Prop :=
  ∀ (calls : HttpsCalls) (host : Str) (port : UInt16),
    calls.socket ≠ -1 → calls.connect ≠ -1 → 0 ≤ calls.send →
    ∃ fuel r, connectHttps fuel calls host port feed = .ok r ∧
      (r.ret = .ok ↔ reply.status = 200) ∧ (r.ret = .ok → r.feed.bytes = reply.tunnelled)

/-- How a reply with the code 200 may be cut: the blank line is at the end of
a piece, which has all of it and no NUL; the first piece has the code; and
there is room for a NUL behind each piece. -/
structure CutAtBlank (reply : ProxyReply) (front : List (List UInt8)) : Prop where
  head : front.flatten = reply.head
  room : ∀ piece ∈ front, piece.length < 512
  first : ∀ piece ∈ front.head?, reply.version.length + 1 + reply.code.length ≤ piece.length
  last : ∀ piece ∈ front.getLast?, 4 ≤ piece.length ∧ 0 ∉ piece

/-- How another reply may be cut: the first piece goes beyond the blank, what
it has of the code does not read 200, and there is room for a NUL. -/
structure CutBehindBlank (reply : ProxyReply) (piece : List UInt8) : Prop where
  room : piece.length < 512
  blank : reply.version.length < piece.length
  code : digits 0 (reply.code.take (piece.length - (reply.version.length + 1))) ≠ 200

/-! ## the head of a reply -/

/-- The blank line is not in front of the end of the head. -/
theorem blankLine_headBytes {lines : List Str} (hlines : ∀ line ∈ lines, line ≠ [] ∧ OneLine line)
    {front back : Str} (h : headBytes lines = front ++ blankLine ++ back) : back = [] := by
  induction lines generalizing front with
  | nil =>
      have hlen := congrArg List.length h
      simp [headBytes, blankLine] at hlen
      omega
  | cons line lines ih =>
      rw [List.forall_mem_cons] at hlines
      obtain ⟨⟨-, h13, -⟩, hlines⟩ := hlines
      rw [headBytes, List.append_assoc, List.append_assoc, List.append_eq_append_iff] at h
      -- the first carriage return of the head ends `line`
      have hbehind : ∃ more, front = line ++ more ∧
          [13, 10] ++ headBytes lines = more ++ (blankLine ++ back) := by
        rcases h with h | ⟨more, hline, hmore⟩
        · exact h
        · cases more with
          | nil => exact ⟨[], by simpa using hline.symm, by simpa using hmore.symm⟩
          | cons c more =>
              have hc : c = 13 := by
                have hhead := congrArg List.head? hmore
                simpa [blankLine, eq_comm] using hhead
              rw [hc] at hline
              exact absurd (hline ▸ List.mem_append_right front List.mem_cons_self) h13
      obtain ⟨more, -, hmore⟩ := hbehind
      match more with
      | [] =>
          -- the blank line begins where the line ends: there is no line behind it
          have hrest : headBytes lines = 13 :: 10 :: back := by simpa [blankLine] using hmore
          cases lines with
          | nil => simpa [headBytes] using hrest.symm
          | cons line' lines =>
              obtain ⟨⟨hne', h13', -⟩, -⟩ := List.forall_mem_cons.mp hlines
              obtain ⟨c, line', rfl⟩ := List.exists_cons_of_ne_nil hne'
              have hc : c = 13 := by
                have hhead := congrArg List.head? hrest
                simpa [headBytes] using hhead
              exact absurd (hc ▸ List.mem_cons_self) h13'
      | [c] => simp [blankLine] at hmore
      | c :: d :: more =>
          have hrest : headBytes lines = more ++ blankLine ++ back := by
            simpa using (List.cons.inj (List.cons.inj hmore).2).2
          exact ih hlines hrest

/-- The head ends with the blank line. -/
theorem blankLine_suffix (line : Str) (lines : List Str) :
    blankLine <:+ headBytes (line :: lines) := by
  induction lines generalizing line with
  | nil => exact ⟨line, by simp [headBytes, blankLine]⟩
  | cons line' lines ih =>
      obtain ⟨front, hfront⟩ := ih line'
      exact ⟨line ++ [13, 10] ++ front, by rw [headBytes, ← hfront, List.append_assoc]⟩

/-! ## the code -/

theorem le_digits (acc : Nat) (s : Str) : acc ≤ digits acc s := by
  induction s generalizing acc with
  | nil => exact Nat.le_refl acc
  | cons c s ih =>
      rw [digits]
      split
      · have hle := ih (acc * 10 + (c.toNat - 48))
        omega
      · exact Nat.le_refl acc

/-- Digits in front are read first. -/
theorem digits_append {s : Str} (hs : ∀ c ∈ s, 48 ≤ c ∧ c ≤ 57) (acc : Nat) (rest : Str) :
    digits acc (s ++ rest) = digits (digits acc s) rest := by
  induction s generalizing acc with
  | nil => rfl
  | cons c s ih =>
      rw [List.forall_mem_cons] at hs
      rw [List.cons_append, digits, if_pos hs.1, digits, if_pos hs.1, ih hs.2]

/-- A part of a code that reads 200 does not. -/
theorem digits_take_ne {code : Str} (hcode : ∀ c ∈ code, 48 ≤ c ∧ c ≤ 57)
    (h200 : digits 0 code = 200) {n : Nat} (hn : n < code.length) :
    digits 0 (code.take n) ≠ 200 := by
  intro htake
  have hfront : ∀ c ∈ code.take n, 48 ≤ c ∧ c ≤ 57 := fun c hc => hcode c (List.mem_of_mem_take hc)
  have hsplit := digits_append hfront 0 (code.drop n)
  rw [List.take_append_drop, h200, htake, List.drop_eq_getElem_cons hn, digits,
    if_pos (hcode _ (List.getElem_mem hn))] at hsplit
  have hle := le_digits (200 * 10 + (code[n].toNat - 48)) (code.drop (n + 1))
  omega

/-- `atoi` of digits. -/
theorem atoi_digits {s : Str} (hs : ∀ c ∈ s.head?, 48 ≤ c ∧ c ≤ 57) : atoi s = digits 0 s := by
  cases s with
  | nil => rfl
  | cons c s =>
      have hc : 48 ≤ c ∧ c ≤ 57 := hs c rfl
      have hplain : ¬ (c = 32 ∨ 9 ≤ c ∧ c ≤ 13) := by
        simp only [UInt8.le_iff_toNat_le, ← UInt8.toNat_inj, UInt8.reduceToNat] at hc ⊢
        omega
      rw [atoi, List.dropWhile_cons_of_neg (by simpa using hplain)]
      split
      · next heq =>
        obtain ⟨rfl, -⟩ := List.cons.inj heq
        exact absurd hc (by decide)
      · next heq =>
        obtain ⟨rfl, -⟩ := List.cons.inj heq
        exact absurd hc (by decide)
      · rfl

/-- The part of a code in a text that ends in it or goes beyond it. -/
theorem atoi_cstr {code rest text : Str} (hne : code ≠ []) (hcode : ∀ c ∈ code, 48 ≤ c ∧ c ≤ 57)
    (hrest : ∀ c ∈ rest.head?, c = 32 ∨ c = 13) (htext : text <+: code ++ rest) :
    atoi (cstr text) = digits 0 (code.take text.length) := by
  have hnul : 0 ∉ code := fun h => absurd (hcode 0 h) (by decide)
  rcases List.prefix_or_prefix_of_prefix htext (List.prefix_append code rest) with hin | ⟨more, rfl⟩
  · -- only digits
    rw [← List.prefix_iff_eq_take.mp hin, cstr_of_no_nul fun h => hnul (hin.subset h)]
    refine atoi_digits fun c hc => hcode c (hin.subset ?_)
    exact List.mem_of_mem_head? hc
  · have hmore : more <+: rest := (List.prefix_append_right_inj code).mp htext
    rw [cstr, List.takeWhile_append_of_pos (forall_ne_of_notMem hnul),
      List.take_of_length_le (by simp), atoi_digits, digits_append hcode]
    · cases more with
      | nil => rfl
      | cons c more =>
          obtain ⟨tail, rfl⟩ := hmore
          rcases hrest c rfl with rfl | rfl <;> rfl
    · obtain ⟨c, code, rfl⟩ := List.exists_cons_of_ne_nil hne
      simpa using hcode c List.mem_cons_self

/-! ## receiving -/

theorem Feed.flatten_pieces (feed : Feed) : feed.pieces.flatten = feed.bytes := by
  induction feed with
  | piece b bs rest ih => rw [Feed.pieces, List.flatten_cons, ih, Feed.bytes]
  | quiet => rfl
  | eof => rfl
  | error r rest => rfl

/-- `recv` takes what it has room for. -/
theorem read_512 (b : UInt8) (bs : List UInt8) (rest : Feed) :
    (Feed.piece b bs rest).read 512 = some ((((b :: bs).take 512).length : Int),
      (b :: bs).take 512, Feed.leave ((b :: bs).drop 512) rest) := by
  rw [Feed.read, if_neg (by decide)]

/-- A piece that leaves room for the NUL. -/
theorem recvString_piece {sockbuf : List UInt8} (hlen : sockbuf.length = 512) {b : UInt8}
    {bs : List UInt8} (hroom : (b :: bs).length < 512) (rest : Feed) :
    ∃ buf, recvString sockbuf (.piece b bs rest) = .ok (buf, rest) ∧
      HoldsStr buf (cstr (b :: bs)) ∧ buf.length = 512 := by
  obtain ⟨copied, hcopy, hcopied, hfront⟩ := storeN_take (b :: bs) List.take_zero
    (show 0 + (b :: bs).length ≤ sockbuf.length by omega)
  rw [Nat.zero_add, List.nil_append] at hfront
  obtain ⟨buf, hstore, hbuf, hterminated⟩ := storeN_take [0] hfront
    (show (b :: bs).length + [(0 : UInt8)].length ≤ copied.length by simp at hroom ⊢; omega)
  refine ⟨buf, ?_, ⟨(holdsStr_cstr _).no_nul, (holdsStr_cstr _).front.trans ?_⟩, by omega⟩
  · rw [recvString, read_512, List.take_of_length_le (Nat.le_of_lt hroom),
      List.drop_of_length_le (Nat.le_of_lt hroom)]
    simp only [hcopy, ok_bind]
    rw [if_neg (by omega), Int.toNat_natCast, hstore]
    rfl
  · rw [terminated, ← hterminated]
    exact List.take_prefix _ _

/-- A piece that fills the buffer: the NUL is stored behind it. -/
theorem recvString_full {sockbuf : List UInt8} (hlen : sockbuf.length = 512) {b : UInt8}
    {bs : List UInt8} (hfull : 512 ≤ (b :: bs).length) (rest : Feed) :
    recvString sockbuf (.piece b bs rest) = .error .oob := by
  have hgot : ((b :: bs).take 512).length = 512 := by
    rw [List.length_take]
    omega
  obtain ⟨copied, hcopy, hcopied, -⟩ := storeN_take ((b :: bs).take 512) List.take_zero
    (show 0 + ((b :: bs).take 512).length ≤ sockbuf.length by omega)
  rw [recvString, read_512, hgot]
  simp only [hcopy, ok_bind]
  rw [if_neg (by omega), Int.toNat_natCast, storeN, if_neg]
  · rfl
  · simp [hcopied, hlen]

/-- At the end of the stream the buffer holds an empty string. -/
theorem recvString_eof {sockbuf : List UInt8} (hlen : sockbuf.length = 512) :
    ∃ buf, recvString sockbuf .eof = .ok (buf, .eof) ∧ HoldsStr buf (cstr []) ∧
      buf.length = 512 := by
  obtain ⟨buf, hstore, hheld, hbuf⟩ := storeN_terminated (show sockbuf.take 0 = [] from rfl)
    (show 0 ∉ ([] ++ [] : Str) by simp) (show 0 + ([] : Str).length < sockbuf.length by simp [hlen])
  refine ⟨buf, ?_, hheld, hbuf.trans hlen⟩
  have hcopy : storeN sockbuf 0 [] = .ok sockbuf := by simp [storeN, poke]
  simp only [recvString, Feed.read, if_neg (show ¬ 512 = 0 by decide), hcopy, ok_bind]
  rw [if_neg (by decide)]
  exact congrArg (· >>= fun sockbuf => pure (sockbuf, Feed.eof)) hstore

theorem zero_notMem_blankLine : 0 ∉ blankLine := by decide

/-- Where the loop can stop: behind a piece whose string has the blank line. -/
theorem blankLoop_ok {fuel : Nat} {sockbuf current : List UInt8} {feed feed' : Feed}
    (hheld : HoldsStr sockbuf (cstr current)) (hlen : sockbuf.length = 512)
    (hend : feed.tail = .quiet ∨ feed.tail = .eof) (hok : blankLoop fuel sockbuf feed = .ok feed') :
    ∃ taken, feed.pieces = taken ++ feed'.pieces ∧ (∀ piece ∈ taken, piece.length < 512) ∧
      ∃ last ∈ (current :: taken).getLast?, blankLine <:+: cstr last := by
  induction fuel generalizing sockbuf current feed with
  | zero => cases hok
  | succ fuel ih =>
      rw [blankLoop, hheld.strstr_eq zero_notMem_blankLine, ok_bind] at hok
      by_cases hfound : blankLine <:+: cstr current
      · rw [if_pos (by simpa using hfound)] at hok
        cases hok
        exact ⟨[], rfl, by simp, current, rfl, hfound⟩
      rw [if_neg (by simpa using hfound)] at hok
      cases feed with
      | piece b bs rest =>
          by_cases hroom : (b :: bs).length < 512
          · obtain ⟨buf, hrecv, hbuf, hlen'⟩ := recvString_piece hlen hroom rest
            rw [hrecv, ok_bind] at hok
            have htail : rest.tail = .quiet ∨ rest.tail = .eof := hend
            obtain ⟨taken, hpieces, hrooms, last, hlast, hblank⟩ := ih hbuf hlen' htail hok
            refine ⟨(b :: bs) :: taken, by rw [Feed.pieces, hpieces]; rfl, ?_, last, ?_, hblank⟩
            · exact List.forall_mem_cons.mpr ⟨hroom, hrooms⟩
            · rwa [List.getLast?_cons_cons]
          · rw [recvString_full hlen (Nat.le_of_not_lt hroom) rest] at hok
            cases hok
      | quiet => cases hok
      | eof =>
          -- an empty string from here on
          obtain ⟨buf, hrecv, hbuf, hlen'⟩ := recvString_eof hlen
          rw [hrecv, ok_bind] at hok
          obtain ⟨taken, hpieces, -, last, hlast, hblank⟩ := ih hbuf hlen' hend hok
          obtain rfl : taken = [] := (List.append_eq_nil_iff.mp hpieces.symm).1
          obtain rfl : [] = last := by simpa using hlast
          simp [blankLine, cstr] at hblank
      | error r rest => simp [Feed.tail] at hend

/-- The loop stops behind the first piece whose string has the blank line. -/
theorem blankLoop_reaches {sockbuf current : List UInt8} {feed : Feed}
    (hheld : HoldsStr sockbuf (cstr current)) (hlen : sockbuf.length = 512)
    {taken back : List (List UInt8)} (hpieces : feed.pieces = taken ++ back)
    (hroom : ∀ piece ∈ taken, piece.length < 512)
    (hbefore : ∀ piece ∈ (current :: taken).dropLast, ¬ blankLine <:+: cstr piece)
    (hlast : ∀ last ∈ (current :: taken).getLast?, blankLine <:+: cstr last) :
    ∃ fuel feed', blankLoop fuel sockbuf feed = .ok feed' ∧ feed'.pieces = back := by
  induction taken generalizing sockbuf current feed with
  | nil =>
      have hfound := hlast current rfl
      refine ⟨1, feed, ?_, hpieces⟩
      rw [blankLoop, hheld.strstr_eq zero_notMem_blankLine, ok_bind,
        if_pos (by simpa using hfound)]
      rfl
  | cons piece taken ih =>
      cases feed with
      | piece b bs rest =>
          obtain ⟨rfl, hrest⟩ : b :: bs = piece ∧ rest.pieces = taken ++ back := by
            simpa [Feed.pieces] using hpieces
          rw [List.forall_mem_cons] at hroom
          rw [List.dropLast_cons_cons, List.forall_mem_cons] at hbefore
          rw [List.getLast?_cons_cons] at hlast
          obtain ⟨buf, hrecv, hbuf, hlen'⟩ := recvString_piece hlen hroom.1 rest
          obtain ⟨fuel, feed', hloop, hback⟩ := ih hbuf hlen' hrest hroom.2 hbefore.2 hlast
          refine ⟨fuel + 1, feed', ?_, hback⟩
          rw [blankLoop, hheld.strstr_eq zero_notMem_blankLine, ok_bind,
            if_neg (by simpa using hbefore.1), hrecv]
          exact hloop
      | quiet => cases hpieces
      | eof => cases hpieces
      | error r rest => cases hpieces

/-! ## the first piece -/

/-- The request is in `sockbuf` when the reply comes. -/
theorem connectHttps_eq {calls : HttpsCalls} (hsocket : calls.socket ≠ -1)
    (hconnect : calls.connect ≠ -1) (hsend : 0 ≤ calls.send) (host : Str) (port : UInt16)
    (feed : Feed) :
    ∃ sockbuf, sockbuf.length = 512 ∧ ∀ fuel,
      connectHttps fuel calls host port feed = readReply fuel calls.socket sockbuf feed := by
  have hlen : calls.sockbuf.toList.length = 512 := by simp
  obtain ⟨sockbuf, hstore, hsockbuf, -⟩ :=
    storeN_take (terminated ((connectRequest host port).take 511)) List.take_zero
      (show 0 + (terminated ((connectRequest host port).take 511)).length ≤
        calls.sockbuf.toList.length by
          rw [length_terminated, List.length_take]
          omega)
  refine ⟨sockbuf, hsockbuf.trans hlen, fun fuel => ?_⟩
  rw [connectHttps, if_neg hsocket, if_neg hconnect, hstore, ok_bind, if_neg (by omega)]

namespace ProxyReply

variable (reply : ProxyReply)

/-- The code is behind the first blank, and no digit is behind the code. -/
theorem bytes_eq : ∃ more, reply.bytes = reply.version ++ 32 :: (reply.code ++ more) ∧
    ∀ c ∈ more.head?, c = 32 ∨ c = 13 := by
  refine ⟨reply.reason ++ [13, 10] ++ headBytes reply.headers ++ reply.tunnelled, ?_, ?_⟩
  · simp [bytes, head, statusLine, headBytes]
  · rcases reply.reason_text.2 with hnil | hblank
    · simp [hnil]
    · intro c hc
      obtain ⟨reason, hreason⟩ : ∃ reason, reply.reason = 32 :: reason := by
        cases h : reply.reason with
        | nil => simp [h] at hblank
        | cons b reason =>
            rw [h] at hblank
            exact ⟨reason, by rw [Option.some.inj hblank]⟩
      simp [hreason] at hc
      exact Or.inl hc.symm

/-- The lines of the head. -/
theorem lines_text : ∀ line ∈ reply.statusLine :: reply.headers, line ≠ [] ∧ OneLine line := by
  rw [List.forall_mem_cons]
  refine ⟨⟨by simp [statusLine], ?_⟩, reply.headers_text⟩
  have h13 : 13 ∉ reply.code := fun h => absurd (reply.code_digits.2 13 h) (by decide)
  have h10 : 10 ∉ reply.code := fun h => absurd (reply.code_digits.2 10 h) (by decide)
  obtain ⟨hv13, hv10⟩ := reply.version_text.1
  obtain ⟨hr13, hr10⟩ := reply.reason_text.1
  simp [statusLine, OneLine, h13, h10, hv13, hv10, hr13, hr10]

end ProxyReply

section
variable {reply : ProxyReply} {b : UInt8} {bs : List UInt8}

/-- Without a blank in the first piece a null pointer is followed. -/
theorem readReply_null (hpiece : b :: bs <+: reply.bytes) (hroom : (b :: bs).length < 512)
    (hshort : (b :: bs).length ≤ reply.version.length) (fuel : Nat) (socket : Int)
    {sockbuf : List UInt8} (hlen : sockbuf.length = 512) (rest : Feed) :
    readReply fuel socket sockbuf (.piece b bs rest) = .error .null := by
  obtain ⟨more, hbytes, -⟩ := reply.bytes_eq
  obtain ⟨buf, hrecv, hheld, -⟩ := recvString_piece hlen hroom rest
  have hin : b :: bs <+: reply.version := by
    rw [hbytes] at hpiece
    exact List.prefix_of_prefix_length_le hpiece (List.prefix_append _ _) hshort
  have hblank : 32 ∉ cstr (b :: bs) := fun h =>
    reply.version_text.2.2 (hin.subset ((List.takeWhile_prefix _).subset h))
  rw [readReply, hrecv]
  simp only [ok_bind, hheld.strchr_eq (show (32 : UInt8) ≠ 0 by decide), if_neg hblank]

/-- What the first piece has of the code decides. -/
theorem readReply_code (hpiece : b :: bs <+: reply.bytes) (hroom : (b :: bs).length < 512)
    (hlong : reply.version.length < (b :: bs).length) (socket : Int) {sockbuf : List UInt8}
    (hlen : sockbuf.length = 512) (rest : Feed) :
    ∃ buf, HoldsStr buf (cstr (b :: bs)) ∧ buf.length = 512 ∧ ∀ fuel,
      readReply fuel socket sockbuf (.piece b bs rest) =
        if digits 0 (reply.code.take ((b :: bs).length - (reply.version.length + 1))) = 200 then
          blankLoop fuel buf rest >>= fun feed => .ok ⟨socket, none, .ok, feed⟩
        else .ok ⟨-1, some .proxyConnect, .error, rest⟩ := by
  obtain ⟨more, hbytes, hmore⟩ := reply.bytes_eq
  obtain ⟨buf, hrecv, hheld, hbuf⟩ := recvString_piece hlen hroom rest
  refine ⟨buf, hheld, hbuf, fun fuel => ?_⟩
  obtain ⟨-, hnul, hplain⟩ := reply.version_text
  rw [readReply, hrecv]
  generalize b :: bs = piece at *
  obtain ⟨text, rfl, htext⟩ : ∃ text, piece = reply.version ++ 32 :: text ∧
      text <+: reply.code ++ more := by
    rw [hbytes] at hpiece
    rcases List.prefix_or_prefix_of_prefix hpiece (List.prefix_append reply.version _) with
      hin | ⟨tail, rfl⟩
    · exact absurd hin.length_le (Nat.not_le_of_lt hlong)
    · have htail := (List.prefix_append_right_inj reply.version).mp hpiece
      cases tail with
      | nil => simp at hlong
      | cons c text =>
          obtain ⟨rfl, htext⟩ := List.cons_prefix_cons.mp htail
          exact ⟨text, rfl, htext⟩
  have hcstr : cstr (reply.version ++ 32 :: text) = reply.version ++ 32 :: cstr text := by
    rw [cstr, List.takeWhile_append_of_pos (forall_ne_of_notMem hnul)]
    rfl
  have hcode := atoi_cstr reply.code_digits.1 reply.code_digits.2 hmore htext
  rw [hcstr] at hheld
  have hsptr : strchr buf 0 32 = .ok (some reply.version.length) := by
    rw [hheld.strchr_eq (by decide), if_pos (by simp), takeWhile_ne_append hplain]
  have hat : strAt buf (reply.version.length + 1) = .ok (cstr text) := by
    rw [hheld.strAt_drop (by simp)]
    simp
  have hn : (reply.version ++ 32 :: text).length - (reply.version.length + 1) = text.length := by
    simp only [List.length_append, List.length_cons]
    omega
  simp only [ok_bind, hsptr, hat, hcode, hn]
  by_cases h200 : digits 0 (reply.code.take text.length) = 200
  · rw [if_neg (by simp [h200]), if_pos h200]
    rfl
  · rw [if_pos (by exact_mod_cast h200), if_neg h200]
    rfl

end

/-! ## the handshake -/

/-- The blank line in a string of a piece of the head: the piece ends with it. -/
theorem cstr_of_blankLine {reply : ProxyReply} {front back : List UInt8} {piece : List UInt8}
    (hhead : front ++ piece ++ back = reply.head) (hblank : blankLine <:+: cstr piece) :
    back = [] ∧ 4 ≤ piece.length ∧ 0 ∉ piece := by
  obtain ⟨x, y, hxy⟩ := hblank
  obtain ⟨z, hz⟩ := List.takeWhile_prefix (l := piece) (fun c : UInt8 => decide (c ≠ 0))
  rw [← cstr, ← hxy] at hz
  have hsplit : headBytes (reply.statusLine :: reply.headers) =
      front ++ x ++ blankLine ++ (y ++ (z ++ back)) := by
    rw [← ProxyReply.head, ← hhead, ← hz]
    simp only [List.append_assoc]
  obtain ⟨rfl, hzback⟩ := List.append_eq_nil_iff.mp (blankLine_headBytes reply.lines_text hsplit)
  obtain ⟨rfl, rfl⟩ := List.append_eq_nil_iff.mp hzback
  rw [List.append_nil] at hz
  refine ⟨rfl, ?_, ?_⟩
  · rw [← hz]
    simp [blankLine]
  · rw [← hz, hxy]
    exact zero_notMem_cstr piece

/-- The last piece of the head, when it has all of the blank line. -/
theorem blankLine_of_suffix {reply : ProxyReply} {piece : List UInt8}
    (hsuffix : piece <:+ reply.head) (hlen : 4 ≤ piece.length) (hnul : 0 ∉ piece) :
    blankLine <:+: cstr piece := by
  rw [cstr_of_no_nul hnul]
  exact (List.suffix_of_suffix_length_le (blankLine_suffix _ _) hsuffix hlen).isInfix

/-- A loop that stops where the tunnel begins has found a good cut. -/
theorem CutAtBlank.of_stop {reply : ProxyReply} {feed : Feed} {piece : List UInt8}
    {taken : List (List UInt8)} {feed' : Feed} (hbytes : piece ++ feed.bytes = reply.bytes)
    (hpieces : feed.pieces = taken ++ feed'.pieces) (hrooms : ∀ p ∈ piece :: taken, p.length < 512)
    (hcode : reply.version.length + 1 + reply.code.length ≤ piece.length)
    {last : List UInt8} (hlast : last ∈ (piece :: taken).getLast?)
    (hblank : blankLine <:+: cstr last) (hleft : feed'.bytes = reply.tunnelled) :
    CutAtBlank reply (piece :: taken) := by
  have hhead : (piece :: taken).flatten = reply.head := by
    rw [← feed.flatten_pieces, hpieces, List.flatten_append, feed'.flatten_pieces, hleft,
      ← List.append_assoc, ← List.flatten_cons, ProxyReply.bytes] at hbytes
    exact List.append_cancel_right hbytes
  refine ⟨hhead, hrooms, ?_, ?_⟩
  · intro p hp
    obtain rfl : piece = p := by simpa using hp
    exact hcode
  · intro p hp
    obtain rfl : last = p := Option.some.inj (hlast.symm.trans hp)
    obtain ⟨before, hbefore⟩ := List.getLast?_eq_some_iff.mp hlast
    rw [hbefore, List.flatten_append, List.flatten_singleton,
      ← List.append_nil (_ ++ last)] at hhead
    exact (cstr_of_blankLine hhead hblank).2

/-- Along a good cut the blank line is in the last piece, and in no other. -/
theorem CutAtBlank.reaches {reply : ProxyReply} {front : List (List UInt8)}
    (hcut : CutAtBlank reply front) :
    (∀ piece ∈ front.dropLast, ¬ blankLine <:+: cstr piece) ∧
      ∀ last ∈ front.getLast?, blankLine <:+: cstr last := by
  constructor
  · intro piece hpiece hblank
    obtain ⟨before, last, rfl⟩ : ∃ before last, front = before ++ [last] := by
      have hne : front ≠ [] := by
        rintro rfl
        cases hpiece
      exact ⟨_, _, (List.dropLast_concat_getLast hne).symm⟩
    rw [List.dropLast_concat] at hpiece
    obtain ⟨early, late, rfl⟩ := List.append_of_mem hpiece
    have hhead : early.flatten ++ piece ++ (late.flatten ++ last) = reply.head := by
      rw [← hcut.head]
      simp
    obtain ⟨-, rfl⟩ := List.append_eq_nil_iff.mp (cstr_of_blankLine hhead hblank).1
    have hlen := (hcut.last [] List.getLast?_concat).1
    simp at hlen
  · intro last hlast
    obtain ⟨hlen, hnul⟩ := hcut.last last hlast
    have hsuffix : last <:+ reply.head := by
      obtain ⟨before, hbefore⟩ := List.getLast?_eq_some_iff.mp hlast
      rw [← hcut.head, hbefore, List.flatten_append, List.flatten_singleton]
      exact List.suffix_append _ _
    exact blankLine_of_suffix hsuffix hlen hnul

section
variable {reply : ProxyReply} {b : UInt8} {bs : List UInt8} {rest : Feed}

/-- The first piece is the front of the reply. -/
theorem first_cuts (hbytes : (Feed.piece b bs rest).bytes = reply.bytes) :
    b :: bs <+: reply.bytes := by
  rw [← hbytes, Feed.bytes]
  exact List.prefix_append _ _

/-- A handshake that goes as it should has come to a good cut. -/
theorem HandshakeGood.cut (hbytes : (Feed.piece b bs rest).bytes = reply.bytes)
    (htail : rest.tail = .quiet ∨ rest.tail = .eof) (h : HandshakeGood reply (.piece b bs rest)) :
    (reply.status = 200 → ∃ front back, (Feed.piece b bs rest).pieces = front ++ back ∧
        CutAtBlank reply front) ∧
      (reply.status ≠ 200 → CutBehindBlank reply (b :: bs)) := by
  have hpiece := first_cuts hbytes
  obtain ⟨fuel, r, hrun, hret, hleft⟩ :=
    h ⟨0, 0, 0, Vector.replicate 512 0⟩ [] 0 (by decide) (by decide) (by decide)
  obtain ⟨sockbuf, hlen, hread⟩ := @connectHttps_eq ⟨0, 0, 0, Vector.replicate 512 0⟩
    (by decide) (by decide) (by decide) [] 0 (.piece b bs rest)
  rw [hread] at hrun
  have hroom : (b :: bs).length < 512 := by
    by_contra hfull
    rw [readReply, recvString_full hlen (Nat.le_of_not_lt hfull)] at hrun
    cases hrun
  have hlong : reply.version.length < (b :: bs).length := by
    by_contra hshort
    rw [readReply_null hpiece hroom (Nat.le_of_not_lt hshort) fuel 0 hlen rest] at hrun
    cases hrun
  obtain ⟨buf, hheld, hbuf, hcode⟩ := readReply_code hpiece hroom hlong 0 hlen rest
  rw [hcode] at hrun
  split at hrun
  · next h200 =>
    obtain ⟨feed', hloop, hr⟩ := bind_eq_ok hrun
    cases hr
    refine ⟨fun hstatus => ?_, fun hstatus => absurd (hret.mp rfl) hstatus⟩
    have hwhole : reply.version.length + 1 + reply.code.length ≤ (b :: bs).length := by
      by_contra hpart
      exact digits_take_ne reply.code_digits.2 hstatus (by omega) h200
    obtain ⟨taken, hpieces, hrooms, last, hlast, hfound⟩ := blankLoop_ok hheld hbuf htail hloop
    exact ⟨(b :: bs) :: taken, feed'.pieces, congrArg (_ :: ·) hpieces,
      .of_stop hbytes hpieces (List.forall_mem_cons.mpr ⟨hroom, hrooms⟩) hwhole hlast hfound
        (hleft rfl)⟩
  · next h200 =>
    cases hrun
    exact ⟨fun hstatus => absurd (hret.mpr hstatus) ImcommRet.noConfusion,
      fun _ => ⟨hroom, hlong, h200⟩⟩

/-- A reply with the code 200 is read up to its blank line. -/
theorem CutAtBlank.handshake {front back : List (List UInt8)} (hcut : CutAtBlank reply front)
    (hbytes : (Feed.piece b bs rest).bytes = reply.bytes)
    (hpieces : (Feed.piece b bs rest).pieces = front ++ back) (hstatus : reply.status = 200) :
    HandshakeGood reply (.piece b bs rest) := by
  intro calls host port hsocket hconnect hsend
  obtain ⟨sockbuf, hlen, hread⟩ :=
    connectHttps_eq hsocket hconnect hsend host port (.piece b bs rest)
  cases front with
  | nil =>
      have hhead := hcut.head
      simp [ProxyReply.head, ProxyReply.statusLine, headBytes] at hhead
  | cons piece taken =>
      obtain ⟨rfl, hrest⟩ : b :: bs = piece ∧ rest.pieces = taken ++ back := by
        simpa [Feed.pieces] using hpieces
      obtain ⟨hroom, hrooms⟩ := List.forall_mem_cons.mp hcut.room
      have hwhole := hcut.first (b :: bs) rfl
      obtain ⟨buf, hheld, hbuf, hcode⟩ :=
        readReply_code (first_cuts hbytes) hroom (by omega) calls.socket hlen rest
      obtain ⟨fuel, feed', hloop, hback⟩ :=
        blankLoop_reaches hheld hbuf hrest hrooms hcut.reaches.1 hcut.reaches.2
      have h200 : digits 0 (reply.code.take
          ((b :: bs).length - (reply.version.length + 1))) = 200 := by
        rwa [List.take_of_length_le (by omega)]
      refine ⟨fuel, ⟨calls.socket, none, .ok, feed'⟩, ?_, by simp [hstatus], fun _ => ?_⟩
      · rw [hread, hcode, if_pos h200, hloop]
        rfl
      · rw [← Feed.flatten_pieces, hpieces, List.flatten_append, hcut.head, ← hback,
          Feed.flatten_pieces, ProxyReply.bytes] at hbytes
        exact List.append_cancel_left hbytes

/-- A reply with another code is refused. -/
theorem CutBehindBlank.handshake (hcut : CutBehindBlank reply (b :: bs))
    (hbytes : (Feed.piece b bs rest).bytes = reply.bytes) (hstatus : reply.status ≠ 200) :
    HandshakeGood reply (.piece b bs rest) := by
  intro calls host port hsocket hconnect hsend
  obtain ⟨sockbuf, hlen, hread⟩ :=
    connectHttps_eq hsocket hconnect hsend host port (.piece b bs rest)
  obtain ⟨buf, -, -, hrun⟩ :=
    readReply_code (first_cuts hbytes) hcut.room hcut.blank calls.socket hlen rest
  refine ⟨0, ⟨-1, some .proxyConnect, .error, rest⟩, ?_, by simp [hstatus], nofun⟩
  rw [hread, hrun, if_neg hcut.code]

end

/-- **The handshake** goes as it should exactly when the reply is cut at its
blank line, or behind the blank in front of its code. -/
theorem handshake_iff (reply : ProxyReply) (feed : Feed) (hbytes : feed.bytes = reply.bytes)
    (hend : feed.tail = .quiet ∨ feed.tail = .eof) :
    HandshakeGood reply feed ↔
      (reply.status = 200 →
        ∃ front back, feed.pieces = front ++ back ∧ CutAtBlank reply front) ∧
      (reply.status ≠ 200 → ∀ piece ∈ feed.pieces.head?, CutBehindBlank reply piece) := by
  obtain ⟨more, hreply, -⟩ := reply.bytes_eq
  have hne : feed.bytes ≠ [] := by simp [hbytes, hreply]
  cases feed with
  | quiet => exact absurd rfl hne
  | eof => exact absurd rfl hne
  | error r rest => exact absurd rfl hne
  | piece b bs rest =>
      have hfirst (P : List UInt8 → Prop) :
          (∀ piece ∈ (Feed.piece b bs rest).pieces.head?, P piece) ↔ P (b :: bs) := by
        simp [Feed.pieces]
      rw [hfirst]
      refine ⟨HandshakeGood.cut hbytes hend, fun ⟨hblank, hother⟩ => ?_⟩
      by_cases hstatus : reply.status = 200
      · obtain ⟨front, back, hpieces, hcut⟩ := hblank hstatus
        exact hcut.handshake hbytes hpieces hstatus
      · exact (hother hstatus).handshake hbytes hstatus

/-- A proxy that opens the tunnel, and the first byte of a FLAP frame. -/
def okReply : ProxyReply where
  version := ascii "HTTP/1.0"
  code := ascii "200"
  reason := ascii " OK"
  headers := [ascii "Via: proxy"]
  tunnelled := [42]
  version_text := by decide +kernel
  code_digits := by decide +kernel
  code_int := by decide +kernel
  reason_text := by decide +kernel
  headers_text := by decide +kernel

/-- A reply whose head arrives in one piece, and the tunnel behind it. -/
theorem handshake_head :
    HandshakeGood okReply
      (.piece 72 (ascii "TTP/1.0 200 OK\r\nVia: proxy\r\n\r\n") (.piece 42 [] .eof)) := by
  have hcut : CutAtBlank okReply [ascii "HTTP/1.0 200 OK\r\nVia: proxy\r\n\r\n"] :=
    ⟨by decide +kernel, by decide +kernel, by decide +kernel, by decide +kernel⟩
  exact (handshake_iff okReply _ (by decide +kernel) (.inr rfl)).2
    ⟨fun _ => ⟨_, [[42]], by decide +kernel, hcut⟩, fun h => absurd (by decide +kernel) h⟩

/-- The same reply in one piece: the byte of the tunnel is lost. -/
theorem handshake_joined :
    ¬ HandshakeGood okReply
      (.piece 72 (ascii "TTP/1.0 200 OK\r\nVia: proxy\r\n\r\n*") .quiet) := by
  intro h
  obtain ⟨fuel, r, hrun, -, hleft⟩ :=
    h ⟨0, 0, 0, Vector.replicate 512 0⟩ [] 0 (by decide) (by decide) (by decide)
  obtain ⟨sockbuf, hlen, hread⟩ := @connectHttps_eq ⟨0, 0, 0, Vector.replicate 512 0⟩
    (by decide) (by decide) (by decide) [] 0
    (.piece 72 (ascii "TTP/1.0 200 OK\r\nVia: proxy\r\n\r\n*") .quiet)
  have hpiece : 72 :: ascii "TTP/1.0 200 OK\r\nVia: proxy\r\n\r\n*" <+: okReply.bytes := by
    decide +kernel
  obtain ⟨buf, hheld, hbuf, hcode⟩ :=
    readReply_code hpiece (by decide +kernel) (by decide +kernel) 0 hlen .quiet
  rw [hread, hcode, if_pos (by decide +kernel)] at hrun
  obtain ⟨feed', hloop, hr⟩ := bind_eq_ok hrun
  cases hr
  obtain ⟨taken, hpieces, -⟩ := blankLoop_ok hheld hbuf (.inl rfl) hloop
  have hnothing : feed'.pieces = [] := (List.append_eq_nil_iff.mp hpieces.symm).2
  have hbytes : feed'.bytes = [42] := hleft rfl
  rw [← Feed.flatten_pieces, hnothing] at hbytes
  cases hbytes

end Bsflite
