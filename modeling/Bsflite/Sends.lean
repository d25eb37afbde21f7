import Bsflite.Outgoing

/-!
# Bsflite.Sends

`flap_send` and `flap_sendMulti` over a transport that may fail, with frames
of any channel and any length.

* `flapSend_eq`, `flapSendMulti_eq` — the frame or the frames as one write,
  and what the answer of the transport decides.
* `FlapCall.run_took` — which frames the transport takes from a call, and where
  the sequence number is left.
* `seqnums_kept` — when the numbers on the wire have no gap.
-/

namespace Bsflite

/-! ## one write -/

/-- Every write takes the whole buffer, or fails and takes nothing. -/
def Link.WholeOrNothing (l : Link) : Prop := ∀ n k : Nat, l.result n k = k ∨ l.result n k < 0

/-- The next write of `k` bytes fails. -/
def Link.Fails (l : Link) (k : Nat) : Prop := l.result l.writes k < 0

instance (l : Link) (k : Nat) : Decidable (l.Fails k) :=
  inferInstanceAs (Decidable (l.result l.writes k < 0))

/-- A handle after a write, with the sequence number moved on by `n`. -/
def afterWrite (h : Imcomm) (buf : List UInt8) (n : Nat) : Imcomm :=
  { h with link := (h.link.write buf).1, seqnum := h.seqnum + UInt16.ofNat n }

section
variable [Host]

/-- `flap_send`, as a write of one frame. -/
theorem flapSend_eq (h : Imcomm) (channel : UInt8) (packet : List UInt8) (updateidle : Int) :
    flapSend h channel packet updateidle =
      if h.link.Fails (multiBytes h.seqnum [⟨channel, packet, updateidle⟩]).length then
        (afterWrite h (multiBytes h.seqnum [⟨channel, packet, updateidle⟩]) 0, .error)
      else (resetIdle updateidle
        (afterWrite h (multiBytes h.seqnum [⟨channel, packet, updateidle⟩]) 1), .ok) := by
  have hdata : (pktAddAll (pktInit (packet.length + 6))
      [.add8 0x2A, .add8 channel, .add16 h.seqnum, .add16 (uint16 packet.length),
        .addraw packet]).data = multiBytes h.seqnum [⟨channel, packet, updateidle⟩] := by
    rw [pktAddAll_eq _ (by simp [PktAdd.bytes]; omega)]
    simp [PktAdd.bytes, multiBytes, MultiPacket.bytes]
  rw [flapSend]
  simp only [hdata, next_seqnum]
  have hzero : h.seqnum + UInt16.ofNat 0 = h.seqnum := UInt16.add_zero _
  refine if_congr Iff.rfl (by rw [afterWrite, hzero]) ?_
  exact resetIdle_ok updateidle (afterWrite h _ 1)

/-- `flap_sendMulti`, as a write of all its frames.  The counter is moved on
whether the write fails or not. -/
theorem flapSendMulti_eq (h : Imcomm) (ps : List MultiPacket) :
    flapSendMulti h ps =
      if (if h.useSsl then (h.link.write (multiBytes h.seqnum ps)).2 ≤ 0
        else (h.link.write (multiBytes h.seqnum ps)).2 < 0) then
        (afterWrite h (multiBytes h.seqnum ps) ps.length, .error)
      else (resetIdle (if ps.any (fun p => p.updateidle = 1) then 1 else 0)
        (afterWrite h (multiBytes h.seqnum ps) ps.length), .ok) := by
  obtain ⟨hdata, hseq⟩ := flapSendMultiLoop_eq h.seqnum ps
  rw [flapSendMulti]
  simp only [hdata, hseq]
  exact if_congr Iff.rfl rfl (resetIdle_ok _ (afterWrite h _ ps.length))

/-! ## frames taken -/

/-- `h'` is `h` after the transport took the frames `out`, numbered on from
the sequence number of `h`. -/
structure Took (h : Imcomm) (out : List MultiPacket) (h' : Imcomm) : Prop where
  wire : h'.link.wire = h.link.wire ++ multiBytes h.seqnum out
  seqnum : h'.seqnum = h.seqnum + UInt16.ofNat out.length
  result : h'.link.result = h.link.result

omit [Host] in
theorem Took.refl (h : Imcomm) : Took h [] h := ⟨by simp [multiBytes], by simp, rfl⟩

omit [Host] in
theorem Took.trans {h h' h'' : Imcomm} {out out' : List MultiPacket} (h1 : Took h out h')
    (h2 : Took h' out' h'') : Took h (out ++ out') h'' := by
  refine ⟨?_, ?_, h2.result.trans h1.result⟩
  · rw [h2.wire, h1.wire, h1.seqnum, multiBytes_append, List.append_assoc]
  · rw [h2.seqnum, h1.seqnum, List.length_append, UInt16.ofNat_add, UInt16.add_assoc]

omit [Host] in
theorem Took.wholeOrNothing {h h' : Imcomm} {out : List MultiPacket} (ht : Took h out h')
    (hl : h.link.WholeOrNothing) : h'.link.WholeOrNothing := by
  intro n k
  rw [ht.result]
  exact hl n k

omit [Host] in
theorem took_of_failed {h : Imcomm} {buf : List UInt8} (hf : h.link.Fails buf.length) :
    Took h [] (afterWrite h buf 0) := by
  have hneg : (h.link.result h.link.writes buf.length).toNat = 0 :=
    Int.toNat_of_nonpos (le_of_lt hf)
  exact ⟨by simp [afterWrite, Link.write, hneg, multiBytes], rfl, rfl⟩

omit [Host] in
theorem took_of_not_failed {h : Imcomm} (hl : h.link.WholeOrNothing) {ps : List MultiPacket}
    (hf : ¬ h.link.Fails (multiBytes h.seqnum ps).length) :
    Took h ps (afterWrite h (multiBytes h.seqnum ps) ps.length) := by
  have hall := (hl h.link.writes (multiBytes h.seqnum ps).length).resolve_right hf
  exact ⟨by simp [afterWrite, Link.write, hall], rfl, rfl⟩

/-- A batch that leaves the idle time is one write, whatever the answer. -/
theorem flapSendMulti_plain (h : Imcomm) {ps : List MultiPacket}
    (hu : ps.any (fun p => p.updateidle = 1) = false) :
    (flapSendMulti h ps).1 = afterWrite h (multiBytes h.seqnum ps) ps.length := by
  have hreset (h' : Imcomm) : resetIdle (if false then 1 else 0) h' = h' := if_neg (by decide)
  rw [flapSendMulti_eq, hu, hreset, apply_ite Prod.fst]
  exact ite_self _

/-- The SNAC (01,11) of `imcomm_set_idle_time` as a frame. -/
def idleFrame (reqid idlesecs : UInt32) : MultiPacket :=
  ⟨0x02, (Snac.mk 0x01 0x11 0 reqid (be32 idlesecs)).bytes, 0⟩

omit [Host] in
theorem length_idleFrame (seqnum : UInt16) (reqid idlesecs : UInt32) :
    (multiBytes seqnum [idleFrame reqid idlesecs]).length = 20 := by
  rw [length_multiBytes]
  rfl

/-- The handle from which `imcomm_set_idle_time` sends. -/
def reporting (h : Imcomm) (idlesecs : UInt32) : Imcomm :=
  { h with isidle := decide (600 < idlesecs), snacreq := h.snacreq + 1 }

/-- Does `imcomm_set_idle_time` have something to report? -/
def idleReported (h : Imcomm) (idlesecs : UInt32) : Prop :=
  (600 < idlesecs ∧ h.isidle = false) ∨ (idlesecs = 0 ∧ h.isidle = true)

instance (h : Imcomm) (idlesecs : UInt32) : Decidable (idleReported h idlesecs) :=
  inferInstanceAs (Decidable (_ ∨ _))

/-- `imcomm_set_idle_time`, as a `flap_send` of its frame.  The idle flag is
changed before the send. -/
theorem imcommSetIdleTime_eq (h : Imcomm) (idlesecs : UInt32) :
    imcommSetIdleTime h idlesecs =
      if idleReported h idlesecs then
        if h.srvPause then { h with isidle := decide (600 < idlesecs) }
        else (flapSend (reporting h idlesecs) 0x02 (idleFrame h.snacreq idlesecs).packet 0).1
      else h := by
  have hpacket : pktAddAll (pktInit 4) [.add32 idlesecs] = ⟨be32 idlesecs, 4, 4⟩ := by
    rw [pktAddAll_eq _ (by simp [PktAdd.bytes])]
    simp [PktAdd.bytes]
  have hsend (b : Bool) :
      (snacSend { h with isidle := b } 0x01 0x11 (be32 idlesecs) (uint16 4) 0).1 =
        if h.srvPause then { h with isidle := b }
      else (flapSend { h with isidle := b, snacreq := h.snacreq + 1 } 0x02
        (idleFrame h.snacreq idlesecs).packet 0).1 := by
    rw [snacSend]
    split
    · rfl
    · have hdata := snacPacket_data 0x01 0x11 h.snacreq (be32 idlesecs)
        (by rw [length_be32]; decide)
      exact congrArg (fun d =>
        (flapSend { h with isidle := b, snacreq := h.snacreq + 1 } 0x02 d 0).1) hdata
  rw [imcommSetIdleTime, hpacket]
  by_cases hlong : 600 < idlesecs
  · have hne : idlesecs ≠ 0 := by
      rintro rfl
      exact absurd hlong (by decide)
    cases hidle : h.isidle with
    | true => simp [hlong, hidle, idleReported, hne]
    | false => simpa [hlong, hidle, idleReported, reporting] using hsend true
  · cases hidle : h.isidle with
    | true =>
        by_cases hzero : idlesecs = 0
        · simpa [hlong, hidle, hzero, idleReported, reporting] using hsend false
        · simp [hlong, hidle, hzero, idleReported]
    | false => simp [hlong, hidle, idleReported]

/-- The idle reset is `imcomm_set_idle_time(handle, 0)`, which does nothing on
a handle that is not idle. -/
theorem resetIdle_eq (updateidle : Int) (h : Imcomm) :
    resetIdle updateidle h = if updateidle = 1 then imcommSetIdleTime h 0 else h := by
  rw [resetIdle]
  refine if_congr Iff.rfl ?_ rfl
  by_cases hidle : h.isidle = true
  · rw [if_pos hidle]
  · rw [if_neg hidle, imcommSetIdleTime_eq, if_neg]
    rintro (⟨hlong, -⟩ | ⟨-, htrue⟩)
    · exact absurd hlong (by decide)
    · exact hidle htrue

/-- The frame that the transport takes from `imcomm_set_idle_time`. -/
def idleTaken (h : Imcomm) (idlesecs : UInt32) : List MultiPacket :=
  if idleReported h idlesecs ∧ h.srvPause = false ∧ ¬ h.link.Fails 20 then
    [idleFrame h.snacreq idlesecs]
  else []

theorem imcommSetIdleTime_took {h : Imcomm} (hl : h.link.WholeOrNothing) (idlesecs : UInt32) :
    Took h (idleTaken h idlesecs) (imcommSetIdleTime h idlesecs) := by
  have hlen : (multiBytes (reporting h idlesecs).seqnum
      [⟨0x02, (idleFrame h.snacreq idlesecs).packet, 0⟩]).length = 20 :=
    length_idleFrame h.seqnum h.snacreq idlesecs
  rw [imcommSetIdleTime_eq, idleTaken]
  by_cases hreported : idleReported h idlesecs
  · rw [if_pos hreported]
    by_cases hpause : h.srvPause = true
    · rw [if_pos hpause, if_neg (by simp [hpause])]
      exact ⟨by simp [multiBytes], by simp, rfl⟩
    · have hpause' : h.srvPause = false := by simpa using hpause
      rw [if_neg hpause, flapSend_eq]
      simp only [hlen]
      by_cases hfails : (reporting h idlesecs).link.Fails 20
      · rw [if_neg (fun hall => hall.2.2 hfails), if_pos hfails]
        have htook := took_of_failed (h := reporting h idlesecs) (hlen.symm ▸ hfails)
        exact ⟨htook.wire, htook.seqnum, htook.result⟩
      · rw [if_pos ⟨hreported, hpause', hfails⟩, if_neg hfails, resetIdle_eq, if_neg (by decide)]
        have htook := took_of_not_failed (h := reporting h idlesecs) hl (hlen.symm ▸ hfails)
        exact ⟨htook.wire, htook.seqnum, htook.result⟩
  · rw [if_neg hreported, if_neg (fun hall => hreported hall.1)]
    exact Took.refl h

/-! ## calls -/

omit [Host] in
/-- A call of `flap_send`, or of `flap_sendMulti` with what was queued. -/
inductive FlapCall where
  | send (p : MultiPacket)
  | sendMulti (p : MultiPacket) (ps : List MultiPacket)
deriving DecidableEq, Repr

namespace FlapCall

omit [Host] in
/-- The frames of a call. -/
def frames : FlapCall → List MultiPacket
  | send p => [p]
  | sendMulti p ps => p :: ps

omit [Host] in
/-- Does the call update the idle time? -/
def updateidle : FlapCall → Int
  | send p => p.updateidle
  | sendMulti p ps => if (p :: ps).any (fun q => q.updateidle = 1) then 1 else 0

/-- Make the call. -/
def run (h : Imcomm) : FlapCall → Imcomm × ImcommRet
  | send p => flapSend h p.channel p.packet p.updateidle
  | sendMulti p ps => flapSendMulti h (p :: ps)

omit [Host] in
/-- How far a failed call moves the sequence number: a batch moves it before
it is written. -/
def movedAnyway : FlapCall → Nat
  | send _ => 0
  | sendMulti p ps => (p :: ps).length

omit [Host] in
/-- The write of the call fails. -/
def Fails (h : Imcomm) (c : FlapCall) : Prop :=
  h.link.Fails (multiBytes h.seqnum c.frames).length

instance (h : Imcomm) (c : FlapCall) : Decidable (c.Fails h) :=
  inferInstanceAs (Decidable (h.link.Fails _))

/-- **A call** is one write of its frames, and the idle reset when the write
succeeds. -/
theorem run_eq {h : Imcomm} (hl : h.link.WholeOrNothing) (c : FlapCall) :
    c.run h =
      if c.Fails h then (afterWrite h (multiBytes h.seqnum c.frames) c.movedAnyway, .error)
      else (resetIdle c.updateidle (afterWrite h (multiBytes h.seqnum c.frames) c.frames.length),
        .ok) := by
  cases c with
  | send p => exact flapSend_eq h p.channel p.packet p.updateidle
  | sendMulti p ps =>
      have hpos : 0 < (multiBytes h.seqnum (p :: ps)).length := by
        rw [multiBytes_cons, List.length_append, p.length_bytes]
        omega
      have hanswer := hl h.link.writes (multiBytes h.seqnum (p :: ps)).length
      refine (flapSendMulti_eq h (p :: ps)).trans (if_congr ?_ rfl rfl)
      show (if h.useSsl then h.link.result h.link.writes (multiBytes h.seqnum (p :: ps)).length ≤ 0
        else h.link.result h.link.writes (multiBytes h.seqnum (p :: ps)).length < 0) ↔
        h.link.result h.link.writes (multiBytes h.seqnum (p :: ps)).length < 0
      split
      · omega
      · rfl

/-- The frames that the transport takes from a call: those of the call, and
the SNAC of the idle reset. -/
def taken (h : Imcomm) (c : FlapCall) : List MultiPacket :=
  if c.Fails h then []
  else c.frames ++ if c.updateidle = 1 then
      idleTaken (afterWrite h (multiBytes h.seqnum c.frames) c.frames.length) 0
    else []

omit [Host] in
theorem uint16_ofNat_eq_zero_iff {n : Nat} : UInt16.ofNat n = 0 ↔ n % 65536 = 0 := by
  rw [← UInt16.toNat_inj, UInt16.toNat_ofNat']
  rfl

omit [Host] in
/-- A failed batch, which has moved the sequence number. -/
def Slips (h : Imcomm) (c : FlapCall) : Prop := c.Fails h ∧ c.movedAnyway % 65536 ≠ 0

/-- A call puts the frames on the wire that the transport takes from it. -/
theorem run_took {h : Imcomm} (hl : h.link.WholeOrNothing) {c : FlapCall} (hs : ¬ c.Slips h) :
    Took h (c.taken h) (c.run h).1 := by
  rw [run_eq hl, taken]
  by_cases hfails : c.Fails h
  · rw [if_pos hfails, if_pos hfails]
    have htook := took_of_failed hfails
    have hkept : c.movedAnyway % 65536 = 0 := by
      by_contra hmoved
      exact hs ⟨hfails, hmoved⟩
    refine ⟨htook.wire, ?_, htook.result⟩
    show h.seqnum + UInt16.ofNat c.movedAnyway = h.seqnum + UInt16.ofNat 0
    rw [uint16_ofNat_eq_zero_iff.mpr hkept]
    rfl
  · rw [if_neg hfails, if_neg hfails]
    have htook := took_of_not_failed hl hfails
    refine htook.trans ?_
    rw [resetIdle_eq]
    split
    · exact imcommSetIdleTime_took (htook.wholeOrNothing hl) 0
    · exact Took.refl _

/-- A call that returns an error has moved the sequence number exactly when it
slips. -/
theorem run_error_iff {h : Imcomm} (hl : h.link.WholeOrNothing) (c : FlapCall) :
    ((c.run h).2 = .error ∧ (c.run h).1.seqnum ≠ h.seqnum) ↔ c.Slips h := by
  rw [run_eq hl, Slips]
  by_cases hfails : c.Fails h
  · rw [if_pos hfails]
    simp only [hfails, true_and]
    exact not_congr (UInt16.add_eq_left.trans uint16_ofNat_eq_zero_iff)
  · rw [if_neg hfails]
    simp [hfails]

/-- A call leaves the behaviour of the transport. -/
theorem run_result {h : Imcomm} (hl : h.link.WholeOrNothing) (c : FlapCall) :
    (c.run h).1.link.result = h.link.result := by
  rw [run_eq hl]
  split
  · rfl
  · rw [resetIdle_eq]
    split
    · exact (imcommSetIdleTime_took (h := afterWrite h _ _) hl 0).result
    · rfl

end FlapCall

/-- The handle after a run of calls. -/
def flapRun (h : Imcomm) (cs : List FlapCall) : Imcomm := cs.foldl (fun h c => (c.run h).1) h

theorem flapRun_wholeOrNothing {h : Imcomm} (hl : h.link.WholeOrNothing) (cs : List FlapCall) :
    (flapRun h cs).link.WholeOrNothing := by
  induction cs generalizing h with
  | nil => exact hl
  | cons c cs ih =>
      refine ih fun n k => ?_
      rw [FlapCall.run_result hl]
      exact hl n k

/-- The frames that the transport takes from a run of calls. -/
def takenAll (h : Imcomm) : List FlapCall → List MultiPacket
  | [] => []
  | c :: cs => c.taken h ++ takenAll (c.run h).1 cs

/-- The sequence numbers survive a run of calls: the frames on the wire are
numbered on without a gap, and a call that fails leaves the counter. -/
structure SeqnumsKept (h : Imcomm) (cs : List FlapCall) : Prop where
  wire : (flapRun h cs).link.wire = h.link.wire ++ multiBytes h.seqnum (takenAll h cs)
  failed : ∀ before c after, cs = before ++ c :: after →
    (c.run (flapRun h before)).2 = .error →
      (c.run (flapRun h before)).1.seqnum = (flapRun h before).seqnum

/-- A run without a slip. -/
theorem flapRun_took {h : Imcomm} (hl : h.link.WholeOrNothing) {cs : List FlapCall}
    (hs : ∀ before c after, cs = before ++ c :: after → ¬ c.Slips (flapRun h before)) :
    Took h (takenAll h cs) (flapRun h cs) := by
  induction cs generalizing h with
  | nil => exact Took.refl h
  | cons c cs ih =>
      have hstep := FlapCall.run_took hl (hs [] c cs rfl)
      refine hstep.trans (ih (hstep.wholeOrNothing hl) fun before d after heq => ?_)
      exact hs (c :: before) d after (by rw [heq, List.cons_append])

/-- **Sequence numbers** survive a run of calls exactly when no batch in it
fails. -/
theorem seqnums_kept (h : Imcomm) (hl : h.link.WholeOrNothing) (cs : List FlapCall) :
    SeqnumsKept h cs ↔
      ∀ before c after, cs = before ++ c :: after → ¬ c.Slips (flapRun h before) := by
  constructor
  · intro hkept before c after heq hslips
    obtain ⟨herror, hmoved⟩ :=
      (FlapCall.run_error_iff (flapRun_wholeOrNothing hl before) c).mpr hslips
    exact hmoved (hkept.failed before c after heq herror)
  · intro hs
    refine ⟨(flapRun_took hl hs).wire, fun before c after heq herror => ?_⟩
    by_contra hmoved
    exact hs before c after heq
      ((FlapCall.run_error_iff (flapRun_wholeOrNothing hl before) c).mp ⟨herror, hmoved⟩)

end

/-- A handle whose first write fails. -/
def brokenHandle : Imcomm :=
  { imcommCreateHandle zeroBlock with
    link := ⟨fun n k => if n = 0 then -1 else k, 0, []⟩ }

theorem brokenHandle_wholeOrNothing : brokenHandle.link.WholeOrNothing := by
  intro n k
  by_cases hn : n = 0
  · exact Or.inr (by simp [brokenHandle, hn])
  · exact Or.inl (by simp [brokenHandle, hn])

/-- A single send fails, and the next one takes its number. -/
theorem seqnums_kept_send :
    @SeqnumsKept littleEndianHost brokenHandle [.send ⟨0x02, [1], 0⟩, .send ⟨0x02, [2], 0⟩] := by
  refine (@seqnums_kept littleEndianHost brokenHandle brokenHandle_wholeOrNothing _).mpr ?_
  rintro before c after heq ⟨-, hmoved⟩
  have hc : c ∈ [FlapCall.send ⟨0x02, [1], 0⟩, .send ⟨0x02, [2], 0⟩] := by
    rw [heq]
    simp
  rcases List.mem_pair.mp hc with rfl | rfl <;> exact hmoved rfl

/-- A batch of one fails, and its number is gone. -/
theorem seqnums_kept_batch :
    brokenHandle.link.WholeOrNothing ∧
      ¬ @SeqnumsKept littleEndianHost brokenHandle
        [.sendMulti ⟨0x02, [1], 0⟩ [], .send ⟨0x02, [2], 0⟩] := by
  refine ⟨brokenHandle_wholeOrNothing, fun hkept => ?_⟩
  obtain ⟨-, hfailed⟩ := hkept
  obtain ⟨herror, hmoved⟩ := (@FlapCall.run_error_iff littleEndianHost brokenHandle
    brokenHandle_wholeOrNothing (.sendMulti ⟨0x02, [1], 0⟩ [])).mpr ⟨by decide, by decide⟩
  exact hmoved (hfailed [] _ _ rfl herror)

end Bsflite
