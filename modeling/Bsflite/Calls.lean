import Bsflite.Typed

/-!
# Bsflite.Calls

What the library's functions put on the wire when a client calls them.  Each of
them leaves the handle with what the server was told: the idle flag, the
profile, the away message and the visibility.

* `Tracks` — a handle after some SNACs, and what they told.
* `sendBatch_sentFrom` — a batch of bodies of any length.
* `Speaks` — a call that leaves the settings.
-/

namespace Bsflite

/-! ## handles that show what was told -/

/-- Is it a SNAC (01,11) with an idle time? -/
def SnacBody.isIdle (b : SnacBody) : Bool := b.family = 0x01 ∧ b.subtype = 0x11

/-- Is it a SNAC (04,06) with a message? -/
def SnacBody.isMessage (b : SnacBody) : Bool := b.family = 0x04 ∧ b.subtype = 0x06

/-- It brings no idle time and no message. -/
structure SnacBody.Still (b : SnacBody) : Prop where
  idle : b.isIdle = false
  message : b.isMessage = false

theorem SnacBody.Still.of_all {out : List SnacBody}
    (h : out.all fun b => !b.isIdle && !b.isMessage) : ∀ b ∈ out, b.Still := by
  intro b hb
  have hb := List.all_eq_true.mp h b hb
  rw [Bool.and_eq_true, Bool.not_eq_true', Bool.not_eq_true'] at hb
  exact ⟨hb.1, hb.2⟩

/-- It tells nothing of the user either. -/
structure SnacBody.Neutral (b : SnacBody) : Prop extends b.Still where
  own : b.isOwn = false

theorem lastTold_of_idle {out : List SnacBody} (hout : ∀ b ∈ out, b.isIdle = false) (idle : Bool) :
    lastTold idle out = idle := by
  induction out with
  | nil => rfl
  | cons b out ih =>
    rw [List.forall_mem_cons] at hout
    have hb : ¬ (b.family = 0x01 ∧ b.subtype = 0x11) := by simpa [SnacBody.isIdle] using hout.1
    rw [lastTold, List.foldl_cons, if_neg hb]
    exact ih hout.2

section
variable [Host]

/-- `h'` is `h` after the SNACs `out` went out, and shows what they told. -/
structure Tracks (h : Imcomm) (out : List SnacBody) (h' : Imcomm) : Prop where
  flowing : h'.Flowing
  ischild : h'.ischild = h.ischild
  socket : h'.socket = h.socket
  wire : h'.link.wire = h.link.wire ++ numberBytes h.seqnum h.snacreq out
  seqnum : h'.seqnum = h.seqnum + UInt16.ofNat out.length
  snacreq : h'.snacreq = h.snacreq + UInt32.ofNat out.length
  connected : h'.connected.toNat = h.connected.toNat + out.countP SnacBody.isReady
  isidle : lastTold h.isidle out = h'.isidle
  view : out.foldl ServerView.hear (.of h) = .of h'

namespace Tracks

variable {h h' h'' : Imcomm} {out out' : List SnacBody}

theorem refl (hf : h.Flowing) : Tracks h [] h :=
  ⟨hf, rfl, rfl, by simp, by simp, by simp, rfl, rfl, rfl⟩

theorem trans (h1 : Tracks h out h') (h2 : Tracks h' out' h'') : Tracks h (out ++ out') h'' where
  flowing := h2.flowing
  ischild := h2.ischild.trans h1.ischild
  socket := h2.socket.trans h1.socket
  wire := by
    rw [h2.wire, h1.wire, h1.seqnum, h1.snacreq, numberBytes_append, List.append_assoc]
  seqnum := by rw [h2.seqnum, h1.seqnum, List.length_append, UInt16.ofNat_add, UInt16.add_assoc]
  snacreq := by rw [h2.snacreq, h1.snacreq, List.length_append, UInt32.ofNat_add, UInt32.add_assoc]
  connected := by rw [h2.connected, h1.connected, List.countP_append, Nat.add_assoc]
  isidle := by rw [lastTold_append, h1.isidle, h2.isidle]
  view := by rw [List.foldl_append, h1.view, h2.view]

/-- Sends that tell nothing new. -/
theorem of_sent {h₁ : Imcomm} {idle : Bool} (hf : h.Flowing) (hs : SameUser h h₁)
    (hsent : Sent h₁ out idle h') (hfair : ∀ b ∈ out, b.Fair h)
    (hidle : lastTold h.isidle out = idle) : Tracks h out h' := by
  have hview := ServerView.of_sent hsent
  have hflowing := hs.flowing hf
  have hflowing' : h'.Flowing :=
    ⟨hsent.accepting hflowing.accepting, hsent.srvPause.trans hflowing.srvPause⟩
  obtain ⟨writes, rfl⟩ := hsent
  exact {
    flowing := hflowing'
    ischild := hs.ischild
    socket := hs.socket
    wire := by rw [← hs.link, ← hs.seqnum, ← hs.snacreq]
    seqnum := by rw [← hs.seqnum]
    snacreq := by rw [← hs.snacreq]
    connected := by rw [countP_fair hfair, Nat.add_zero, ← hs.connected]
    isidle := hidle
    view := by rw [ServerView.hear_fair hfair, hview, ServerView.of_same hs] }

theorem of_same (hf : h.Flowing) (hs : SameUser h h') : Tracks h [] h' :=
  .of_sent hf hs (hs.isidle ▸ Sent.refl h') nofun rfl

end Tracks

/-- What a user sets is the same in both handles. -/
structure SameSettings (h h' : Imcomm) : Prop where
  isaway : h'.isaway = h.isaway
  awayMsg : h'.awayMsg = h.awayMsg
  isinvisible : h'.isinvisible = h.isinvisible

/-- A call that leaves the settings and sends no message. -/
def Speaks (h h' : Imcomm) : Prop :=
  h.Flowing → ∃ out, Tracks h out h' ∧ (∀ b ∈ out, b.isMessage = false) ∧ SameSettings h h'

namespace Speaks

variable {h h' h'' : Imcomm}

theorem trans (h1 : Speaks h h') (h2 : Speaks h' h'') : Speaks h h'' := by
  intro hf
  obtain ⟨out, htracks, hmessage, hset⟩ := h1 hf
  obtain ⟨out', htracks', hmessage', hset'⟩ := h2 htracks.flowing
  exact ⟨_, htracks.trans htracks', List.forall_mem_append.mpr ⟨hmessage, hmessage'⟩,
    hset'.isaway.trans hset.isaway, hset'.awayMsg.trans hset.awayMsg,
    hset'.isinvisible.trans hset.isinvisible⟩

theorem of_same (hs : SameUser h h') : Speaks h h' :=
  fun hf => ⟨[], .of_same hf hs, List.forall_mem_nil _, hs.isaway, hs.awayMsg, hs.isinvisible⟩

theorem refl (h : Imcomm) : Speaks h h := of_same (.refl h)

theorem of_sent {h₁ : Imcomm} {out : List SnacBody} {idle : Bool} (hs : SameUser h h₁)
    (hsent : h₁.Flowing → Sent h₁ out idle h') (hfair : ∀ b ∈ out, b.Fair h)
    (hidle : lastTold h.isidle out = idle) (hmessage : ∀ b ∈ out, b.isMessage = false) :
    Speaks h h' := by
  intro hf
  have hsent := hsent (hs.flowing hf)
  refine ⟨out, .of_sent hf hs hsent hfair hidle, hmessage, ?_⟩
  obtain ⟨writes, rfl⟩ := hsent
  exact ⟨hs.isaway, hs.awayMsg, hs.isinvisible⟩

theorem of_neutral {h₁ : Imcomm} {out : List SnacBody} (hs : SameUser h h₁)
    (hsent : SentFrom h₁ out h') (hout : ∀ b ∈ out, b.Neutral) : Speaks h h' :=
  of_sent hs hsent (fun b hb => SnacBody.fair_of_other h (hout b hb).own)
    (by rw [lastTold_of_idle fun b hb => (hout b hb).idle, hs.isidle])
    fun b hb => (hout b hb).message

end Speaks

/-! ## one SNAC, or a batch -/

/-- A SNAC that is neutral. -/
theorem snacSendpkt_speaks (h : Imcomm) {family subtype : UInt8} {pkt : Pkt}
    (hpkt : ∃ n fs, pkt = pktAddAll (pktInit n) fs)
    (hneutral : ∀ data, SnacBody.Neutral ⟨family.toUInt16, subtype.toUInt16, data⟩) :
    Speaks h (snacSendpkt h family subtype pkt 0).1 := by
  obtain ⟨n, fs, rfl⟩ := hpkt
  exact .of_neutral (.refl h) (sentFrom_pkt h family subtype n fs)
    (List.forall_mem_singleton.mpr (hneutral _))

/-- The queue of a batch, with bodies of any length. -/
theorem snacAddAllToMulti_cut (h : Imcomm) (mpkt : List MultiPacket) (calls : List SnacCall) :
    snacAddAllToMulti h mpkt calls =
      ({ h with snacreq := h.snacreq + UInt32.ofNat calls.length },
        mpkt ++ queued h.snacreq (calls.map fun c => ⟨c.body.cut, c.updateidle⟩)) := by
  induction calls generalizing h mpkt with
  | nil => simp [snacAddAllToMulti, queued]
  | cons c calls ih =>
    have hstep : snacAddToMulti h mpkt c.body.family c.body.subtype c.body.data
        (uint16 c.body.data.length) c.updateidle =
        ({ h with snacreq := h.snacreq + 1 }, mpkt ++
          [⟨0x02, (Snac.mk c.body.family c.body.subtype 0 h.snacreq c.body.cut.data).bytes,
            c.updateidle⟩]) := by
      rw [snacAddToMulti, snacPacket_cut, flapAddToMulti]
      rfl
    have hrec := ih { h with snacreq := h.snacreq + 1 } (mpkt ++
      [⟨0x02, (Snac.mk c.body.family c.body.subtype 0 h.snacreq c.body.cut.data).bytes,
        c.updateidle⟩])
    rw [snacAddAllToMulti, List.foldl_cons, hstep]
    rw [snacAddAllToMulti] at hrec
    rw [hrec, List.map_cons, queued, List.length_cons, UInt32.ofNat_add, List.append_assoc,
      UInt32.add_assoc, UInt32.add_comm (UInt32.ofNat calls.length)]
    rfl

/-- **A batch** that leaves the idle time alone. -/
theorem sendBatch_sentFrom (h : Imcomm) {calls : List SnacCall} (hne : calls ≠ [])
    (hidle : ∀ c ∈ calls, c.updateidle = 0) :
    SentFrom h (calls.map fun c => c.body.cut) (sendBatch h calls).1 := by
  intro hf
  have hbodies : (calls.map fun c => (⟨c.body.cut, c.updateidle⟩ : SnacCall)).map SnacCall.body =
      calls.map fun c => c.body.cut := by
    rw [List.map_map]
    rfl
  have hplain : (calls.map fun c => (⟨c.body.cut, c.updateidle⟩ : SnacCall)).any
      (fun c => c.updateidle = 1) = false := by
    rw [List.any_map, List.any_eq_false]
    intro c hc
    simp [hidle c hc]
  have hpos : 0 < (numberBytes h.seqnum h.snacreq (calls.map fun c => c.body.cut)).length := by
    obtain ⟨c, calls, rfl⟩ := List.exists_cons_of_ne_nil hne
    rw [List.map_cons, numberBytes_cons, List.length_append]
    simp only [Received.bytes, List.length_append, List.length_cons]
    omega
  rw [sendBatch, snacAddAllToMulti_cut]
  simp only [multiPktInit, List.nil_append]
  rw [flapSendMulti_eq, multiBytes_queued, hbodies, queued_updateidle, hplain,
    Link.write_accepting hf.accepting]
  simp only
  rw [if_neg (by split <;> omega), resetIdle, if_neg (by decide), afterWrite,
    Link.write_accepting hf.accepting, length_queued, List.length_map]
  exact ⟨_, by rw [List.length_map]⟩

theorem sendBatch_speaks {h h₁ : Imcomm} (hs : SameUser h h₁) {calls : List SnacCall}
    (hne : calls ≠ []) (hidle : ∀ c ∈ calls, c.updateidle = 0)
    (hneutral : ∀ c ∈ calls, ∀ data, SnacBody.Neutral ⟨c.body.family, c.body.subtype, data⟩) :
    Speaks h (sendBatch h₁ calls).1 :=
  .of_neutral hs (sendBatch_sentFrom h₁ hne hidle) fun b hb => by
    obtain ⟨c, hc, rfl⟩ := List.mem_map.mp hb
    exact hneutral c hc _

/-! ## the calls -/

/-- The SNAC of a message. -/
def messageBody (whom msg : Str) (automsg : Bool) : SnacBody :=
  SnacBody.cut ⟨0x04, 0x06, (imSendMessagePacket whom msg automsg).data⟩

/-- What goes out with a message: one that is no automatic response ends an
idle period. -/
def messageBodies (h : Imcomm) (whom msg : Str) (automsg : Bool) : List SnacBody :=
  messageBody whom msg automsg :: if automsg then [] else unidleIf h.isidle

theorem imcommImSendMessage_sent {h : Imcomm} (hf : h.Flowing) (whom msg : Str) (automsg : Bool) :
    Sent h (messageBodies h whom msg automsg) (h.isidle && automsg)
      (imcommImSendMessage h whom msg automsg) := by
  obtain ⟨n, fs, hpacket⟩ : ∃ n fs, imSendMessagePacket whom msg automsg =
      pktAddAll (pktInit n) fs := ⟨_, _, rfl⟩
  obtain ⟨pre, hholds⟩ := (holds_pktInit n).addSome fs
  have hsend : imcommImSendMessage h whom msg automsg =
      resetIdle (if automsg then 0 else 1) (wrote h [messageBody whom msg automsg]) := by
    rw [imcommImSendMessage, snacSendpkt, messageBody, hpacket, ← hholds.len_eq]
    exact congrArg Prod.fst (snacSend_cut h ⟨0x04, 0x06, _⟩ _ hf.accepting hf.srvPause)
  have hsent := sent_resetIdle (if automsg then 0 else 1) hf.accepting hf.srvPause
    (wrote_sent h [messageBody whom msg automsg])
  rw [hsend, messageBodies]
  cases automsg <;> exact hsent

/-- **A message.** -/
theorem imcommImSendMessage_tracks {h : Imcomm} (hf : h.Flowing) (whom msg : Str)
    (automsg : Bool) :
    Tracks h (messageBodies h whom msg automsg) (imcommImSendMessage h whom msg automsg) ∧
      SameSettings h (imcommImSendMessage h whom msg automsg) := by
  have hunidle : ∀ b ∈ unidleIf h.isidle, b.isOwn = false := by
    intro b hb
    rw [unidleIf] at hb
    split at hb
    · rw [List.mem_singleton.mp hb]
      rfl
    · cases hb
  have hown : ∀ b ∈ messageBodies h whom msg automsg, b.isOwn = false := by
    refine List.forall_mem_cons.mpr ⟨rfl, ?_⟩
    split
    · exact List.forall_mem_nil _
    · exact hunidle
  have hidle : lastTold h.isidle (messageBodies h whom msg automsg) = (h.isidle && automsg) := by
    have hfirst : lastTold h.isidle [messageBody whom msg automsg] = h.isidle := rfl
    rw [messageBodies, ← List.singleton_append, lastTold_append, hfirst]
    cases automsg <;> cases h.isidle <;> rfl
  have hsent := imcommImSendMessage_sent hf whom msg automsg
  refine ⟨.of_sent hf (.refl h) hsent (fun b hb => SnacBody.fair_of_other h (hown b hb)) hidle, ?_⟩
  obtain ⟨writes, heq⟩ := hsent
  rw [heq]
  exact ⟨rfl, rfl, rfl⟩

/-- What goes out with an idle time: one of more than 600 seconds, if there was
none, or the end of one. -/
def idleBodies (isidle : Bool) (idlesecs : UInt32) : List SnacBody :=
  if 600 < idlesecs then if isidle then [] else [⟨0x01, 0x11, be32 idlesecs⟩]
  else if isidle ∧ idlesecs = 0 then [unidle] else []

theorem imcommSetIdleTime_sent {h : Imcomm} (hf : h.Flowing) (idlesecs : UInt32) :
    Sent h (idleBodies h.isidle idlesecs) (lastTold h.isidle (idleBodies h.isidle idlesecs))
      (imcommSetIdleTime h idlesecs) := by
  have hpacket : pktAddAll (pktInit 4) [.add32 idlesecs] = ⟨be32 idlesecs, 4, 4⟩ := by
    rw [pktAddAll_eq _ (by simp [PktAdd.bytes])]
    simp [PktAdd.bytes]
  rw [idleBodies]
  by_cases hlong : 600 < idlesecs
  · rw [if_pos hlong]
    cases hidle : h.isidle with
    | true =>
      have hsame : imcommSetIdleTime h idlesecs = h := by
        rw [imcommSetIdleTime, if_pos hlong, if_pos hidle]
      rw [hsame, if_pos rfl]
      exact hidle ▸ Sent.refl h
    | false =>
      have hsend : imcommSetIdleTime h idlesecs =
          wrote { h with isidle := true } [⟨0x01, 0x11, be32 idlesecs⟩] := by
        rw [imcommSetIdleTime, if_pos hlong, if_neg (by simp [hidle]), hpacket]
        exact congrArg Prod.fst (snacSend_plain { h with isidle := true }
          ⟨0x01, 0x11, be32 idlesecs⟩ hf.accepting hf.srvPause (by simp))
      have htold : lastTold false [⟨0x01, 0x11, be32 idlesecs⟩] = true := by
        simp [lastTold, hlong]
      rw [if_neg Bool.false_ne_true, hsend, htold]
      exact ⟨_, rfl⟩
  · rw [if_neg hlong]
    by_cases hend : h.isidle = true ∧ idlesecs = 0
    · obtain ⟨hidle, rfl⟩ := hend
      have htold : lastTold h.isidle [unidle] = false := by simp [lastTold, unidle]
      rw [if_pos ⟨hidle, rfl⟩, htold]
      exact imcommSetIdleTime_zero h hf.accepting hf.srvPause hidle
    · have hsame : imcommSetIdleTime h idlesecs = h := by
        rw [imcommSetIdleTime, if_neg hlong, if_neg hend]
      rw [hsame, if_neg hend]
      exact Sent.refl h

omit [Host] in
/-- They are short, and idle times. -/
theorem idleBodies_forall {p : SnacBody → Prop} (hp : ∀ secs, p ⟨0x01, 0x11, be32 secs⟩)
    (isidle : Bool) (idlesecs : UInt32) : ∀ b ∈ idleBodies isidle idlesecs, p b := by
  rw [idleBodies]
  split
  · split
    · exact List.forall_mem_nil _
    · exact List.forall_mem_singleton.mpr (hp idlesecs)
  · split
    · exact List.forall_mem_singleton.mpr (hp 0)
    · exact List.forall_mem_nil _

/-- **An idle time.** -/
theorem imcommSetIdleTime_speaks (h : Imcomm) (idlesecs : UInt32) :
    Speaks h (imcommSetIdleTime h idlesecs) :=
  .of_sent (.refl h) (fun hf => imcommSetIdleTime_sent hf idlesecs)
    (idleBodies_forall (fun _ => SnacBody.fair_of_other h rfl) h.isidle idlesecs) rfl
    (idleBodies_forall (fun _ => rfl) h.isidle idlesecs)

/-- **A request** for a profile or an away message, or for both. -/
theorem request_speaks (h : Imcomm) (sn : Str) : Speaks h (imcommRequestAwayprofile h sn) ∧
    Speaks h (imcommRequestProfile h sn) ∧ Speaks h (imcommRequestAwaymsg h sn) := by
  refine ⟨sendBatch_speaks (.refl h) (List.cons_ne_nil _ _) (by simp) ?_,
    snacSendpkt_speaks h ⟨_, _, rfl⟩ fun _ => ⟨⟨rfl, rfl⟩, rfl⟩,
    snacSendpkt_speaks h ⟨_, _, rfl⟩ fun _ => ⟨⟨rfl, rfl⟩, rfl⟩⟩
  simp only [List.forall_mem_cons, List.not_mem_nil, false_imp_iff, implies_true, and_true]
  exact ⟨fun _ => ⟨⟨rfl, rfl⟩, rfl⟩, fun _ => ⟨⟨rfl, rfl⟩, rfl⟩⟩

omit [Host] in
theorem SameUser.withList (h : Imcomm) (buddylist : List RosterBuddy) :
    SameUser h { h with buddylist := buddylist } :=
  ⟨⟨rfl, rfl, rfl, rfl, rfl, rfl, rfl, rfl⟩, rfl, rfl, rfl, rfl⟩

theorem ssiChange_speaks {h h₁ : Imcomm} (hs : SameUser h h₁) (subtype : UInt16) (packet : Pkt) :
    Speaks h (ssiChange h₁ subtype packet) := by
  refine sendBatch_speaks hs (List.cons_ne_nil _ _) (by simp) ?_
  simp only [List.forall_mem_cons, List.not_mem_nil, false_imp_iff, implies_true, and_true]
  exact ⟨fun _ => ⟨⟨rfl, rfl⟩, rfl⟩, fun _ => ⟨⟨rfl, rfl⟩, rfl⟩, fun _ => ⟨⟨rfl, rfl⟩, rfl⟩⟩

/-- **A buddy more.** -/
theorem imcommImAddBuddy_speaks {garbage : UInt16} {h h' : Imcomm} {sn : Str}
    (hadd : imcommImAddBuddy garbage h sn = some h') : Speaks h h' := by
  simp only [imcommImAddBuddy] at hadd
  split at hadd
  · rw [← Option.some.inj hadd]
    exact Speaks.refl h
  · split at hadd
    · cases hadd
    · rw [← Option.some.inj hadd]
      exact ssiChange_speaks (.withList h _) 0x08 _

/-- **A buddy less.** -/
theorem imcommImRemoveBuddy_speaks (h : Imcomm) (sn : Str) :
    Speaks h (imcommImRemoveBuddy h sn) := by
  have hsame (h : Imcomm) : SameUser h (imcommInternalDeleteBuddy h sn) :=
    ⟨⟨rfl, rfl, rfl, rfl, rfl, rfl, rfl, rfl⟩, rfl, rfl, rfl, rfl⟩
  rw [imcommImRemoveBuddy]
  split
  · exact Speaks.of_same ((SameUser.withList h _).trans (hsame _))
  · exact ssiChange_speaks ((SameUser.withList h _).trans (hsame _)) 0x0a _

/-- **The buddies of a file.** -/
theorem loadBuddylist_speaks (garbage : Nat → UInt16) (home : Option Str) (fopen : Files)
    (h : Imcomm) : Ensures (loadBuddylist garbage home fopen h) (Speaks h) := by
  cases hfile : fopen (userFile home (ascii "buddies")) with
  | none =>
    refine Ensures.read fun buf _ => ?_
    rw [hfile]
    exact Ensures.pure (.refl h)
  | some buddy =>
    rw [loadBuddylist_eq garbage home hfile]
    refine Ensures.foldlM (fun h' line hs => ?_) _ (.refl h)
    rw [addLine]
    cases buddyName line with
    | none => exact Ensures.error
    | some sn =>
      simp only
      cases hadd : imcommImAddBuddy (garbage h'.buddylist.length) h' sn with
      | none => exact Ensures.error
      | some h'' => exact Ensures.ok (hs.trans (imcommImAddBuddy_speaks hadd))

/-- A setting brings no idle time and no message. -/
theorem Setting.bodies_still (h : Imcomm) (s : Setting) : ∀ b ∈ s.bodies h, b.Still := by
  have hif (p : Prop) [Decidable p] (h : Imcomm) :
      ∀ b ∈ if p then locationBodies h else [], b.Still := by
    split
    · exact List.forall_mem_cons.mpr ⟨⟨rfl, rfl⟩, List.forall_mem_singleton.mpr ⟨rfl, rfl⟩⟩
    · exact List.forall_mem_nil _
  cases s with
  | setProfile profile => exact hif (h.socket ≠ 0) _
  | setAway msg => exact hif (h.socket ≠ 0) _
  | setUnaway => exact hif (h.isaway ∧ h.socket ≠ 0) _
  | setInvisible inv => exact List.forall_mem_singleton.mpr ⟨rfl, rfl⟩

/-- **A setting** on a handle that has a socket. -/
theorem Setting.run_tracks {h : Imcomm} (hf : h.Flowing) (hsocket : h.socket ≠ 0) (s : Setting) :
    Tracks h (s.bodies h) (s.run h) := by
  have hsame := s.change_same h
  have hheard := s.heard hf hsocket
  have hidle : ∀ b ∈ s.bodies h, b.isIdle = false := fun b hb => (s.bodies_still h b hb).idle
  have hready := countP_fair (s.bodies_fair h)
  have hflowing := hsame.flowing hf
  have hsent := s.run_sent h hflowing
  generalize s.run h = h' at hheard hsent ⊢
  have hflowing' : h'.Flowing :=
    ⟨hsent.accepting hflowing.accepting, hsent.srvPause.trans hflowing.srvPause⟩
  obtain ⟨writes, rfl⟩ := hsent
  exact {
    flowing := hflowing'
    ischild := hsame.ischild
    socket := hsame.socket
    wire := by rw [← hsame.link, ← hsame.seqnum, ← hsame.snacreq]
    seqnum := by rw [← hsame.seqnum]
    snacreq := by rw [← hsame.snacreq]
    connected := by rw [hready, Nat.add_zero, ← hsame.connected]
    isidle := by rw [lastTold_of_idle hidle, ← hsame.isidle]
    view := hheard }

end

end Bsflite
