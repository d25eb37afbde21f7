import Bsflite.Message
import Bsflite.Presence
import Bsflite.Typing
import Bsflite.Whole

/-!
# Bsflite.Hearing

A client that talks without OTR: what it says and hears when a line is typed or
a message is delivered.

* `Talks` — such a client, which the server can reach.
* `Talked` — what a step says, hears and writes.
* `Talks.enters`, `Talks.snacDecode` — a line, and a delivery.
* `Talks.endIdle`, `Talks.beginIdle` — the idle periods.
-/

namespace Bsflite

open LinkedList

/-! ## what is heard -/

/-- A message in the log that somebody else said. -/
structure Heard where
  who : Str
  text : Str
  automsg : Bool
deriving DecidableEq, Repr

/-- The message that an entry of the trace shows, if it shows one. -/
def Traced.heard : Traced → Option Heard
  | .logged .im sn (some msg) => some ⟨sn, msg, false⟩
  | .logged .imAutoresponse sn (some msg) => some ⟨sn, msg, true⟩
  | _ => none

/-- What a client has logged of others, the first one first. -/
def Client.heard (c : Client) : List Heard := (c.trace.filterMap Traced.heard).reverse

/-- What is heard of a message: nothing, if nothing of it is shown. -/
def heardOf (who : Str) (automessage : Bool) (message : Str) : List Heard :=
  if stripHtml message = [] then [] else [⟨simplifySn who, stripHtml message, automessage⟩]

/-- A message whose SNAC is not cut, with a recipient that can be read back. -/
structure Said.Fits (m : Said) : Prop where
  whom : m.whom.length ≤ 255
  text : m.text.length ≤ 1023
  no_nul : 0 ∉ m.text

/-! ## who talks -/

/-- The client runs and is connected, has its lists in order, does without OTR
and the filter, and logs.  Its away message, if any, has no more bytes than a
line of the file of away messages. -/
structure Talks (w : World Client) : Prop where
  coupled : Coupled w
  flowing : w.handle.Flowing
  ischild : w.handle.ischild = false
  conn : w.client.conn.conn = true
  otr : w.client.conn.otr = false
  netspeakFilter : w.client.conn.netspeakFilter = false
  logging : w.client.logging = true
  plain : ∀ k, (w.client.contexts k).msgstate ≠ .encrypted
  away : w.client.conn.isaway = true →
    ∃ msg, w.client.conn.awaymsg = some msg ∧ msg.length ≤ 1023 ∧ 0 ∉ msg

/-- The SNACs `out`, none of them cut, are what `h'` wrote after `h`. -/
structure Wrote (h : Imcomm) (out : List SnacBody) (h' : Imcomm) : Prop where
  small : ∀ b ∈ out, b.data.length ≤ 65525
  wire : h'.link.wire = h.link.wire ++ numberBytes h.seqnum h.snacreq out
  seqnum : h'.seqnum = h.seqnum + UInt16.ofNat out.length
  snacreq : h'.snacreq = h.snacreq + UInt32.ofNat out.length

theorem Wrote.refl (h : Imcomm) : Wrote h [] h := ⟨List.forall_mem_nil _, by simp, by simp, by simp⟩

theorem Wrote.trans {h h' h'' : Imcomm} {out out' : List SnacBody} (h1 : Wrote h out h')
    (h2 : Wrote h' out' h'') : Wrote h (out ++ out') h'' where
  small := List.forall_mem_append.mpr ⟨h1.small, h2.small⟩
  wire := by rw [h2.wire, h1.wire, h1.seqnum, h1.snacreq, numberBytes_append, List.append_assoc]
  seqnum := by rw [h2.seqnum, h1.seqnum, List.length_append, UInt16.ofNat_add, UInt16.add_assoc]
  snacreq := by rw [h2.snacreq, h1.snacreq, List.length_append, UInt32.ofNat_add, UInt32.add_assoc]

section
variable [Host]

/-- A step of a client that talks: it says `ms` and hears `hs`. -/
structure Talked (w : World Client) (ms : List Said) (hs : List Heard) (w' : World Client) :
    Prop where
  talks : Talks w'
  said : w'.client.said = w.client.said ++ ms
  heard : w'.client.heard = w.client.heard ++ hs
  fits : ∀ m ∈ ms, m.Fits
  wrote : ∃ out, Wrote w.handle out w'.handle ∧
    out.filter SnacBody.isMessage = ms.map Said.body

namespace Talked

variable {w w' w'' : World Client} {ms ms' : List Said} {hs hs' : List Heard}

theorem trans (h1 : Talked w ms hs w') (h2 : Talked w' ms' hs' w'') :
    Talked w (ms ++ ms') (hs ++ hs') w'' := by
  obtain ⟨out, hwrote, hout⟩ := h1.wrote
  obtain ⟨out', hwrote', hout'⟩ := h2.wrote
  exact ⟨h2.talks, by rw [h2.said, h1.said, List.append_assoc],
    by rw [h2.heard, h1.heard, List.append_assoc], List.forall_mem_append.mpr ⟨h1.fits, h2.fits⟩,
    _, hwrote.trans hwrote', by rw [List.filter_append, hout, hout', List.map_append]⟩

/-- A step that writes nothing. -/
theorem of_silent (hw : Talks w') (hsaid : w'.client.said = w.client.said)
    (hheard : w'.client.heard = w.client.heard ++ hs) (hlink : w'.handle.link = w.handle.link)
    (hseqnum : w'.handle.seqnum = w.handle.seqnum)
    (hsnacreq : w'.handle.snacreq = w.handle.snacreq) : Talked w [] hs w' :=
  ⟨hw, by rw [hsaid, List.append_nil], hheard, List.forall_mem_nil _, [],
    ⟨List.forall_mem_nil _, by simp [hlink], by simp [hseqnum], by simp [hsnacreq]⟩, rfl⟩

theorem refl (hw : Talks w) : Talked w [] [] w :=
  of_silent hw rfl (List.append_nil _).symm rfl rfl rfl

end Talked

/-! ## small steps -/

variable {w : World Client}

omit [Host] in
theorem Coupled.running (h : Coupled w) : w.client.crash = none := by
  obtain ⟨ns, online, hintact, -⟩ := h
  exact hintact.running

omit [Host] in
/-- What only the trace, the waiting list and the last correspondent know. -/
theorem Coupled.with_client (h : Coupled w) {c : Client} (hcrash : c.crash = w.client.crash)
    (hheap : c.heap = w.client.heap) (hlist : c.buddylist = w.client.buddylist)
    (honline : c.conn.buddiesonline = w.client.conn.buddiesonline) :
    Coupled { w with client := c } := by
  obtain ⟨ns, online, hintact, hm⟩ := h
  obtain ⟨xs, hxs, hns⟩ := hintact.shows
  refine ⟨ns, online, ⟨hcrash.trans hintact.running, ⟨xs, ?_, hns⟩, honline.trans hintact.count,
    hintact.lib⟩, hm⟩
  show IsList c.heap c.buddylist xs
  rw [hheap, hlist]
  exact hxs

omit [Host] in
/-- Sends leave the lists alone. -/
theorem Coupled.with_sends (h : Coupled w) {h' : Imcomm} (hframe : SendFrame w.handle h') :
    Coupled { w with handle := h' } := by
  obtain ⟨ns, online, hintact, hm⟩ := h
  obtain ⟨link, seqnum, snacreq, isidle, rfl⟩ := hframe
  exact ⟨ns, online, ⟨hintact.running, hintact.shows, hintact.count, hintact.lib⟩, hm⟩

namespace Talks

omit [Host] in
theorem running (hw : Talks w) : w.client.crash = none := hw.coupled.running

/-- An entry in the trace. -/
theorem traced (hw : Talks w) {t : Traced} (hsaid : t.said = none) :
    Talked w [] t.heard.toList (w.traced t) := by
  have htalks : Talks (w.traced t) :=
    { hw with coupled := hw.coupled.with_client rfl rfl rfl rfl }
  refine .of_silent htalks ?_ ?_ rfl rfl rfl
  · rw [Client.said, Client.said, World.traced, List.filterMap_cons_none hsaid]
  · rw [Client.heard, Client.heard, World.traced]
    cases hheard : t.heard with
    | none => rw [List.filterMap_cons_none hheard]; simp
    | some m => rw [List.filterMap_cons_some hheard]; simp

omit [Host] in
/-- Nothing keeps a line from the log. -/
theorem logEvent_eq (hw : Talks w) (event : LogEvent) (sn : Str) (msg : Option Str) :
    w.logEvent event sn msg = w.traced (.logged event sn msg) := by
  obtain ⟨ns, online, hintact, -⟩ := hw.coupled
  have hplain (b : Option Buddy) : b.any w.client.encrypted = false := by
    cases b with
    | none => rfl
    | some b =>
      rw [Option.any_some, Client.encrypted]
      cases b.otrContext with
      | none => rfl
      | some k => simp [hw.plain k]
  rw [World.logEvent, if_pos hw.logging, hintact.findBuddy_eq]
  simp [hplain]

/-- A line in the log. -/
theorem logEvent (hw : Talks w) (event : LogEvent) (sn : Str) (msg : Option Str) :
    Talked w [] (Traced.heard (.logged event sn msg)).toList (w.logEvent event sn msg) := by
  rw [hw.logEvent_eq]
  exact hw.traced rfl

/-- The last correspondent, and those who wait. -/
theorem note (hw : Talks w) (lastsn : Option Str) (waiting : List Str) :
    Talked w [] [] { w with client := { w.client with
      conn := { w.client.conn with lastsn := lastsn }, waiting := waiting } } := by
  have htalks : Talks { w with client := { w.client with
      conn := { w.client.conn with lastsn := lastsn }, waiting := waiting } } :=
    { hw with coupled := hw.coupled.with_client rfl rfl rfl rfl }
  exact .of_silent htalks rfl (List.append_nil _).symm rfl rfl rfl

/-- A message goes out. -/
theorem imSend (hw : Talks w) {m : Said} (hm : m.Fits) :
    Talked w [m] [] (w.imSend m.whom m.text m.automsg) := by
  have hbody : (imSendMessagePacket m.whom m.text m.automsg).data.length ≤ 65525 := by
    have hwhom := hm.whom
    have htext := hm.text
    rw [imSendMessagePacket_data]
    cases m.automsg <;> simp <;> omega
  have hunidle : ∀ b ∈ unidleIf w.handle.isidle, b.data.length ≤ 65525 ∧ b.isMessage = false := by
    rw [unidleIf]
    split
    · exact List.forall_mem_singleton.mpr ⟨by decide, rfl⟩
    · exact List.forall_mem_nil _
  obtain ⟨htracks, -⟩ := imcommImSendMessage_tracks hw.flowing m.whom m.text m.automsg
  have hcoupled : Coupled (w.imSend m.whom m.text m.automsg) := by
    obtain ⟨ns, online, hintact, hm⟩ := hw.coupled
    exact ⟨ns, online, imSend_intact hintact _ _ _, hm⟩
  have htalks : Talks (w.imSend m.whom m.text m.automsg) :=
    { hw with
      coupled := hcoupled
      flowing := htracks.flowing
      ischild := htracks.ischild.trans hw.ischild }
  refine ⟨htalks, List.reverse_cons, (List.append_nil _).symm, List.forall_mem_singleton.mpr hm,
    messageBodies w.handle m.whom m.text m.automsg, ⟨?_, htracks.wire, htracks.seqnum,
    htracks.snacreq⟩, ?_⟩
  · refine List.forall_mem_cons.mpr ⟨?_, ?_⟩
    · rw [messageBody, SnacBody.cut_of_le (hbody.trans (by decide))]
      exact hbody
    · split
      · exact List.forall_mem_nil _
      · exact fun b hb => (hunidle b hb).1
  · have hrest : (if m.automsg then [] else unidleIf w.handle.isidle).filter
        SnacBody.isMessage = [] := by
      split
      · rfl
      · exact List.filter_eq_nil_iff.mpr fun b hb => by simp [(hunidle b hb).2]
    rw [messageBodies, List.filter_cons_of_pos rfl, hrest]
    rfl

/-! ## idle periods -/

/-- An idle time is told. -/
theorem setIdle (hw : Talks w) (idlesecs : UInt32) :
    Talked w [] [] { w with handle := imcommSetIdleTime w.handle idlesecs } := by
  have hcoupled := hw.coupled.with_sends (imcommSetIdleTime_frame w.handle idlesecs)
  have hsent := imcommSetIdleTime_sent hw.flowing idlesecs
  have hsmall : ∀ b ∈ idleBodies w.handle.isidle idlesecs, b.data.length ≤ 65525 :=
    idleBodies_forall (fun _ => by simp) _ _
  have hmessage : (idleBodies w.handle.isidle idlesecs).filter SnacBody.isMessage = [] :=
    List.filter_eq_nil_iff.mpr (idleBodies_forall (fun _ => Bool.false_ne_true) _ _)
  have hflowing : (imcommSetIdleTime w.handle idlesecs).Flowing :=
    ⟨hsent.accepting hw.flowing.accepting, hsent.srvPause.trans hw.flowing.srvPause⟩
  obtain ⟨writes, heq⟩ := hsent
  rw [heq] at hcoupled hflowing ⊢
  exact ⟨{ hw with coupled := hcoupled, flowing := hflowing }, (List.append_nil _).symm,
    (List.append_nil _).symm, List.forall_mem_nil _, _, ⟨hsmall, rfl, rfl, rfl⟩, hmessage⟩

/-- It is shown. -/
theorem showIdle (hw : Talks w) (isidle : Bool) :
    Talked w [] [] (w.setConn { w.client.conn with isidle := isidle }) := by
  have htalks : Talks (w.setConn { w.client.conn with isidle := isidle }) :=
    { hw with coupled := hw.coupled.with_client rfl rfl rfl rfl }
  exact .of_silent htalks rfl (List.append_nil _).symm rfl rfl rfl

/-- **A key.** -/
theorem endIdle (hw : Talks w) : Talked w [] [] (endIdle w) := by
  have htold := hw.setIdle 0
  rw [Bsflite.endIdle]
  split
  · rw [if_pos hw.conn]
    exact htold.trans (htold.talks.showIdle false)
  · exact .refl hw

/-- **An idle period.** -/
theorem beginIdle (hw : Talks w) (elapsed : Int) : Talked w [] [] (beginIdle w elapsed) := by
  have hshown := hw.showIdle true
  rw [Bsflite.beginIdle]
  simp only
  rw [if_pos hshown.talks.conn]
  exact hshown.trans (hshown.talks.setIdle (uint32 elapsed))

/-! ## a message arrives -/

/-- The automatic response. -/
theorem awaitAnswer (hw : Talks w) {who : Str} (hwho : who.length ≤ 255) (automessage : Bool) :
    ∃ ms, Talked w ms [] (awaitAnswer w who automessage) ∧ ∀ m ∈ ms, m.automsg = true := by
  have hnote := hw.note w.client.conn.lastsn (w.client.waiting ++ [who])
  rw [Bsflite.awaitAnswer]
  split
  · exact ⟨[], .refl hw, List.forall_mem_nil _⟩
  · simp only
    split
    · next hauto =>
      obtain ⟨msg, hmsg, hlen, hnul⟩ := hw.away (by
        rw [BsfConn.autoResponds, Bool.and_eq_true, Bool.and_eq_true] at hauto
        exact hauto.1.1)
      rw [hmsg]
      have hsend := hnote.talks.imSend (m := ⟨who, msg, true⟩) ⟨hwho, hlen, hnul⟩
      exact ⟨_, hnote.trans hsend, List.forall_mem_singleton.mpr rfl⟩
    · exact ⟨[], hnote, List.forall_mem_nil _⟩

omit [Host] in
theorem filterText_eq (hw : Talks w) (message : Str) :
    filterText w.client.conn message =
      if stripHtml message = [] then none else some (stripHtml message) := by
  rw [filterText, hw.netspeakFilter]
  split
  · rfl
  · next hshown => exact if_neg hshown

/-- **A message**, and what it is answered with. -/
theorem getmessage (hw : Talks w) (libotr : Libotr) {who : Str} (hwho : who.length ≤ 255)
    (automessage : Bool) (message : Str) :
    ∃ ms, Talked w ms (heardOf who automessage message)
        (getmessage libotr w who automessage message) ∧ ∀ m ∈ ms, m.automsg = true := by
  have hreceive : receiveOtr libotr w who message = (w, some message) := by
    rw [receiveOtr, if_neg (by simp [hw.otr])]
  rw [getmessage_eq, hreceive, World.alive_of_running hw.running, Option.bind_some,
    hw.filterText_eq, heardOf]
  split
  · exact ⟨[], .refl hw, List.forall_mem_nil _⟩
  · obtain ⟨lastsn, hlast⟩ := setLastsn_eq w (simplifySn who)
    have hnote : Talked w [] [] (setLastsn w (simplifySn who)) := by
      rw [hlast]
      exact hw.note lastsn w.client.waiting
    obtain ⟨ms, hanswer, hauto⟩ := hnote.talks.awaitAnswer hwho automessage
    have hlog := hanswer.talks.logEvent (if automessage then .imAutoresponse else .im)
      (simplifySn who) (some (stripHtml message))
    have htalked := hnote.trans (hanswer.trans hlog)
    rw [List.nil_append, List.append_nil] at htalked
    refine ⟨ms, ?_, hauto⟩
    simp only [World.alive_of_running hanswer.talks.running]
    cases automessage <;> exact htalked

end Talks

/-! ## the times of a buddy -/

/-- Nothing changes but the lists of buddies, and whether the client runs. -/
def OnlyLists (w w' : World Client) : Prop :=
  ∃ online heap crash, w' =
    { w with
      handle := { w.handle with buddiesOnline := online }
      client := { w.client with heap := heap, crash := crash } }

namespace OnlyLists

omit [Host] in
theorem refl (w : World Client) : OnlyLists w w :=
  ⟨w.handle.buddiesOnline, w.client.heap, w.client.crash, rfl⟩

omit [Host] in
theorem trans {w w' w'' : World Client} (h1 : OnlyLists w w') (h2 : OnlyLists w' w'') :
    OnlyLists w w'' := by
  obtain ⟨online, heap, crash, rfl⟩ := h1
  obtain ⟨online', heap', crash', rfl⟩ := h2
  exact ⟨online', heap', crash', rfl⟩

omit [Host] in
theorem crashes (w : World Client) (k : Crash) : OnlyLists w (w.crashes k) := by
  rw [World.crashes]
  split
  · exact refl w
  · exact ⟨w.handle.buddiesOnline, w.client.heap, some k, rfl⟩

omit [Host] in
theorem withBuddy (w : World Client) (who : Str) (f : Buddy → Buddy) :
    OnlyLists w (w.withBuddy who f) := by
  rw [World.withBuddy]
  split
  · exact crashes w .wild
  · exact refl w
  · rw [World.updateBuddy]
    split
    · next heap _ => exact ⟨w.handle.buddiesOnline, heap, w.client.crash, rfl⟩
    · exact crashes w .wild

variable (libotr : Libotr) (others : Callback → World Client → World Client)

/-- `imcomm_idleinfo` -/
theorem idleinfo (w : World Client) (sn : Str) (value : Nat) :
    OnlyLists w (w.fire (bsflite libotr others) (.imIdleinfo sn value)) := by
  have hcall : w.fire (bsflite libotr others) (.imIdleinfo sn value) =
      w.alive fun w => buddyIdle w sn value := rfl
  rw [hcall, World.alive]
  split
  · exact refl w
  · exact withBuddy w sn _

/-- `imcomm_update_buddy_times` -/
theorem updateBuddyTimes (w : World Client) (sn : Str) (type value : Nat) :
    OnlyLists w (imcommUpdateBuddyTimes (bsflite libotr others) w sn type value) := by
  have hstep (w : World Client) (i : Nat) :
      OnlyLists w (imcommUpdateBuddyTimesAt (bsflite libotr others) sn type value w i) := by
    have hset (trav : OnlineBuddy) : OnlyLists w (w.setOnline i trav) := ⟨_, _, _, rfl⟩
    rw [imcommUpdateBuddyTimesAt]
    split
    · split
      · split
        · exact (hset _).trans (idleinfo libotr others _ sn value)
        · exact hset _
        · exact refl w
      · exact refl w
    · exact refl w
  rw [imcommUpdateBuddyTimes]
  generalize List.range _ = is
  induction is generalizing w with
  | nil => exact refl w
  | cons i is ih => exact (hstep w i).trans (ih _)

end OnlyLists

/-- Lists that are in order again. -/
theorem Talks.lists {w w' : World Client} (hw : Talks w) (hlists : OnlyLists w w')
    (hcoupled : Coupled w') : Talked w [] [] w' := by
  obtain ⟨online, heap, crash, rfl⟩ := hlists
  have htalks : Talks { w with
      handle := { w.handle with buddiesOnline := online }
      client := { w.client with heap := heap, crash := crash } } :=
    { hw with coupled := hcoupled, flowing := ⟨hw.flowing.accepting, hw.flowing.srvPause⟩ }
  exact .of_silent htalks rfl (List.append_nil _).symm rfl rfl rfl

/-- What keeps the lists in order, and nothing else changes. -/
structure Orders (act : World Client → World Client) : Prop extends KeepsLists act where
  lists : ∀ w, OnlyLists w (act w)

section
variable (libotr : Libotr) (others : Callback → World Client → World Client)

omit [Host] in
theorem orders_id : Orders id := ⟨keepsLists_id, OnlyLists.refl⟩

omit [Host] in
theorem Orders.comp (f g : World Client → World Client) (hf : Orders f) (hg : Orders g) :
    Orders (g ∘ f) :=
  ⟨hf.toKeepsLists.comp f g hg.toKeepsLists, fun w => (hf.lists w).trans (hg.lists (f w))⟩

/-- The loop of `snac_get_incoming_im` over what the server says of the sender. -/
theorem incomingTlv_orders (sn : Str) (autoResp : Bool) (trav : Tlv) :
    Acts (fun act _ => Orders act)
      fun w => incomingTlv (bsflite libotr others) sn (w, autoResp) trav := by
  simp only [incomingTlv]
  split
  · exact Acts.read fun v _ => Acts.ok ⟨keepsLists_onlinetime libotr others sn _,
      fun w => .updateBuddyTimes libotr others w sn 2 _⟩
  · exact Acts.skip orders_id

/-! ## a message is delivered -/

/-- **A delivery**: the text is heard, and may be answered. -/
theorem Talks.snacGetIncomingIm {w : World Client} (hw : Talks w) (r : Relay) {msg : Str}
    (automsg : Bool) (h : msg.length < 65536 - 17) (hmsg : 0 ∉ msg)
    (hlen : (r.payload (tlvBytes (messageTlvs msg automsg h))).length ≤ 65535) :
    ∃ w' ms, snacGetIncomingIm (bsflite libotr others) w
        (r.payload (tlvBytes (messageTlvs msg automsg h)))
        (r.payload (tlvBytes (messageTlvs msg automsg h))).length = .ok (w', .ok) ∧
      Talked w ms (heardOf r.sender automsg msg) w' ∧ ∀ m ∈ ms, m.automsg = true := by
  have honline : ∀ t ∈ messageTlvs msg automsg h, t.type = 0x0003 → t.value.val.length = 4 := by
    cases automsg <;> simp [messageTlvs]
  obtain ⟨w₁, hfold, -⟩ := foldlM_relay (bsflite libotr others) w r _ honline
  -- the online times
  have hfirst : Talked w [] [] w₁ := by
    rcases Acts.foldlM orders_id Orders.comp (incomingTlv_orders libotr others r.sender)
      (r.info ++ messageTlvs msg automsg h) false with ⟨fault, hfault⟩ | ⟨act, auto, hact, hrun⟩
    · cases (hfault w).symm.trans hfold
    · obtain rfl : act w = w₁ := congrArg Prod.fst (Except.ok.inj ((hrun w).symm.trans hfold))
      obtain ⟨bs, hbs⟩ := hw.coupled.exists_with
      exact hw.lists (hact.lists w) (hact.coupled bs w hbs).coupled
  -- somebody who writes is not idle
  have hsecond :
      Talked w₁ [] [] (imcommUpdateBuddyTimes (bsflite libotr others) w₁ r.sender 1 0) := by
    obtain ⟨bs, hbs⟩ := hfirst.talks.coupled.exists_with
    obtain ⟨bs', hbs', -⟩ := updateIdletime_becomes libotr others hbs r.sender 0
    exact hfirst.talks.lists (.updateBuddyTimes libotr others w₁ r.sender 1 0) hbs'.coupled
  obtain ⟨w₂, hw₂, hbefore⟩ : ∃ w₂, (if (messageTlvs msg automsg h).any (fun t =>
      decide (t.type = 0x0004 ∧ t.len = 0)) then w₁ else
      imcommUpdateBuddyTimes (bsflite libotr others) w₁ r.sender 1 0) = w₂ ∧ Talked w [] [] w₂ := by
    refine ⟨_, rfl, ?_⟩
    split
    · exact hfirst
    · exact hfirst.trans hsecond
  have hauto : (messageTlvs msg automsg h).any (fun t => decide (t.type = 0x0004 ∧ t.len = 0)) =
      automsg := by
    cases automsg <;> simp [messageTlvs, Tlv.len_eq_zero_iff]
  obtain ⟨ms, hheard, hms⟩ := hbefore.talks.getmessage libotr r.sender_length automsg msg
  refine ⟨_, ms, ?_, hbefore.trans hheard, hms⟩
  rw [snacGetIncomingIm_relay _ r _ hlen hfold, hw₂, hauto,
    incomingDeliver_messageTlvs _ _ _ _ _ _ _ hmsg, fire_bsflite libotr hbefore.talks.running]
  rfl

/-- The SNAC (04,07) that brings it. -/
theorem Talks.snacDecode [Network] {w : World Client} (hw : Talks w) (r : Relay) {msg : Str}
    (automsg : Bool) (h : msg.length < 65536 - 17) (hmsg : 0 ∉ msg)
    (hlen : (r.payload (tlvBytes (messageTlvs msg automsg h))).length ≤ 65535)
    {flags : UInt16} {reqid : UInt32}
    (hheader : r.header.toList = be16 0x04 ++ (be16 0x07 ++ (be16 flags ++ be32 reqid))) :
    ∃ w' ms, snacDecode (bsflite libotr others) w
        (r.payload (tlvBytes (messageTlvs msg automsg h)))
        (uint16 (r.payload (tlvBytes (messageTlvs msg automsg h))).length) = .ok (w', .ok) ∧
      Talked w ms (heardOf r.sender automsg msg) w' ∧ ∀ m ∈ ms, m.automsg = true := by
  obtain ⟨w', ms, hparse, htalked, hms⟩ := hw.snacGetIncomingIm libotr others r automsg h hmsg hlen
  have hrest := r.length_payload (tlvBytes (messageTlvs msg automsg h))
  obtain ⟨rest, hbytes⟩ : ∃ rest, r.payload (tlvBytes (messageTlvs msg automsg h)) =
      be16 0x04 ++ (be16 0x07 ++ (be16 flags ++ rest)) := by
    simp only [Relay.payload, Relay.front, hheader, List.append_assoc]
    exact ⟨_, rfl⟩
  generalize r.payload (tlvBytes (messageTlvs msg automsg h)) = data at *
  have hlong : ¬ uint16 data.length ≤ 4 := by
    rw [UInt16.le_iff_toNat_le, toNat_uint16_of_lt (by omega), Nat.not_le]
    show 4 < data.length
    omega
  have hfamily : twoTo16 data = .ok 0x04 := by rw [hbytes, twoTo16_be16_append]
  have hsubfamily : twoTo16 (data.drop 2) = .ok 0x07 := by
    rw [hbytes, List.drop_left' (length_be16 _), twoTo16_be16_append]
  have hflags : twoTo16 (data.drop 4) = .ok flags := by
    have hdrop : data.drop 4 = be16 flags ++ rest := by rw [hbytes]; rfl
    rw [hdrop, twoTo16_be16_append]
  refine ⟨w', ms, ?_, htalked, hms⟩
  rw [Bsflite.snacDecode, if_neg hlong, hfamily, ok_bind, hsubfamily, ok_bind, hflags, ok_bind,
    if_neg (by simp [hw.ischild])]
  simp only [toNat_uint16_of_lt (Nat.lt_succ_of_le hlen)]
  exact hparse

end

namespace Talks

/-! ## a line is typed -/

/-- **The command `m`.** -/
theorem inputSendMessage (hw : Talks w) (libotr : Libotr) {whom text : Str}
    (hm : Said.Fits ⟨whom, text, false⟩) (hblank : 32 ∉ whom) (hne : text ≠ []) :
    Talked w [⟨whom, text, false⟩] [] (inputSendMessage libotr w (whom ++ 32 :: text)) := by
  have hfind : (whom ++ 32 :: text).findIdx? (· = 32) = some whom.length := by
    have hnone : whom.findIdx? (fun c => decide (c = 32)) = none := by
      refine List.findIdx?_eq_none_iff.mpr fun c hc => decide_eq_false ?_
      rintro rfl
      exact hblank hc
    rw [List.findIdx?_append, hnone, List.findIdx?_cons]
    simp
  have hrest : (whom ++ 32 :: text).drop (whom.length + 1) = text := by
    rw [← List.drop_drop, List.drop_left]
    rfl
  have hsplit : splitCommand (whom ++ 32 :: text) = some (whom, text) := by
    rw [splitCommand, hfind]
    simp only
    rw [hrest, if_neg hne, List.take_left]
  have hsend := hw.imSend hm
  have hnote := hsend.talks.note (some whom) w.client.waiting
  have hlog := hnote.talks.logEvent .imsend whom (some text)
  have hcall : otrImcommImSendMessage libotr w whom text = (w.imSend whom text false, 1) := by
    rw [otrImcommImSendMessage, if_neg (by simp [hw.otr])]
  rw [Bsflite.inputSendMessage, if_pos hw.conn, hsplit]
  simp only [hw.netspeakFilter, Bool.false_eq_true, if_false, hcall]
  rw [World.alive_of_running hsend.talks.running]
  exact hsend.trans (hnote.trans hlog)

/-- **A line with a message.** -/
theorem enters (libotr : Libotr) (respondSmp : Client → Ctx → Str → List OtrAction) (o : Outside)
    {t : Terminal} (hw : Talks t.world) {whom text : Str} (hm : Said.Fits ⟨whom, text, false⟩)
    (hwhom : whom ≠ []) (hblank : 32 ∉ whom) (hne : text ≠ []) :
    Talked t.world [⟨whom, text, false⟩] []
      (enters libotr respondSmp o t (ascii "m" ++ (whom ++ 32 :: text))).world := by
  have hline : parseLine (ascii "m" ++ (whom ++ 32 :: text)) =
      some (.inputSendMessage, whom ++ 32 :: text) := by
    refine (parseLine_iff _ _ _).mpr ⟨_, List.mem_cons_self, _, rfl, ?_⟩
    obtain ⟨c, rest, rfl⟩ := List.exists_cons_of_ne_nil hwhom
    have hc : c ≠ 32 := fun heq => hblank (heq ▸ List.mem_cons_self)
    rw [commandArg, if_neg (by simpa using hc)]
  have hsend := hw.inputSendMessage libotr hm hblank hne
  have hnote := hsend.talks.note
    (Bsflite.inputSendMessage libotr t.world (whom ++ 32 :: text)).client.conn.lastsn []
  rw [Bsflite.enters, if_neg (by simp [hw.running]), hline]
  simp only [runCommand]
  rw [World.alive_of_running hsend.talks.running]
  exact hsend.trans hnote

end Talks

end

end Bsflite
