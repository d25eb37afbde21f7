import Bsflite.Own

/-!
# Bsflite.Logged

What is written to the logs.  `log_event` does not know whether a text went
through libotr: it looks the buddy up again, by name, and writes nothing
about one whose context is encrypted.

* `Client.confides` — what `log_event` finds out.
* `receivesSecret_confides`, `sent_confides` — it agrees with what happened to
  the text.
* `secrets_never_logged` — over every run, the logs only get texts that were
  not secret.
-/

namespace Bsflite

open LinkedList

/-! ## looking a buddy up -/

/-- Is the name that of a buddy whose context is encrypted? -/
def Client.confides (c : Client) (sn : Str) : Bool :=
  ((c.findBuddy sn).join.bind c.buddyAt).any c.encrypted

/-- The same list, and the same contexts. -/
structure SameBuddies (c c' : Client) : Prop where
  heap : c'.heap = c.heap
  buddylist : c'.buddylist = c.buddylist
  contexts : c'.contexts = c.contexts

theorem SameBuddies.confides {c c' : Client} (h : SameBuddies c c') (sn : Str) :
    c'.confides sn = c.confides sn := by
  have hfind : c'.findBuddy sn = c.findBuddy sn := by
    rw [Client.findBuddy, h.heap, h.buddylist, Client.findBuddy]
  have hat : c'.buddyAt = c.buddyAt := by
    funext p
    rw [Client.buddyAt, h.heap, Client.buddyAt]
  have hencrypted : c'.encrypted = c.encrypted := by
    funext b
    rw [Client.encrypted, h.contexts, Client.encrypted]
  rw [Client.confides, hfind, hat, hencrypted, Client.confides]

/-- The name may be simplified first. -/
theorem confides_simplifySn (c : Client) (who : Str) :
    c.confides (simplifySn who) = c.confides who := by
  have hsimple : simplifySn (simplifySn who) = simplifySn who := by
    rw [simplifySn_eq, simplifySn_eq, imcommSimplifySn_idem]
  have hfind : c.findBuddy (simplifySn who) = c.findBuddy who := by
    simp only [Client.findBuddy, hsimple]
  rw [Client.confides, hfind, Client.confides]

/-- A buddy who is found, and whose context is encrypted. -/
theorem confides_of_found {c : Client} {sn : Str} {p : Ptr} {b : Buddy} {k : Ctx}
    (hfind : c.findBuddy sn = some (some p)) (hat : c.buddyAt p = some b)
    (hcontext : b.otrContext = some k) (hencrypted : (c.contexts k).msgstate = .encrypted) :
    c.confides sn = true := by
  simp [Client.confides, hfind, hat, Client.encrypted, hcontext, hencrypted]

/-! ## the log -/

/-- The text of a line in a log. -/
def Traced.text : Traced → Option Str
  | .logged _ _ msg => msg
  | _ => none

/-- The texts in the logs, newest first. -/
def World.logged (w : World Client) : List Str := w.client.trace.filterMap Traced.text

section
variable {w w' : World Client}

/-- The client writes them itself. -/
theorem logged_of_own (h : w'.own = w.own) : w'.logged = w.logged := by
  refine filterMap_of_own (fun t ht => ?_) h
  cases t with
  | imSend whom text automsg secret => rfl
  | newmsg text => rfl
  | inject message => rfl
  | logged event sn msg => exact Option.isSome_eq_false_iff.mp ht |> Option.isNone_iff_eq_none.mp

theorem crashes_logged (w : World Client) (k : Crash) : (w.crashes k).logged = w.logged :=
  have hplain : Plain w (w.crashes k) false := crashes_plain w k
  logged_of_own hplain.own

/-- A line with a text: it is written, or the buddy confides. -/
theorem logEvent_logged (w : World Client) (event : LogEvent) (sn msg : Str) :
    (w.logEvent event sn (some msg)).logged = w.logged ∨
      (w.client.confides sn = false ∧
        (w.logEvent event sn (some msg)).logged = msg :: w.logged) := by
  rw [World.logEvent]
  split
  · split
    · exact Or.inl (crashes_logged w .wild)
    · next p hfind =>
      split
      · exact Or.inl rfl
      · next hopen =>
        refine Or.inr ⟨?_, rfl⟩
        rw [Client.confides, hfind]
        simpa using hopen
  · exact Or.inl rfl

variable [Host]

/-- The automatic response is not logged, and has no part in who confides. -/
theorem awaitAnswer_logged (w : World Client) (who : Str) (automessage : Bool) :
    (awaitAnswer w who automessage).logged = w.logged ∧
      SameBuddies w.client (awaitAnswer w who automessage).client := by
  rw [awaitAnswer]
  split
  · exact ⟨rfl, rfl, rfl, rfl⟩
  · simp only
    split
    · split
      · exact ⟨rfl, rfl, rfl, rfl⟩
      · rw [World.crashes]
        split
        · exact ⟨rfl, rfl, rfl, rfl⟩
        · exact ⟨rfl, rfl, rfl, rfl⟩
    · exact ⟨rfl, rfl, rfl, rfl⟩

end

/-! ## secrets -/

section
variable [Host] (libotr : Libotr)

/-- `otrl_message_receiving` leaves in the place it was given the address of
the context that it used. -/
def Libotr.Stores (used : Client → Str → Str → Ctx) : Prop :=
  ∀ (w : World Client) (p : Ptr) (sn message : Str) (b : Buddy),
    (w.otrCall (some p) (libotr.receiving w.client sn message).actions).client.crash = none →
    (w.otrCall (some p) (libotr.receiving w.client sn message).actions).client.buddyAt p = some b →
      b.otrContext = some (used w.client sn message)

/-- Does `getmessage` get a text from libotr, out of an encrypted
conversation? -/
def receivesSecret (used : Client → Str → Str → Ctx) (w : World Client) (who message : Str) :
    Bool :=
  match (w.client.findBuddy who).join with
  | none => false
  | some p =>
    match w.client.buddyAt p with
    | none => false
    | some buddy =>
      let reply := libotr.receiving w.client buddy.sn message
      let context := (w.otrCall (some p) reply.actions).client.contexts
        (used w.client buddy.sn message)
      w.client.conn.otr && decide (buddy.otr ≠ -1) && !reply.err && reply.newmsg.isSome &&
        decide (context.msgstate = .encrypted)

/-- What `input_send_message` sends. -/
def typedText (conn : BsfConn) (text : Str) : Str :=
  if conn.netspeakFilter then undoNetspeak text else text

/-- Does `otr_imcomm_im_send_message` return 0 to `input_send_message`? -/
def sendsSecret (w : World Client) (arg : Str) : Bool :=
  match splitCommand arg with
  | none => false
  | some (sn, text) =>
    w.client.conn.conn &&
      decide ((otrImcommImSendMessage libotr w sn (typedText w.client.conn text)).2 = 0)

variable {libotr} {used : Client → Str → Str → Ctx} {w : World Client}

/-- **A secret that arrived**: the buddy confides. -/
theorem receivesSecret_confides (hstores : libotr.Stores used) {who message : Str}
    (h : receivesSecret libotr used w who message = true)
    (hrunning : (receiveOtr libotr w who message).1.client.crash = none) :
    (receiveOtr libotr w who message).1.client.confides who = true := by
  rw [receivesSecret] at h
  split at h
  · cases h
  · next p hjoin =>
    have hfind : w.client.findBuddy who = some (some p) := Option.join_eq_some_iff.mp hjoin
    split at h
    · cases h
    · next buddy hat =>
      simp only [Bool.and_eq_true, decide_eq_true_eq, Bool.not_eq_true',
        Option.isSome_iff_exists] at h
      obtain ⟨⟨⟨⟨hotr, hexempt⟩, herr⟩, newmsg, hnewmsg⟩, hencrypted⟩ := h
      have hframe := otrCall_frame (w := w) (some p)
        (libotr.receiving w.client buddy.sn message).actions
      simp only [receiveOtr, hotr, if_true, hfind, Option.bind_some, hat, if_pos hexempt, herr,
        if_neg Bool.false_ne_true, hnewmsg] at hrunning ⊢
      split at hrunning
      · next k hread =>
        obtain ⟨b, hb, -⟩ := Option.bind_eq_some_iff.mp hread
        have hused := hstores w p buddy.sn message b hrunning hb
        exact confides_of_found ((hframe.findBuddy who).trans hfind) hb hused hencrypted
      · -- libotr left no context, and its `msgstate` is read
        have hcrash := World.crashes_isSome
          (w.otrCall (some p) (libotr.receiving w.client buddy.sn message).actions) .null
        rw [hrunning] at hcrash
        cases hcrash

/-- **A secret that was sent**: the buddy confides. -/
theorem sent_confides (libotr : Libotr) (w : World Client) (sn fullmsg : Str) :
    (otrImcommImSendMessage libotr w sn fullmsg).2 = 0 →
      (otrImcommImSendMessage libotr w sn fullmsg).1.client.confides sn = true := by
  have hplain (w : World Client) : (1 : Int) = 0 → w.client.confides sn = true := by simp
  simp only [otrImcommImSendMessage]
  split
  · split
    · exact hplain _
    · next found hfound =>
      split
      · next p buddy hat =>
        have hframe := otrCall_frame (w := w) (some p)
          (libotr.sending w.client buddy.sn fullmsg).actions
        split
        · split
          · exact hplain _
          · split
            · simp
            · split
              · split
                · next newmsg hnewmsg _ k hread =>
                  intro hzero
                  obtain ⟨b, hb, hcontext⟩ := Option.bind_eq_some_iff.mp hread
                  refine confides_of_found (hframe.findBuddy sn |>.trans hfound) hb hcontext ?_
                  by_contra hopen
                  rw [if_neg hopen] at hzero
                  cases hzero
                · exact hplain _
              · exact hplain _
        · exact hplain _
      · exact hplain _
  · exact hplain _

/-! ## runs -/

/-- What happens to a client with a log. -/
inductive SessionEvent where
  | client (e : ClientEvent)
  | signon (who : Str)
  | signoff (who : Str)

variable (libotr)

/-- What the client does at an event; one that crashed does nothing. -/
def handleSession (w : World Client) : SessionEvent → World Client
  | .client e => handleEvent libotr w e
  | .signon who => w.alive fun w => buddyOnline libotr w who
  | .signoff who => w.alive fun w => buddyOffline libotr w who

/-- A run of events. -/
def runSession (w : World Client) (events : List SessionEvent) : World Client :=
  events.foldl (handleSession libotr) w

/-- The text that `getmessage` shows or `input_send_message` sends. -/
def eventText (w : World Client) : SessionEvent → Option Str
  | .client (.incoming who _ message) =>
    (receiveOtr libotr w who message).2.bind (filterText w.client.conn)
  | .client (.typed arg) =>
    (splitCommand arg).map fun line => typedText w.client.conn line.2
  | _ => none

/-- Does it come out of an encrypted conversation, or go into one? -/
def isSecret (used : Client → Str → Str → Ctx) (w : World Client) : SessionEvent → Bool
  | .client (.incoming who _ message) => receivesSecret libotr used w who message
  | .client (.typed arg) => sendsSecret libotr w arg
  | _ => false

/-- The texts of a run that are not secret, oldest first. -/
def openTexts (used : Client → Str → Str → Ctx) : World Client → List SessionEvent → List Str
  | _, [] => []
  | w, e :: events =>
    (if isSecret libotr used w e then [] else (eventText libotr w e).toList) ++
      openTexts used (handleSession libotr w e) events

variable {libotr}

/-- **An incoming message.** -/
theorem getmessage_logged (hstores : libotr.Stores used) (w : World Client) (who : Str)
    (automessage : Bool) (message : Str) :
    (getmessage libotr w who automessage message).logged = w.logged ∨
      (receivesSecret libotr used w who message = false ∧
        ∃ text, (receiveOtr libotr w who message).2.bind (filterText w.client.conn) = some text ∧
          (getmessage libotr w who automessage message).logged = text :: w.logged) := by
  have hframe := receiveOtr_frame (w := w) libotr who message
  have hreceived : (receiveOtr libotr w who message).1.logged = w.logged :=
    logged_of_own (receiveOtr_plain w libotr who message).own
  rw [getmessage_eq]
  cases hrunning : (receiveOtr libotr w who message).1.client.crash with
  | some k =>
      left
      rw [World.alive, hrunning]
      exact hreceived
  | none =>
      rw [World.alive_of_running hrunning, hframe.conn]
      cases hmsg : (receiveOtr libotr w who message).2.bind (filterText w.client.conn) with
      | none => exact Or.inl hreceived
      | some msg =>
          obtain ⟨lastsn, hlast⟩ :=
            setLastsn_eq (receiveOtr libotr w who message).1 (simplifySn who)
          obtain ⟨hawait, hsame⟩ := awaitAnswer_logged
            (setLastsn (receiveOtr libotr w who message).1 (simplifySn who)) who automessage
          have hbefore : (awaitAnswer (setLastsn (receiveOtr libotr w who message).1
              (simplifySn who)) who automessage).logged = w.logged := by
            rw [hawait, hlast]
            exact hreceived
          simp only [World.alive]
          split
          · exact Or.inl hbefore
          · rcases logEvent_logged (awaitAnswer (setLastsn (receiveOtr libotr w who message).1
              (simplifySn who)) who automessage) (if automessage then .imAutoresponse else .im)
              (simplifySn who) msg with hsilent | ⟨hopen, hwritten⟩
            · exact Or.inl (hsilent.trans hbefore)
            · refine Or.inr ⟨?_, msg, rfl, by rw [hwritten, hbefore]⟩
              -- a secret would have made the buddy confide
              by_contra hsecret
              have hconfides := receivesSecret_confides hstores (by simpa using hsecret) hrunning
              rw [confides_simplifySn, hsame.confides, hlast] at hopen
              rw [show (receiveOtr libotr w who message).1.client.confides who = false from hopen]
                at hconfides
              cases hconfides

/-- What follows a typed message. -/
theorem logSent_logged (libotr : Libotr) (w : World Client) (sn msg : Str) :
    ((otrImcommImSendMessage libotr w sn msg).1.alive fun w =>
      (w.setConn { w.client.conn with lastsn := some sn }).logEvent .imsend sn (some msg)).logged =
        w.logged ∨
      ((otrImcommImSendMessage libotr w sn msg).2 ≠ 0 ∧
        ((otrImcommImSendMessage libotr w sn msg).1.alive fun w =>
          (w.setConn { w.client.conn with lastsn := some sn }).logEvent .imsend sn
            (some msg)).logged = msg :: w.logged) := by
  have hsent : (otrImcommImSendMessage libotr w sn msg).1.logged = w.logged :=
    logged_of_own (otrImcommImSendMessage_plain w libotr sn msg).choose_spec.own
  have hconfides := sent_confides libotr w sn msg
  simp only [World.alive]
  split
  · exact Or.inl hsent
  · generalize otrImcommImSendMessage libotr w sn msg = sent at hsent hconfides ⊢
    rcases logEvent_logged (sent.1.setConn { sent.1.client.conn with lastsn := some sn })
      .imsend sn msg with hsilent | ⟨hopen, hwritten⟩
    · exact Or.inl (hsilent.trans hsent)
    · refine Or.inr ⟨fun hzero => ?_, hwritten.trans (congrArg _ hsent)⟩
      -- a secret would have made the buddy confide
      rw [show sent.1.client.confides sn = false from hopen] at hconfides
      cases hconfides hzero

/-- **A typed message.** -/
theorem inputSendMessage_logged (w : World Client) (arg : Str) :
    (inputSendMessage libotr w arg).logged = w.logged ∨
      (sendsSecret libotr w arg = false ∧
        ∃ text, (splitCommand arg).map (fun line => typedText w.client.conn line.2) = some text ∧
          (inputSendMessage libotr w arg).logged = text :: w.logged) := by
  rw [inputSendMessage]
  split
  · next hconn =>
    rw [sendsSecret]
    cases hsplit : splitCommand arg with
    | none => exact Or.inl rfl
    | some line =>
        obtain ⟨sn, text⟩ := line
        rcases logSent_logged libotr w sn (typedText w.client.conn text) with
          hsilent | ⟨hopen, hwritten⟩
        · exact Or.inl hsilent
        · exact Or.inr ⟨by simp [hopen], _, rfl, hwritten⟩
  · exact Or.inl rfl

/-- **An event**: a text is written only if it is the event's own, and no
secret. -/
theorem handleSession_logged (hstores : libotr.Stores used) (w : World Client) (e : SessionEvent) :
    (handleSession libotr w e).logged = w.logged ∨
      (isSecret libotr used w e = false ∧ ∃ text, eventText libotr w e = some text ∧
        (handleSession libotr w e).logged = text :: w.logged) := by
  cases hcrash : w.client.crash with
  | some k =>
      left
      cases e with
      | client e => simp [handleSession, handleEvent, World.alive, hcrash]
      | signon who => simp [handleSession, World.alive, hcrash]
      | signoff who => simp [handleSession, World.alive, hcrash]
  | none =>
      cases e with
      | signon who =>
          left
          rw [handleSession, World.alive_of_running hcrash]
          exact logged_of_own (buddyOnline_plain w libotr who).own
      | signoff who =>
          left
          rw [handleSession, World.alive_of_running hcrash]
          exact logged_of_own (buddyOffline_plain w libotr who).own
      | client e =>
          rw [handleSession, handleEvent, World.alive_of_running hcrash]
          cases e with
          | incoming who automessage message => exact getmessage_logged hstores w _ _ _
          | typed arg => exact inputSendMessage_logged w arg
          | paste arg keys =>
              obtain ⟨_, hplain⟩ := inputPaste_plain w libotr arg keys
              exact Or.inl (logged_of_own hplain.own)
          | setAway arg => exact Or.inl (logged_of_own (inputSetAway_plain w arg).own)
          | setPredefaway arg => exact Or.inl (logged_of_own (inputSetPredefaway_plain w arg).own)
          | stopOtr arg =>
              obtain ⟨_, hplain⟩ := inputStopOtr_plain w libotr arg
              exact Or.inl (logged_of_own hplain.own)
          | otr actions => exact Or.inl (logged_of_own (otrCall_plain w none actions).own)

/-- **A run**, by induction on the events. -/
theorem runSession_logged (hstores : libotr.Stores used) (w : World Client)
    (events : List SessionEvent) :
    ∃ new, (runSession libotr w events).logged = new ++ w.logged ∧
      new.reverse.Sublist (openTexts libotr used w events) := by
  induction events generalizing w with
  | nil => exact ⟨[], rfl, List.Sublist.refl _⟩
  | cons e events ih =>
      obtain ⟨new, hnew, hsub⟩ := ih (handleSession libotr w e)
      have hrun : (runSession libotr w (e :: events)).logged =
          new ++ (handleSession libotr w e).logged := hnew
      rcases handleSession_logged hstores w e with hsilent | ⟨hopen, text, htext, hwritten⟩
      · exact ⟨new, by rw [hrun, hsilent], hsub.trans (List.sublist_append_right _ _)⟩
      · refine ⟨new ++ [text], by rw [hrun, hwritten, List.append_assoc]; rfl, ?_⟩
        rw [List.reverse_append, openTexts, hopen, htext]
        exact (List.Sublist.refl [text]).append hsub

/-- **Encrypted conversations are not logged**: in every run, a text that
comes out of libotr in an encrypted conversation, or goes into one, is not
written to a log, and all that is written are, in order, texts of the run
that are not such secrets. -/
theorem secrets_never_logged (hstores : libotr.Stores used) (w : World Client)
    (events : List SessionEvent) :
    (∃ new, (runSession libotr w events).logged = new ++ w.logged ∧
      new.reverse.Sublist (openTexts libotr used w events)) ∧
    (∀ e, isSecret libotr used (runSession libotr w events) e = true →
      (runSession libotr w (events ++ [e])).logged = (runSession libotr w events).logged) := by
  refine ⟨runSession_logged hstores w events, fun e hsecret => ?_⟩
  have hlast : runSession libotr w (events ++ [e]) =
      handleSession libotr (runSession libotr w events) e := by
    simp [runSession]
  rw [hlast]
  rcases handleSession_logged hstores (runSession libotr w events) e with hsilent | ⟨hopen, -⟩
  · exact hsilent
  · rw [hsecret] at hopen
    cases hopen

end

/-! ## Alice keeps a log -/

/-- What a store leaves in the node. -/
theorem updateBuddy_stored {w : World Client} {p : Ptr} {f : Buddy → Buddy} {b : Buddy}
    (hrunning : (w.updateBuddy p f).client.crash = none)
    (hat : (w.updateBuddy p f).client.buddyAt p = some b) : ∃ a, b = f a := by
  rw [World.updateBuddy, Heap.modify] at hrunning hat
  cases hc : w.client.heap.cell p with
  | none =>
      have hwild := World.crashes_isSome w .wild
      rw [hc] at hrunning
      rw [show (w.crashes .wild).client.crash = none from hrunning] at hwild
      cases hwild
  | some c =>
      rw [hc] at hat
      have hstored : some (f c.val) = some b := by simpa [Client.buddyAt] using hat
      exact ⟨c.val, (Option.some_inj.mp hstored).symm⟩

/-- The libotr of an encrypted conversation stores its only context. -/
theorem encryptingLibotr_stores [Host] : encryptingLibotr.Stores fun _ _ _ => 0 := by
  intro w p sn message b hrunning hat
  generalize hcounted : { w with client := { w.client with otrCalls := w.client.otrCalls + 1 } } =
    counted
  have hcall : w.otrCall (some p) (encryptingLibotr.receiving w.client sn message).actions =
      counted.alive fun w => w.updateBuddy p fun b => { b with otrContext := some 0 } := by
    rw [← hcounted]
    rfl
  rw [hcall, World.alive] at hrunning hat
  split at hrunning
  · next hcrash =>
    rw [hrunning] at hcrash
    cases hcrash
  · next hcrash =>
    rw [if_neg hcrash] at hat
    obtain ⟨a, rfl⟩ := updateBuddy_stored hrunning hat
    rfl

/-- Carol is no buddy, and is logged; Bob's conversation is encrypted, and is
not. -/
theorem secrets_never_logged_bob :
    (@runSession littleEndianHost encryptingLibotr
      { awayFromBob with client := { awayFromBob.client with logging := true } }
      [.client (.incoming (ascii "carol") false (ascii "hello")),
        .client (.typed (ascii "bob hello"))]).logged = [ascii "hello"] ∧
    (@runSession littleEndianHost encryptingLibotr
      { awayFromBob with client := { awayFromBob.client with logging := true } }
      ([] ++ [.client (.incoming (ascii "bob") false (ascii "?OTR:AAMC"))])).logged = [] := by
  refine ⟨by decide +kernel, ?_⟩
  exact (@secrets_never_logged littleEndianHost encryptingLibotr (fun _ _ _ => 0)
    (@encryptingLibotr_stores littleEndianHost)
    { awayFromBob with client := { awayFromBob.client with logging := true } } []).2 _
    (by decide +kernel)

end Bsflite
