import Bsflite.Logged

/-!
# Bsflite.SendReport

What `input_send_message` of `input.c` shows and records of a message, beside
what `otr_imcomm_im_send_message` of `otr.c` did with it.

* `sendMessageReported` — `inputSendMessage` with the line that it prints and its call of
  `log_event`.
* `passed` — what went to `imcomm_im_send_message`.
* `sent_cases` — the results of `otr_imcomm_im_send_message`.
* `send_agrees_iff` — when the line says what was done.
-/

namespace Bsflite

open LinkedList

/-! ## what is shown -/

/-- The line of an outgoing message: the time, if there is one, `shown` in its
color, and the text, wrapped behind `offset`. -/
structure OutgoingLine where
  timestamp : Bool
  shown : Str
  text : Str
  offset : Nat
deriving DecidableEq, Repr

/-- What `input_send_message` prints, and its call of `log_event`. -/
structure SendReport where
  notice : Option Str := none
  line : Option OutgoingLine := none
  logEvent : Option (LogEvent × Str × Str) := none
deriving DecidableEq, Repr

/-- What `input_send_message` does with the result of
`otr_imcomm_im_send_message`. -/
def reportSent (timestamps : Bool) (sn msg : Str) (sent : World Client × Int) :
    World Client × SendReport :=
  let (w, otrMessage) := sent
  if w.client.crash.isSome then (w, {})
  else
    let offset := (if timestamps then 13 else 2) + (sn.length + 2)
    let line : OutgoingLine :=
      if otrMessage ≠ 0 then ⟨timestamps, ascii "->" ++ sn, stripHtml msg, offset⟩
      else ⟨timestamps, ascii "(otr)->" ++ sn, stripHtml msg, offset + 5⟩
    ((w.setConn { w.client.conn with lastsn := some sn }).logEvent .imsend sn (some msg),
      { line := some line, logEvent := some (.imsend, sn, msg) })

section
variable [Host] (libotr : Libotr)

/-- `input_send_message`, with what it prints itself. -/
def sendMessageReported (timestamps : Bool) (w : World Client) (arg : Str) :
    World Client × SendReport :=
  if w.client.conn.conn then
    match arg.findIdx? (· = 32) with
    | none => (w, { notice := some (ascii "No message to send.\n") })
    | some temp =>
      if arg.drop (temp + 1) = [] then (w, { notice := some (ascii "\nNo message to send.\n") })
      else
        let msg := typedText w.client.conn (arg.drop (temp + 1))
        reportSent timestamps (arg.take temp) msg
          (otrImcommImSendMessage libotr w (arg.take temp) msg)
  else (w, {})

/-! ## what was done -/

/-- libotr returns to `otr_imcomm_im_send_message`: the state, and what it
returns, unless it is not asked. -/
def askOtr (w : World Client) (sn fullmsg : Str) : World Client × Option OtrReply :=
  if w.client.conn.otr then
    match (w.client.findBuddy sn).join with
    | none => (w, none)
    | some p =>
      match w.client.buddyAt p with
      | none => (w, none)
      | some buddy =>
        if buddy.otr ≠ -1 then
          let reply := libotr.sending w.client buddy.sn fullmsg
          (w.otrCall (some p) reply.actions, some reply)
        else (w, none)
  else (w, none)

/-- What went to `imcomm_im_send_message`. -/
inductive Passed where
  /-- libotr's message, in an encrypted conversation -/
  | encrypted
  /-- the message itself, or libotr's in a conversation that is open -/
  | plain
  | nothing
deriving DecidableEq, Repr

/-- What the entries of a trace say, when the addressee `confides` or not. -/
def passedBy (confides : Bool) : List Traced → Passed
  | [] => .nothing
  | [.imSend _ _ _ _, .newmsg _] => if confides then .encrypted else .plain
  | _ => .plain

/-- What was passed on between two states, by the trace. -/
def passed (sn : Str) (w w' : World Client) : Passed :=
  passedBy (w'.client.confides sn)
    (w'.client.trace.take (w'.client.trace.length - w.client.trace.length))

/-- What `otr_imcomm_im_send_message` passed on, besides what libotr sent. -/
def passedOn (w : World Client) (sn fullmsg : Str) : Passed :=
  passed sn (askOtr libotr w sn fullmsg).1 (otrImcommImSendMessage libotr w sn fullmsg).1

/-- A message is shown behind the mark, and recorded. -/
structure Shows (mark sn msg : Str) (report : SendReport) (lastsn : Option Str) : Prop where
  line : ∃ line, report.line = some line ∧ line.shown = mark ++ ascii "->" ++ sn ∧
    line.text = stripHtml msg
  logEvent : report.logEvent = some (.imsend, sn, msg)
  lastsn : lastsn = some sn

/-- No message is shown or recorded. -/
structure ShowsNothing (lastsn : Option Str) (report : SendReport) (lastsn' : Option Str) :
    Prop where
  line : report.line = none
  logEvent : report.logEvent = none
  lastsn : lastsn' = lastsn

/-- **The line agrees with what was done.**  A client that crashed in
`otr_imcomm_im_send_message` shows no line. -/
structure SendAgrees (timestamps : Bool) (w : World Client) (arg : Str) : Prop where
  encrypted : ∀ sn text, w.client.conn.conn = true → splitCommand arg = some (sn, text) →
    passedOn libotr w sn (typedText w.client.conn text) = .encrypted →
    Shows (ascii "(otr)") sn (typedText w.client.conn text)
      (sendMessageReported libotr timestamps w arg).2
      (sendMessageReported libotr timestamps w arg).1.client.conn.lastsn
  plain : ∀ sn text, w.client.conn.conn = true → splitCommand arg = some (sn, text) →
    passedOn libotr w sn (typedText w.client.conn text) = .plain →
    (otrImcommImSendMessage libotr w sn (typedText w.client.conn text)).1.client.crash = none →
    Shows [] sn (typedText w.client.conn text)
      (sendMessageReported libotr timestamps w arg).2
      (sendMessageReported libotr timestamps w arg).1.client.conn.lastsn
  nothing : (∀ sn text, w.client.conn.conn = true → splitCommand arg = some (sn, text) →
      passedOn libotr w sn (typedText w.client.conn text) = .nothing) →
    ShowsNothing w.client.conn.lastsn (sendMessageReported libotr timestamps w arg).2
      (sendMessageReported libotr timestamps w arg).1.client.conn.lastsn

/-! ## the model -/

variable {libotr} {w : World Client}

omit [Host] in
theorem reportSent_fst (timestamps : Bool) (sn msg : Str) (sent : World Client × Int) :
    (reportSent timestamps sn msg sent).1 = sent.1.alive fun w =>
      (w.setConn { w.client.conn with lastsn := some sn }).logEvent .imsend sn (some msg) := by
  simp only [reportSent, World.alive]
  split <;> rfl

/-- What is reported changes nothing else. -/
theorem sendMessageReported_fst (timestamps : Bool) (w : World Client) (arg : Str) :
    (sendMessageReported libotr timestamps w arg).1 = inputSendMessage libotr w arg := by
  rw [sendMessageReported, inputSendMessage, splitCommand]
  split
  · cases arg.findIdx? (· = 32) with
    | none => rfl
    | some temp =>
        simp only
        split
        · rfl
        · exact reportSent_fst timestamps _ _ _
  · rfl

/-- A command line with a message. -/
theorem sendMessageReported_eq (timestamps : Bool) {w : World Client} {arg sn text : Str}
    (hconn : w.client.conn.conn = true) (hsplit : splitCommand arg = some (sn, text)) :
    sendMessageReported libotr timestamps w arg =
      reportSent timestamps sn (typedText w.client.conn text)
        (otrImcommImSendMessage libotr w sn (typedText w.client.conn text)) := by
  rw [splitCommand] at hsplit
  rw [sendMessageReported, if_pos hconn]
  cases hblank : arg.findIdx? (· = 32) with
  | none => simp [hblank] at hsplit
  | some temp =>
      simp only [hblank] at hsplit ⊢
      split at hsplit
      · cases hsplit
      · next hne =>
        cases hsplit
        rw [if_neg hne]

/-- A command line without a message, or without a connection. -/
theorem sendMessageReported_none (timestamps : Bool) {w : World Client} {arg : Str}
    (hnone : w.client.conn.conn = true → splitCommand arg = none) :
    ShowsNothing w.client.conn.lastsn (sendMessageReported libotr timestamps w arg).2
      (sendMessageReported libotr timestamps w arg).1.client.conn.lastsn := by
  rw [sendMessageReported]
  split
  · next hconn =>
    have hsplit := hnone hconn
    rw [splitCommand] at hsplit
    cases hblank : arg.findIdx? (· = 32) with
    | none => exact ⟨rfl, rfl, rfl⟩
    | some temp =>
        simp only [hblank] at hsplit ⊢
        split at hsplit
        · next hnil =>
          rw [if_pos hnil]
          exact ⟨rfl, rfl, rfl⟩
        · cases hsplit
  · exact ⟨rfl, rfl, rfl⟩

omit [Host] in
@[simp] theorem logEvent_conn (w : World Client) (event : LogEvent) (sn : Str) (msg : Option Str) :
    (w.logEvent event sn msg).client.conn = w.client.conn := by
  unfold World.logEvent
  split
  · split
    · exact w.crashes_conn .wild
    · split <;> rfl
  · rfl

omit [Host] in
/-- A client that goes on shows a line, with the mark when 0 was returned. -/
theorem reportSent_shows (timestamps : Bool) (sn msg : Str) {sent : World Client × Int}
    (hrunning : sent.1.client.crash = none) :
    Shows (if sent.2 = 0 then ascii "(otr)" else []) sn msg (reportSent timestamps sn msg sent).2
      (reportSent timestamps sn msg sent).1.client.conn.lastsn := by
  rw [reportSent]
  simp only [hrunning, Option.isSome_none, if_neg Bool.false_ne_true, logEvent_conn]
  have hmark : ascii "(otr)->" = ascii "(otr)" ++ ascii "->" := by decide +kernel
  refine ⟨⟨_, rfl, ?_⟩, rfl, rfl⟩
  by_cases hzero : sent.2 = 0
  · rw [if_neg (not_not.mpr hzero), if_pos hzero]
    exact ⟨by rw [hmark], rfl⟩
  · rw [if_pos hzero, if_neg hzero]
    exact ⟨rfl, rfl⟩

omit [Host] in
/-- What was passed on, by the entries that are new in the trace. -/
theorem passed_eq (sn : Str) {w w' : World Client} {own : List Traced}
    (h : w'.client.trace = own ++ w.client.trace) :
    passed sn w w' = passedBy (w'.client.confides sn) own := by
  rw [passed, h, List.length_append, Nat.add_sub_cancel, List.take_left]

omit [Host] in
/-- A buddy that is found confides when his context is encrypted. -/
theorem confides_eq {c : Client} {sn : Str} {p : Ptr} (hfind : c.findBuddy sn = some (some p)) :
    c.confides sn =
      ((c.buddyAt p).bind Buddy.otrContext).any fun k => (c.contexts k).msgstate = .encrypted := by
  rw [Client.confides, hfind]
  cases hat : c.buddyAt p with
  | none => simp [hat]
  | some b => simp [hat, Client.encrypted]

variable (libotr w)

/-- libotr reports an error. -/
def Refuses (sn fullmsg : Str) : Prop :=
  ∃ reply, (askOtr libotr w sn fullmsg).2 = some reply ∧ reply.err = true ∧
    (askOtr libotr w sn fullmsg).1.client.crash = none

/-- How `otr_imcomm_im_send_message` ends. -/
inductive SendEnds (sn fullmsg : Str) : Prop where
  | crashed (hcrash : (otrImcommImSendMessage libotr w sn fullmsg).1.client.crash.isSome)
      (hpassed : passedOn libotr w sn fullmsg ≠ .encrypted)
      (hrefuses : ¬ Refuses libotr w sn fullmsg)
  | encrypted (hrunning : (otrImcommImSendMessage libotr w sn fullmsg).1.client.crash = none)
      (hret : (otrImcommImSendMessage libotr w sn fullmsg).2 = 0)
      (hpassed : passedOn libotr w sn fullmsg = .encrypted)
      (hrefuses : ¬ Refuses libotr w sn fullmsg)
  | plain (hrunning : (otrImcommImSendMessage libotr w sn fullmsg).1.client.crash = none)
      (hret : (otrImcommImSendMessage libotr w sn fullmsg).2 = 1)
      (hpassed : passedOn libotr w sn fullmsg = .plain)
      (hrefuses : ¬ Refuses libotr w sn fullmsg)
  | failed (hrunning : (otrImcommImSendMessage libotr w sn fullmsg).1.client.crash = none)
      (hret : (otrImcommImSendMessage libotr w sn fullmsg).2 = -1)
      (hpassed : passedOn libotr w sn fullmsg = .nothing)
      (hrefuses : Refuses libotr w sn fullmsg)

variable {libotr w}

/-- libotr is not asked. -/
theorem SendEnds.unasked {sn fullmsg : Str}
    (hask : askOtr libotr w sn fullmsg = (w, none))
    (hsend : otrImcommImSendMessage libotr w sn fullmsg = (w.imSend sn fullmsg false, 1)) :
    SendEnds libotr w sn fullmsg := by
  have hpassed : passedOn libotr w sn fullmsg = .plain := by
    rw [passedOn, hask, hsend]
    exact passed_eq sn (show (w.imSend sn fullmsg false).client.trace = [_] ++ _ from rfl)
  have hanswers : ¬ Refuses libotr w sn fullmsg := by
    rintro ⟨reply, hreply, -⟩
    rw [hask] at hreply
    cases hreply
  have hsame : (w.imSend sn fullmsg false).client.crash = w.client.crash := rfl
  by_cases hcrash : w.client.crash.isSome = true
  · exact .crashed (by rwa [hsend, hsame]) (by simp [hpassed]) hanswers
  · exact .plain (by rw [hsend, hsame]; simpa using hcrash) (by rw [hsend]) hpassed hanswers

/-- What `otr_imcomm_im_send_message` does with an answer of libotr. -/
def sendAnswered (reply : OtrReply) (p : Ptr) (sn fullmsg : Str) (w : World Client) :
    World Client × Int :=
  if w.client.crash.isSome then (w, 1)
  else if reply.err then (w, -1)
  else
    match reply.newmsg with
    | some newmsg =>
      let w := (w.traced (.newmsg newmsg)).imSend sn newmsg false
      match (w.client.buddyAt p).bind Buddy.otrContext with
      | some k => (w, if (w.client.contexts k).msgstate = .encrypted then 0 else 1)
      | none => (w.crashes .null, 1)
    | none => (w.imSend sn fullmsg false, 1)

/-- libotr answers with a text of its own to send. -/
theorem SendEnds.replaced {sn fullmsg newmsg : Str} {w0 w' : World Client} {reply : OtrReply}
    {p : Ptr} (hask : askOtr libotr w sn fullmsg = (w0, some reply))
    (hw' : w' = (w0.traced (.newmsg newmsg)).imSend sn newmsg false)
    (hsend : otrImcommImSendMessage libotr w sn fullmsg =
      match (w'.client.buddyAt p).bind Buddy.otrContext with
      | some k => (w', if (w'.client.contexts k).msgstate = .encrypted then 0 else 1)
      | none => (w'.crashes .null, 1))
    (hfind : w0.client.findBuddy sn = some (some p)) (hrunning : w0.client.crash = none)
    (hanswers : ¬ Refuses libotr w sn fullmsg) : SendEnds libotr w sn fullmsg := by
  obtain ⟨secret, htrace⟩ : ∃ secret, w'.client.trace =
      [.imSend sn newmsg false secret, .newmsg newmsg] ++ w0.client.trace := ⟨_, by rw [hw']; rfl⟩
  have hconfides := @confides_eq w'.client sn p (by rw [hw']; exact hfind)
  have hstill : w'.client.crash = none := by rw [hw']; exact hrunning
  cases hcontext : (w'.client.buddyAt p).bind Buddy.otrContext with
  | none =>
      -- `msgstate` is read through a null pointer
      rw [hcontext] at hsend hconfides
      have hsame : SameBuddies w'.client (w'.crashes .null).client := by
        rw [World.crashes, if_neg (by simp [hstill])]
        exact ⟨rfl, rfl, rfl⟩
      refine .crashed (by rw [hsend]; exact w'.crashes_isSome .null) ?_ hanswers
      rw [passedOn, hask, hsend, passed_eq sn ((w'.crashes_trace .null).trans htrace),
        hsame.confides, hconfides]
      simp [passedBy]
  | some k =>
      rw [hcontext, Option.any_some] at hconfides
      rw [hcontext] at hsend
      by_cases hencrypted : (w'.client.contexts k).msgstate = .encrypted
      · rw [decide_eq_true hencrypted] at hconfides
        simp only [if_pos hencrypted] at hsend
        refine .encrypted (by rwa [hsend]) (by rw [hsend]) ?_ hanswers
        rw [passedOn, hask, hsend, passed_eq sn htrace, hconfides]
        rfl
      · rw [decide_eq_false hencrypted] at hconfides
        simp only [if_neg hencrypted] at hsend
        refine .plain (by rwa [hsend]) (by rw [hsend]) ?_ hanswers
        rw [passedOn, hask, hsend, passed_eq sn htrace, hconfides]
        rfl

/-- libotr answers. -/
theorem SendEnds.answered {sn fullmsg : Str} {w0 : World Client} {reply : OtrReply} {p : Ptr}
    (hask : askOtr libotr w sn fullmsg = (w0, some reply))
    (hsend : otrImcommImSendMessage libotr w sn fullmsg = sendAnswered reply p sn fullmsg w0)
    (hfind : w0.client.findBuddy sn = some (some p)) : SendEnds libotr w sn fullmsg := by
  have hrefuses : Refuses libotr w sn fullmsg ↔ reply.err = true ∧ w0.client.crash = none := by
    simp [Refuses, hask]
  rw [sendAnswered] at hsend
  by_cases hcrash : w0.client.crash.isSome = true
  · rw [if_pos hcrash] at hsend
    refine .crashed (by rwa [hsend]) ?_ ?_
    · rw [passedOn, hask, hsend]
      simp [passed, passedBy]
    · rw [hrefuses]
      rintro ⟨-, hnone⟩
      simp [hnone] at hcrash
  have hrunning : w0.client.crash = none := by simpa using hcrash
  rw [if_neg hcrash] at hsend
  by_cases herr : reply.err = true
  · -- nothing is sent, and -1 is returned
    rw [if_pos herr] at hsend
    refine .failed (by rwa [hsend]) (by rw [hsend]) ?_ (hrefuses.mpr ⟨herr, hrunning⟩)
    rw [passedOn, hask, hsend]
    simp [passed, passedBy]
  rw [if_neg herr] at hsend
  have hanswers : ¬ Refuses libotr w sn fullmsg := fun h => herr (hrefuses.mp h).1
  cases hnewmsg : reply.newmsg with
  | none =>
      rw [hnewmsg] at hsend
      refine .plain (by rwa [hsend]) (by rw [hsend]) ?_ hanswers
      rw [passedOn, hask, hsend]
      exact passed_eq sn (show (w0.imSend sn fullmsg false).client.trace = [_] ++ _ from rfl)
  | some newmsg =>
      rw [hnewmsg] at hsend
      exact .replaced hask rfl hsend hfind hrunning hanswers

/-- **The results of `otr_imcomm_im_send_message`.** -/
theorem sent_cases (libotr : Libotr) (w : World Client) (sn fullmsg : Str) :
    SendEnds libotr w sn fullmsg := by
  by_cases hotr : w.client.conn.otr = true
  swap
  · exact .unasked (by simp [askOtr, hotr]) (by simp [otrImcommImSendMessage, hotr])
  cases hfind : w.client.findBuddy sn with
  | none =>
      have hask : askOtr libotr w sn fullmsg = (w, none) := by simp [askOtr, hfind]
      have hsend : otrImcommImSendMessage libotr w sn fullmsg = (w.crashes .wild, 1) := by
        simp [otrImcommImSendMessage, hotr, hfind]
      refine .crashed ?_ ?_ ?_
      · rw [hsend]
        exact w.crashes_isSome .wild
      · rw [passedOn, hask, hsend]
        simp [passed, passedBy]
      · simp [Refuses, hask]
  | some found =>
    cases hat : found.bind w.client.buddyAt with
    | none =>
        refine .unasked ?_ ?_
        · cases found with
          | none => simp [askOtr, hfind]
          | some p => simp [askOtr, hfind, show w.client.buddyAt p = none from hat]
        · simp [otrImcommImSendMessage, hotr, hfind, hat]
    | some buddy =>
      obtain ⟨p, rfl, hbuddy⟩ := Option.bind_eq_some_iff.mp hat
      by_cases hexempt : buddy.otr = -1
      · exact .unasked (by simp [askOtr, hotr, hfind, hbuddy, hexempt])
          (by simp [otrImcommImSendMessage, hotr, hfind, hbuddy, hexempt])
      have hframe := otrCall_frame (w := w) (some p)
        (libotr.sending w.client buddy.sn fullmsg).actions
      have hask : askOtr libotr w sn fullmsg =
          (w.otrCall (some p) (libotr.sending w.client buddy.sn fullmsg).actions,
            some (libotr.sending w.client buddy.sn fullmsg)) := by
        simp [askOtr, hotr, hfind, hbuddy, hexempt]
      have hsend : otrImcommImSendMessage libotr w sn fullmsg =
          sendAnswered (libotr.sending w.client buddy.sn fullmsg) p sn fullmsg
            (w.otrCall (some p) (libotr.sending w.client buddy.sn fullmsg).actions) := by
        simp only [otrImcommImSendMessage, hotr, if_true, hfind, Option.bind_some, hbuddy,
          sendAnswered]
        exact if_pos hexempt
      exact .answered hask hsend (hframe.findBuddy sn |>.trans hfind)

/-- The settings are those of before. -/
theorem otrImcommImSendMessage_conn (libotr : Libotr) (w : World Client) (sn fullmsg : Str) :
    (otrImcommImSendMessage libotr w sn fullmsg).1.client.conn = w.client.conn := by
  simp only [otrImcommImSendMessage]
  split
  · split
    · exact w.crashes_conn .wild
    · split
      · next p buddy _ _ =>
        have hconn := (otrCall_frame (w := w) (some p)
          (libotr.sending w.client buddy.sn fullmsg).actions).conn
        split
        · split
          · exact hconn
          · split
            · exact hconn
            · split
              · split
                · exact hconn
                · exact (World.crashes_conn _ .null).trans hconn
              · exact hconn
        · rfl
      · rfl
  · rfl

section
variable {libotr : Libotr} {w : World Client} {arg sn text : Str}

/-- A message that went out encrypted is shown with the mark. -/
theorem shows_encrypted (timestamps : Bool) (hconn : w.client.conn.conn = true)
    (hsplit : splitCommand arg = some (sn, text))
    (hpassed : passedOn libotr w sn (typedText w.client.conn text) = .encrypted) :
    Shows (ascii "(otr)") sn (typedText w.client.conn text)
      (sendMessageReported libotr timestamps w arg).2
      (sendMessageReported libotr timestamps w arg).1.client.conn.lastsn := by
  rw [sendMessageReported_eq timestamps hconn hsplit]
  have hends := sent_cases libotr w sn (typedText w.client.conn text)
  cases hends with
  | crashed _ hother => exact absurd hpassed hother
  | encrypted hgoes hret =>
      have hshows := reportSent_shows timestamps sn (typedText w.client.conn text) hgoes
      rwa [if_pos hret] at hshows
  | plain _ _ hother => simp [hpassed] at hother
  | failed _ _ hother => simp [hpassed] at hother

/-- One that went out plain is shown without it. -/
theorem shows_plain (timestamps : Bool) (hconn : w.client.conn.conn = true)
    (hsplit : splitCommand arg = some (sn, text))
    (hpassed : passedOn libotr w sn (typedText w.client.conn text) = .plain)
    (hgoes : (otrImcommImSendMessage libotr w sn
      (typedText w.client.conn text)).1.client.crash = none) :
    Shows [] sn (typedText w.client.conn text) (sendMessageReported libotr timestamps w arg).2
      (sendMessageReported libotr timestamps w arg).1.client.conn.lastsn := by
  rw [sendMessageReported_eq timestamps hconn hsplit]
  have hshows := reportSent_shows timestamps sn (typedText w.client.conn text) hgoes
  have hends := sent_cases libotr w sn (typedText w.client.conn text)
  cases hends with
  | crashed hcrash => simp [hgoes] at hcrash
  | encrypted _ _ hother => simp [hpassed] at hother
  | plain _ hret => rwa [hret, if_neg (by decide)] at hshows
  | failed _ _ hother => simp [hpassed] at hother

/-- Nothing is shown of a client that crashed before it passed anything on. -/
theorem showsNothing_crashed (timestamps : Bool) (hconn : w.client.conn.conn = true)
    (hsplit : splitCommand arg = some (sn, text))
    (hpassed : passedOn libotr w sn (typedText w.client.conn text) = .nothing)
    (hanswers : ¬ Refuses libotr w sn (typedText w.client.conn text)) :
    ShowsNothing w.client.conn.lastsn (sendMessageReported libotr timestamps w arg).2
      (sendMessageReported libotr timestamps w arg).1.client.conn.lastsn := by
  have hends := sent_cases libotr w sn (typedText w.client.conn text)
  cases hends with
  | crashed hcrash =>
      rw [sendMessageReported_eq timestamps hconn hsplit, reportSent, if_pos hcrash]
      exact ⟨rfl, rfl, congrArg BsfConn.lastsn (otrImcommImSendMessage_conn libotr w _ _)⟩
  | encrypted _ _ hother => simp [hpassed] at hother
  | plain _ _ hother => simp [hpassed] at hother
  | failed _ _ _ hrefuses => exact absurd hrefuses hanswers

/-- A message that libotr refuses is shown all the same. -/
theorem line_of_refuses (timestamps : Bool) (hconn : w.client.conn.conn = true)
    (hsplit : splitCommand arg = some (sn, text))
    (hrefuses : Refuses libotr w sn (typedText w.client.conn text)) :
    passedOn libotr w sn (typedText w.client.conn text) = .nothing ∧
      (sendMessageReported libotr timestamps w arg).2.line ≠ none := by
  have hends := sent_cases libotr w sn (typedText w.client.conn text)
  cases hends with
  | crashed _ _ hanswers => exact absurd hrefuses hanswers
  | encrypted _ _ _ hanswers => exact absurd hrefuses hanswers
  | plain _ _ _ hanswers => exact absurd hrefuses hanswers
  | failed hgoes _ hpassed =>
      obtain ⟨line, hline, -⟩ :=
        (reportSent_shows timestamps sn (typedText w.client.conn text) hgoes).line
      rw [sendMessageReported_eq timestamps hconn hsplit, hline]
      exact ⟨hpassed, Option.some_ne_none line⟩

end

/-- **Failed sends.**  The line and the records agree with what was done
exactly when libotr reports no error for the message. -/
theorem send_agrees_iff (libotr : Libotr) (timestamps : Bool) (w : World Client) (arg : Str) :
    SendAgrees libotr timestamps w arg ↔
      ∀ sn text, w.client.conn.conn = true → splitCommand arg = some (sn, text) →
        ¬ Refuses libotr w sn (typedText w.client.conn text) := by
  constructor
  · intro h sn text hconn hsplit hrefuses
    obtain ⟨hpassed, hline⟩ := line_of_refuses timestamps hconn hsplit hrefuses
    refine hline (h.nothing fun sn' text' _ hsplit' => ?_).line
    cases hsplit.symm.trans hsplit'
    exact hpassed
  · intro h
    refine ⟨fun sn text hconn hsplit => shows_encrypted timestamps hconn hsplit,
      fun sn text hconn hsplit => shows_plain timestamps hconn hsplit, fun hpassed => ?_⟩
    cases hsplit : splitCommand arg with
    | none => exact sendMessageReported_none timestamps fun _ => hsplit
    | some line =>
        obtain ⟨sn, text⟩ := line
        by_cases hconn : w.client.conn.conn = true
        · exact showsNothing_crashed timestamps hconn hsplit (hpassed sn text hconn hsplit)
            (h sn text hconn hsplit)
        · exact sendMessageReported_none timestamps fun hconn' => absurd hconn' hconn

end

/-- A libotr that cannot send. -/
def failingLibotr : Libotr := { quietLibotr with sending := fun _ _ _ => ⟨[], true, none⟩ }

/-- Bob is online. -/
def withBob : World Client :=
  buddyOnline failingLibotr ⟨imcommCreateHandle zeroBlock, startClient, []⟩
    (ascii "bob")

/-- A message to Bob is shown and recorded, but was not sent. -/
theorem send_failed :
    ¬ @SendAgrees littleEndianHost failingLibotr false withBob (ascii "bob hi") := by
  intro h
  have hpassed : @passedOn littleEndianHost failingLibotr withBob (ascii "bob") (ascii "hi") =
      .nothing := by
    decide +kernel
  have hsplit : splitCommand (ascii "bob hi") = some (ascii "bob", ascii "hi") := by decide +kernel
  have hshown : (@sendMessageReported littleEndianHost failingLibotr false withBob
      (ascii "bob hi")).2.line ≠ none := by
    decide +kernel
  refine hshown (@SendAgrees.nothing littleEndianHost _ _ _ _ h fun sn text _ hline => ?_).line
  rw [hsplit] at hline
  cases hline
  exact hpassed

end Bsflite
