import Bsflite.Input

/-!
# Bsflite.Secrecy

What goes out during an encrypted conversation.  `TraceSafe` reads a trace:
every text for a buddy in an encrypted conversation was put there by libotr
right before, as a message to send instead or as one to inject.

* `OtrFrame` — what libotr leaves of the client.
* `Grows`, `Secure` — what a step adds to the trace.
* `otrImcommImSendMessage_secure`, `inputPaste_secure`, `inputSendMessage_secure` — the ways out
  that go through libotr.
* `getmessage_secure`, `getmessage_unsafe` — the one that does not: the automatic
  response.
* `traceSafe_iff_discreet` — a run is safe when no step of it answers an
  encrypted conversation automatically, and only then.
-/

namespace Bsflite

open LinkedList

/-! ## what libotr leaves -/

/-- A node without what libotr may change. -/
def nodeName (c : Cell Buddy) : Str × Option Ptr := (c.val.sn, c.next)

/-- The settings, those who wait, and the names in the list are the same, and
a client that crashed still has. -/
structure OtrFrame (w w' : World Client) : Prop where
  conn : w'.client.conn = w.client.conn
  waiting : w'.client.waiting = w.client.waiting
  buddylist : w'.client.buddylist = w.client.buddylist
  brk : w'.client.heap.brk = w.client.heap.brk
  names : ∀ p, (w'.client.heap.cell p).map nodeName = (w.client.heap.cell p).map nodeName
  crashed : w.client.crash.isSome → w'.client.crash.isSome

theorem OtrFrame.refl (w : World Client) : OtrFrame w w :=
  ⟨rfl, rfl, rfl, rfl, fun _ => rfl, id⟩

theorem OtrFrame.trans {w w' w'' : World Client} (h : OtrFrame w w') (h' : OtrFrame w' w'') :
    OtrFrame w w'' :=
  ⟨h'.conn.trans h.conn, h'.waiting.trans h.waiting, h'.buddylist.trans h.buddylist,
    h'.brk.trans h.brk, fun p => (h'.names p).trans (h.names p),
    fun hc => h'.crashed (h.crashed hc)⟩

/-- A search by name only looks at the names. -/
theorem find_congr {h h' : Heap Buddy} (hnames : ∀ p, (h'.cell p).map nodeName =
    (h.cell p).map nodeName) (sn : Str) (fuel : Nat) (head : Option Ptr) :
    h'.find (fun trav => trav.sn = sn) fuel head = h.find (fun trav => trav.sn = sn) fuel head := by
  induction fuel generalizing head with
  | zero => rfl
  | succ fuel ih =>
      cases head with
      | none => rfl
      | some q =>
          have hq := hnames q
          rw [Heap.find, Heap.find]
          cases hc : h.cell q with
          | none =>
              rw [hc, Option.map_none, Option.map_eq_none_iff] at hq
              rw [hq]
              rfl
          | some c =>
              rw [hc, Option.map_some] at hq
              obtain ⟨c', hc', hsame⟩ := Option.map_eq_some_iff.mp hq
              obtain ⟨hsn, hnext⟩ := Prod.mk.inj hsame
              simp only [hc', Option.bind_eq_bind, Option.bind_some, hsn, hnext, ih]

/-- `find_buddy` finds the same node. -/
theorem OtrFrame.findBuddy {w w' : World Client} (h : OtrFrame w w') (who : Str) :
    w'.client.findBuddy who = w.client.findBuddy who := by
  rw [Client.findBuddy, Client.findBuddy, h.brk, h.buddylist, find_congr h.names]

section
variable {w : World Client}

theorem crashes_frame (k : Crash) : OtrFrame w (w.crashes k) := by
  rw [World.crashes]
  split
  · exact OtrFrame.refl w
  · exact ⟨rfl, rfl, rfl, rfl, fun _ => rfl, fun _ => rfl⟩

/-- A store that keeps the name. -/
theorem updateBuddy_frame (p : Ptr) {f : Buddy → Buddy} (hf : ∀ b, (f b).sn = b.sn) :
    OtrFrame w (w.updateBuddy p f) := by
  rw [World.updateBuddy, Heap.modify]
  cases hc : w.client.heap.cell p with
  | none => exact crashes_frame .wild
  | some c =>
      refine ⟨rfl, rfl, rfl, rfl, fun q => ?_, id⟩
      by_cases hq : q = p
      · rw [hq, hc]
        simp [nodeName, hf]
      · simp [hq]

theorem withBuddy_frame (who : Str) {f : Buddy → Buddy} (hf : ∀ b, (f b).sn = b.sn) :
    OtrFrame w (w.withBuddy who f) := by
  rw [World.withBuddy]
  split
  · exact crashes_frame .wild
  · exact OtrFrame.refl w
  · exact updateBuddy_frame _ hf

theorem alive_frame {f : World Client → World Client} (hf : OtrFrame w (f w)) :
    OtrFrame w (w.alive f) := by
  rw [World.alive]
  split
  · exact OtrFrame.refl w
  · exact hf

variable [Host]

theorem otrAct_frame (target : Option Ptr) (a : OtrAction) : OtrFrame w (w.otrAct target a) := by
  have htraced (w : World Client) (t : Traced) : OtrFrame w (w.traced t) :=
    ⟨rfl, rfl, rfl, rfl, fun _ => rfl, id⟩
  have hset (w : World Client) (k : Ctx) (context : ConnContext) :
      OtrFrame w (w.setContext k context) := ⟨rfl, rfl, rfl, rfl, fun _ => rfl, id⟩
  apply alive_frame
  cases a with
  | context k context => exact hset w k context
  | store k =>
      cases target with
      | none => exact OtrFrame.refl w
      | some p => exact updateBuddy_frame p fun _ => rfl
  | inject recipient message =>
      simp only [World.otrInjectMsgCb]
      split
      · exact ⟨rfl, rfl, rfl, rfl, fun _ => rfl, id⟩
      · exact (htraced w _).trans (crashes_frame .null)
  | goneSecure k =>
      simp only [World.otrSecureCb]
      split
      · exact withBuddy_frame _ fun _ => rfl
      · exact OtrFrame.refl w
  | goneInsecure k => exact withBuddy_frame _ fun _ => rfl
  | smpEvent event k =>
      cases event with
      | askForSecret => exact withBuddy_frame _ fun _ => rfl
      | askForAnswer => exact withBuddy_frame _ fun _ => rfl
      | success =>
          simp only [World.otrSmpEventCb]
          split
          · exact crashes_frame .wild
          · exact crashes_frame .null
          · exact (hset w k _).trans (updateBuddy_frame _ fun _ => rfl)
      | inProgress => exact OtrFrame.refl w
      | abort => exact OtrFrame.refl w
      | failure => exact OtrFrame.refl w
      | cheated => exact OtrFrame.refl w
      | error => exact OtrFrame.refl w

theorem otrCall_frame (target : Option Ptr) (actions : List OtrAction) :
    OtrFrame w (w.otrCall target actions) := by
  have hfold : ∀ w : World Client,
      OtrFrame w (actions.foldl (fun w a => w.otrAct target a) w) := by
    induction actions with
    | nil => exact OtrFrame.refl
    | cons a actions ih => exact fun w => (otrAct_frame target a).trans (ih _)
  have hcount : OtrFrame w
      { w with client := { w.client with otrCalls := w.client.otrCalls + 1 } } :=
    ⟨rfl, rfl, rfl, rfl, fun _ => rfl, id⟩
  exact hcount.trans (hfold _)

theorem receiveOtr_frame (libotr : Libotr) (who message : Str) :
    OtrFrame w (receiveOtr libotr w who message).1 := by
  rw [receiveOtr]
  split
  · split
    · exact crashes_frame .wild
    · split
      · split
        · simp only
          split
          · exact otrCall_frame _ _
          · split
            · exact otrCall_frame _ _
            · split
              · exact otrCall_frame _ _
              · exact (otrCall_frame _ _).trans (crashes_frame .null)
        · exact OtrFrame.refl w
      · exact OtrFrame.refl w
  · exact OtrFrame.refl w

end

/-! ## the trace -/

/-- What a text for `imcomm_im_send_message` must be when its addressee is in
an encrypted conversation: the trace before has it, as the message that
libotr returned or, in its frame, as one that libotr injected. -/
def Produced (text : Str) (before : List Traced) : Prop :=
  before.head? = some (.newmsg text) ∨
    ∃ message, before.head? = some (.inject message) ∧ text = World.injectFormat message

/-- Every text that went out to an encrypted conversation came from libotr. -/
def TraceSafe : List Traced → Prop
  | [] => True
  | .imSend _ text _ true :: before => Produced text before ∧ TraceSafe before
  | _ :: before => TraceSafe before

/-- What was safe with more in the trace was safe before. -/
theorem TraceSafe.of_append {new trace : List Traced} (h : TraceSafe (new ++ trace)) :
    TraceSafe trace := by
  induction new with
  | nil => exact h
  | cons t new ih =>
      apply ih
      cases t with
      | imSend whom text automsg secret =>
          cases secret with
          | true => exact h.2
          | false => exact h
      | newmsg text => exact h
      | inject message => exact h
      | logged event sn msg => exact h

/-- Nothing that libotr produced waits to be sent. -/
def Calm (trace : List Traced) : Prop := ∀ text, ¬ Produced text trace

/-- What every step keeps: the trace grows, `conn->otr` stays, and between
steps nothing waits to be sent. -/
structure Grows (w w' : World Client) : Prop where
  otr : w'.client.conn.otr = w.client.conn.otr
  trace : ∃ new, w'.client.trace = new ++ w.client.trace
  calm : (w.client.crash = none → Calm w.client.trace) →
    w'.client.crash = none → Calm w'.client.trace

/-- A step that sends nothing to an encrypted conversation but what libotr
produced. -/
structure Secure (w w' : World Client) : Prop extends Grows w w' where
  safe : TraceSafe w.client.trace → TraceSafe w'.client.trace

theorem Grows.trans {w w' w'' : World Client} (h : Grows w w') (h' : Grows w' w'') :
    Grows w w'' := by
  refine ⟨h'.otr.trans h.otr, ?_, fun hc => h'.calm (h.calm hc)⟩
  obtain ⟨new, hnew⟩ := h.trace
  obtain ⟨new', hnew'⟩ := h'.trace
  exact ⟨new' ++ new, by rw [hnew', hnew, List.append_assoc]⟩

theorem Secure.trans {w w' w'' : World Client} (h : Secure w w') (h' : Secure w' w'') :
    Secure w w'' :=
  ⟨h.toGrows.trans h'.toGrows, fun hs => h'.safe (h.safe hs)⟩

section
variable {w : World Client}

/-- A step that leaves the trace alone. -/
theorem secure_of_frame {w' : World Client} (h : OtrFrame w w')
    (htrace : w'.client.trace = w.client.trace) : Secure w w' := by
  refine ⟨⟨by rw [h.conn], ⟨[], htrace⟩, fun hc hrunning => ?_⟩, fun hs => by rwa [htrace]⟩
  rw [htrace]
  apply hc
  cases hcrash : w.client.crash with
  | none => rfl
  | some k =>
      have hcrashed := h.crashed (by rw [hcrash]; rfl)
      rw [hrunning] at hcrashed
      cases hcrashed

theorem Secure.refl (w : World Client) : Secure w w := secure_of_frame (OtrFrame.refl w) rfl

theorem crashes_secure (k : Crash) : Secure w (w.crashes k) :=
  secure_of_frame (crashes_frame k) (World.crashes_trace w k)

theorem alive_secure {f : World Client → World Client}
    (hf : w.client.crash = none → Secure w (f w)) : Secure w (w.alive f) := by
  rw [World.alive]
  split
  · exact Secure.refl w
  · next hrunning => exact hf (by simpa using hrunning)

theorem alive_grows {f : World Client → World Client} (hf : Grows w (f w)) :
    Grows w (w.alive f) := by
  rw [World.alive]
  split
  · exact (Secure.refl w).toGrows
  · exact hf

theorem updateBuddy_secure (p : Ptr) {f : Buddy → Buddy} (hf : ∀ b, (f b).sn = b.sn) :
    Secure w (w.updateBuddy p f) := by
  refine secure_of_frame (updateBuddy_frame p hf) ?_
  rw [World.updateBuddy]
  split
  · rfl
  · exact World.crashes_trace w .wild

theorem withBuddy_secure (who : Str) {f : Buddy → Buddy} (hf : ∀ b, (f b).sn = b.sn) :
    Secure w (w.withBuddy who f) := by
  rw [World.withBuddy]
  split
  · exact crashes_secure .wild
  · exact Secure.refl w
  · exact updateBuddy_secure _ hf

theorem logEvent_secure (event : LogEvent) (sn : Str) (msg : Option Str) :
    Secure w (w.logEvent event sn msg) := by
  rw [World.logEvent]
  split
  · split
    · exact crashes_secure .wild
    · split
      · exact Secure.refl w
      · refine ⟨⟨rfl, ⟨[_], rfl⟩, fun _ _ text hproduced => ?_⟩, id⟩
        simp [Produced, World.traced] at hproduced
  · exact Secure.refl w

variable [Host]

/-- A text for `imcomm_im_send_message`, whatever it is. -/
theorem imSend_grows (whom text : Str) (automsg : Bool) : Grows w (w.imSend whom text automsg) := by
  refine ⟨rfl, ⟨[_], rfl⟩, fun _ _ text hproduced => ?_⟩
  simp [Produced, World.imSend, World.traced] at hproduced

/-- A text to somebody who is in no encrypted conversation. -/
theorem imSend_secure_of_open {whom : Str} (hopen : w.client.secret whom = false) (text : Str)
    (automsg : Bool) : Secure w (w.imSend whom text automsg) := by
  refine ⟨imSend_grows whom text automsg, fun hs => ?_⟩
  simpa [World.imSend, World.traced, hopen, TraceSafe] using hs

/-- A text that libotr produced. -/
theorem imSend_secure {t : Traced} {text : Str} (hproduced : ∀ trace, Produced text (t :: trace))
    (htraced : ∀ trace, TraceSafe trace → TraceSafe (t :: trace)) (whom : Str) (automsg : Bool) :
    Secure w ((w.traced t).imSend whom text automsg) := by
  refine ⟨⟨rfl, ⟨[_, _], rfl⟩, fun _ _ text hp => ?_⟩, fun hs => ?_⟩
  · simp [Produced, World.imSend, World.traced] at hp
  · have hbefore := htraced _ hs
    show TraceSafe (.imSend whom text automsg ((w.traced t).client.secret whom) ::
      t :: w.client.trace)
    cases (w.traced t).client.secret whom with
    | true => exact ⟨hproduced _, hbefore⟩
    | false => exact hbefore

/-! ## libotr -/

/-- One thing that libotr does. -/
theorem otrAct_secure (target : Option Ptr) (a : OtrAction) : Secure w (w.otrAct target a) := by
  have hset (k : Ctx) (context : ConnContext) : Secure w (w.setContext k context) :=
    secure_of_frame ⟨rfl, rfl, rfl, rfl, fun _ => rfl, id⟩ rfl
  refine alive_secure fun _ => ?_
  cases a with
  | context k context => exact hset k context
  | store k =>
      cases target with
      | none => exact Secure.refl w
      | some p => exact updateBuddy_secure p fun _ => rfl
  | inject recipient message =>
      simp only [World.otrInjectMsgCb]
      split
      · exact imSend_secure (fun _ => Or.inr ⟨message, rfl, rfl⟩) (fun _ hs => hs) _ _
      · -- the message never goes out
        have hcrash := World.crashes_isSome (w.traced (.inject message)) .null
        refine ⟨⟨by simp [World.traced], ⟨[.inject message], by simp [World.traced]⟩, ?_⟩, ?_⟩
        · intro _ hrunning
          rw [hrunning] at hcrash
          cases hcrash
        · intro hs
          rw [World.crashes_trace]
          exact hs
  | goneSecure k =>
      simp only [World.otrSecureCb]
      split
      · exact withBuddy_secure _ fun _ => rfl
      · exact Secure.refl w
  | goneInsecure k => exact withBuddy_secure _ fun _ => rfl
  | smpEvent event k =>
      cases event with
      | askForSecret => exact withBuddy_secure _ fun _ => rfl
      | askForAnswer => exact withBuddy_secure _ fun _ => rfl
      | success =>
          simp only [World.otrSmpEventCb]
          split
          · exact crashes_secure .wild
          · exact crashes_secure .null
          · exact (hset k _).trans (updateBuddy_secure _ fun _ => rfl)
      | inProgress => exact Secure.refl w
      | abort => exact Secure.refl w
      | failure => exact Secure.refl w
      | cheated => exact Secure.refl w
      | error => exact Secure.refl w

/-- **A call of libotr.** -/
theorem otrCall_secure (target : Option Ptr) (actions : List OtrAction) :
    Secure w (w.otrCall target actions) := by
  have hfold : ∀ w : World Client, Secure w (actions.foldl (fun w a => w.otrAct target a) w) := by
    induction actions with
    | nil => exact Secure.refl
    | cons a actions ih => exact fun w => (otrAct_secure target a).trans (ih _)
  have hcount : Secure w
      { w with client := { w.client with otrCalls := w.client.otrCalls + 1 } } :=
    secure_of_frame ⟨rfl, rfl, rfl, rfl, fun _ => rfl, id⟩ rfl
  exact hcount.trans (hfold _)

/-! ## typed and pasted messages -/

/-- `otrl_message_sending` returns a message to send instead, or an error,
unless the conversation is not encrypted. -/
def Libotr.Replaces (libotr : Libotr) : Prop :=
  ∀ (w : World Client) (p : Ptr) (sn msg : Str), (libotr.sending w.client sn msg).err = false →
    (libotr.sending w.client sn msg).newmsg = none →
    ∀ b, (w.otrCall (some p) (libotr.sending w.client sn msg).actions).client.buddyAt p = some b →
      (w.otrCall (some p) (libotr.sending w.client sn msg).actions).client.encrypted b = false

omit [Host] in
/-- Nobody of the name, or somebody exempt from OTR or not encrypted. -/
theorem secret_eq_false {c : Client} {sn : Str}
    (h : ∀ p b, c.findBuddy sn = some (some p) → c.buddyAt p = some b →
      b.otr = -1 ∨ c.encrypted b = false) : c.secret sn = false := by
  rw [Client.secret]
  split
  · next b hb =>
    obtain ⟨p, hp, hat⟩ := Option.bind_eq_some_iff.mp hb
    have hfind : c.findBuddy sn = some (some p) := Option.join_eq_some_iff.mp hp
    rcases h p b hfind hat with hexempt | hplain
    · simp [hexempt]
    · simp [hplain]
  · rfl

/-- **What goes through libotr.** -/
theorem otrImcommImSendMessage_secure {libotr : Libotr} (hreplaces : libotr.Replaces)
    (hotr : w.client.conn.otr = true) (sn fullmsg : Str) :
    Secure w (otrImcommImSendMessage libotr w sn fullmsg).1 := by
  simp only [otrImcommImSendMessage, hotr, if_true]
  split
  · exact crashes_secure .wild
  · next found hfound =>
    split
    · next p buddy hbuddy =>
      split
      · have hcall : Secure w (w.otrCall (some p)
            (libotr.sending w.client buddy.sn fullmsg).actions) := otrCall_secure _ _
        have hframe := otrCall_frame (w := w) (some p)
          (libotr.sending w.client buddy.sn fullmsg).actions
        split
        · exact hcall
        · split
          · exact hcall
          · next hok =>
            split
            · next newmsg hnewmsg =>
              have hsend := hcall.trans (imSend_secure (t := .newmsg newmsg)
                (fun _ => Or.inl rfl) (fun _ hs => hs) sn false)
              split
              · exact hsend
              · exact hsend.trans (crashes_secure .null)
            · next hnewmsg =>
              refine hcall.trans (imSend_secure_of_open (secret_eq_false fun q b hq hb => ?_) _ _)
              have hsame : q = p := by
                rw [hframe.findBuddy, hfound] at hq
                cases hq
                rfl
              rw [hsame] at hb
              exact Or.inr (hreplaces w p buddy.sn fullmsg (by simpa using hok) hnewmsg b hb)
      · next hexempt =>
        refine imSend_secure_of_open (secret_eq_false fun q b hq hb => ?_) _ _
        rw [hfound] at hq
        cases hq
        have hsame : buddy = b := Option.some_inj.mp (hbuddy.symm.trans hb)
        exact Or.inl (hsame ▸ not_not.mp hexempt)
    · next hnone =>
      refine imSend_secure_of_open (secret_eq_false fun q b hq hb => ?_) _ _
      rw [hfound] at hq
      cases hq
      exact (hnone q b rfl hb).elim

omit [Host] in
/-- Settings that keep `conn->otr`. -/
theorem setConn_secure {conn : BsfConn} (hotr : conn.otr = w.client.conn.otr) :
    Secure w (w.setConn conn) :=
  ⟨⟨hotr, ⟨[], rfl⟩, id⟩, id⟩

/-- **A typed message.** -/
theorem inputSendMessage_secure {libotr : Libotr} (hreplaces : libotr.Replaces)
    (hotr : w.client.conn.otr = true) (arg : Str) : Secure w (inputSendMessage libotr w arg) := by
  rw [inputSendMessage]
  split
  · split
    · exact Secure.refl w
    · next sn text _ =>
      refine (otrImcommImSendMessage_secure hreplaces hotr sn _).trans
        (alive_secure fun _ => ?_)
      refine Secure.trans (setConn_secure ?_) (logEvent_secure _ _ _)
      rfl
  · exact Secure.refl w

/-- The loop of `input_paste`: by induction on the fuel. -/
theorem inputPasteLoop_secure {libotr : Libotr} (hreplaces : libotr.Replaces) (sn : Str)
    (maxmsgsize fuel : Nat) {w : World Client} (hotr : w.client.conn.otr = true) (sendbuf : Str)
    (sendbuflen : Nat) (keys : List UInt8) :
    Secure w (inputPasteLoop libotr sn maxmsgsize fuel w sendbuf sendbuflen keys) := by
  induction fuel generalizing w sendbuf sendbuflen keys with
  | zero => exact Secure.refl w
  | succ fuel ih =>
      rw [inputPasteLoop]
      split
      · exact Secure.refl w
      · exact Secure.refl w
      · exact crashes_secure .wild
      · have hsend := otrImcommImSendMessage_secure hreplaces hotr sn sendbuf
        split
        · split
          · exact hsend
          · exact Secure.refl w
        · split
          · simp only
            split
            · exact hsend
            · exact hsend.trans (ih (hsend.otr.trans hotr) _ _ _)
          · split
            · exact ih hotr _ _ _
            · exact ih hotr _ _ _

/-- **A paste.** -/
theorem inputPaste_secure {libotr : Libotr} (hreplaces : libotr.Replaces)
    (hotr : w.client.conn.otr = true) (arg : Str) (keys : List UInt8) :
    Secure w (inputPaste libotr w arg keys) := by
  rw [inputPaste]
  split
  · split
    · exact Secure.refl w
    · exact inputPasteLoop_secure hreplaces _ _ _ hotr _ _ _
  · exact crashes_secure .null

/-- **A change of the away state.** -/
theorem inputSetAway_secure (arg : Str) : Secure w (inputSetAway w arg) := by
  have hhandle (h : Imcomm) : Secure w { w with handle := h } := ⟨⟨rfl, ⟨[], rfl⟩, id⟩, id⟩
  rw [inputSetAway]
  split
  · split
    · exact (hhandle _).trans (setConn_secure rfl)
    · exact (hhandle _).trans (setConn_secure rfl)
  · exact Secure.refl w

theorem inputSetPredefaway_secure (arg : Str) : Secure w (inputSetPredefaway w arg) := by
  have hhandle (h : Imcomm) : Secure w { w with handle := h } := ⟨⟨rfl, ⟨[], rfl⟩, id⟩, id⟩
  rw [inputSetPredefaway]
  split
  · split
    · exact Secure.refl w
    · split
      · exact (hhandle _).trans (setConn_secure rfl)
      · exact Secure.refl w
  · exact Secure.refl w

/-- The end of an OTR session. -/
theorem inputStopOtr_secure (libotr : Libotr) (arg : Str) :
    Secure w (inputStopOtr libotr w arg) := by
  rw [inputStopOtr]
  split
  · split
    · exact crashes_secure .wild
    · exact Secure.refl w
    · split
      · exact crashes_secure .wild
      · split
        · exact (otrCall_secure none _).trans
            (alive_secure fun _ => updateBuddy_secure _ fun _ => rfl)
        · exact Secure.refl w
  · exact Secure.refl w

/-! ## incoming messages -/

theorem receiveOtr_secure (libotr : Libotr) (who message : Str) :
    Secure w (receiveOtr libotr w who message).1 := by
  rw [receiveOtr]
  split
  · split
    · exact crashes_secure .wild
    · split
      · split
        · simp only
          split
          · exact otrCall_secure _ _
          · split
            · exact otrCall_secure _ _
            · split
              · exact otrCall_secure _ _
              · exact (otrCall_secure _ _).trans (crashes_secure .null)
        · exact Secure.refl w
      · exact Secure.refl w
  · exact Secure.refl w

/-- A message from this sender gets an automatic response. -/
def Client.answers (c : Client) (who : Str) (automessage : Bool) : Bool :=
  !c.foundWaiting who && c.conn.autoResponds automessage && c.conn.awaymsg.isSome

omit [Host] in
theorem addWaiting_secure (who : Str) :
    Secure w { w with client := { w.client with waiting := w.client.waiting ++ [who] } } :=
  ⟨⟨rfl, ⟨[], rfl⟩, id⟩, id⟩

theorem awaitAnswer_grows (who : Str) (automessage : Bool) :
    Grows w (awaitAnswer w who automessage) := by
  have hwait := addWaiting_secure (w := w) who
  rw [awaitAnswer]
  split
  · exact (Secure.refl w).toGrows
  · simp only
    split
    · split
      · exact hwait.toGrows.trans (imSend_grows _ _ _)
      · exact hwait.toGrows.trans (crashes_secure .null).toGrows
    · exact hwait.toGrows

/-- An automatic response to somebody who is in no encrypted conversation. -/
theorem awaitAnswer_secure {who : Str} {automessage : Bool}
    (hopen : w.client.answers who automessage = true → w.client.secret who = false) :
    Secure w (awaitAnswer w who automessage) := by
  have hwait := addWaiting_secure (w := w) who
  rw [awaitAnswer]
  split
  · exact Secure.refl w
  · next hwaiting =>
    simp only
    split
    · next hauto =>
      split
      · next awaymsg haway =>
        have hsecret : w.client.secret who = false := hopen (by
          simp [Client.answers, hwaiting, hauto, haway])
        refine hwait.trans (imSend_secure_of_open ?_ _ _)
        exact hsecret
      · exact hwait.trans (crashes_secure .null)
    · exact hwait

/-- The automatic response goes out as it is. -/
theorem awaitAnswer_trace {who : Str} {automessage : Bool}
    (hanswers : w.client.answers who automessage = true) :
    ∃ awaymsg, (awaitAnswer w who automessage).client.trace =
      .imSend who awaymsg true (w.client.secret who) :: w.client.trace := by
  simp only [Client.answers, Bool.and_eq_true, Bool.not_eq_true', Option.isSome_iff_exists]
    at hanswers
  obtain ⟨⟨hwaiting, hauto⟩, awaymsg, haway⟩ := hanswers
  refine ⟨awaymsg, ?_⟩
  rw [awaitAnswer, hwaiting]
  simp only [hauto, haway, if_true, if_neg Bool.false_ne_true]
  rfl

/-- The message makes the client answer automatically, in the open, somebody
whom libotr leaves in an encrypted conversation. -/
def Exposes (libotr : Libotr) (w : World Client) (who : Str) (automessage : Bool)
    (message : Str) : Prop :=
  w.client.answers who automessage = true ∧
    (receiveOtr libotr w who message).1.client.crash = none ∧
    (receiveOtr libotr w who message).1.client.secret who = true ∧
    ((receiveOtr libotr w who message).2.bind (filterText w.client.conn)).isSome = true

omit [Host] in
/-- What the message changes in the settings. -/
theorem setLastsn_eq (w : World Client) (sn : Str) :
    ∃ lastsn, setLastsn w sn = w.setConn { w.client.conn with lastsn := lastsn } := by
  rw [setLastsn]
  split
  · exact ⟨w.client.conn.lastsn, rfl⟩
  · exact ⟨some sn, rfl⟩

omit [Host] in
theorem setLastsn_secure (sn : Str) : Secure w (setLastsn w sn) := by
  obtain ⟨lastsn, hlast⟩ := setLastsn_eq w sn
  rw [hlast]
  exact setConn_secure rfl

/-- The last correspondent and what libotr does have no part in whether the
client answers. -/
theorem answers_eq (libotr : Libotr) (sn who message : Str) (automessage : Bool) :
    (setLastsn (receiveOtr libotr w who message).1 sn).client.answers who automessage =
      w.client.answers who automessage := by
  have hframe := receiveOtr_frame (w := w) libotr who message
  obtain ⟨lastsn, hlast⟩ := setLastsn_eq (receiveOtr libotr w who message).1 sn
  simp [hlast, Client.answers, Client.foundWaiting, BsfConn.autoResponds, World.setConn,
    hframe.conn, hframe.waiting]

omit [Host] in
theorem setLastsn_secret (sn who : Str) :
    (setLastsn w sn).client.secret who = w.client.secret who := by
  obtain ⟨lastsn, hlast⟩ := setLastsn_eq w sn
  rw [hlast]
  rfl

/-- What follows libotr's part. -/
theorem getmessage_eq (libotr : Libotr) (w : World Client) (who : Str) (automessage : Bool)
    (message : Str) :
    getmessage libotr w who automessage message =
      (receiveOtr libotr w who message).1.alive fun w' =>
        match (receiveOtr libotr w who message).2.bind (filterText w'.client.conn) with
        | none => w'
        | some msg => (awaitAnswer (setLastsn w' (simplifySn who)) who automessage).alive fun w =>
            w.logEvent (if automessage then .imAutoresponse else .im) (simplifySn who) (some msg) :=
  rfl

theorem getmessage_grows (libotr : Libotr) (who : Str) (automessage : Bool) (message : Str) :
    Grows w (getmessage libotr w who automessage message) := by
  rw [getmessage_eq]
  refine (receiveOtr_secure libotr who message).toGrows.trans (alive_grows ?_)
  split
  · exact (Secure.refl _).toGrows
  · exact (setLastsn_secure _).toGrows.trans
      ((awaitAnswer_grows _ _).trans (alive_grows (logEvent_secure _ _ _).toGrows))

/-- **An incoming message** that exposes nothing. -/
theorem getmessage_secure {libotr : Libotr} {who : Str} {automessage : Bool} {message : Str}
    (h : ¬ Exposes libotr w who automessage message) :
    Secure w (getmessage libotr w who automessage message) := by
  have hreceive := receiveOtr_secure (w := w) libotr who message
  have hframe := receiveOtr_frame (w := w) libotr who message
  rw [getmessage_eq]
  refine hreceive.trans (alive_secure fun hrunning => ?_)
  rw [hframe.conn]
  cases hmsg : (receiveOtr libotr w who message).2.bind (filterText w.client.conn) with
  | none => exact Secure.refl _
  | some msg =>
      refine (setLastsn_secure _).trans ((awaitAnswer_secure fun hanswers => ?_).trans
        (alive_secure fun _ => logEvent_secure _ _ _))
      rw [answers_eq] at hanswers
      rw [setLastsn_secret]
      by_contra hsecret
      exact h ⟨hanswers, hrunning, by simpa using hsecret, by rw [hmsg]; rfl⟩

/-- **An incoming message** that exposes the away message. -/
theorem getmessage_unsafe {libotr : Libotr} {who : Str} {automessage : Bool} {message : Str}
    (hcalm : w.client.crash = none → Calm w.client.trace)
    (h : Exposes libotr w who automessage message) :
    ¬ TraceSafe (getmessage libotr w who automessage message).client.trace := by
  have hframe := receiveOtr_frame (w := w) libotr who message
  obtain ⟨hanswers, hrunning, hsecret, hshown⟩ := h
  obtain ⟨msg, hmsg⟩ := Option.isSome_iff_exists.mp hshown
  have hcalm' := (receiveOtr_secure (w := w) libotr who message).calm hcalm hrunning
  obtain ⟨awaymsg, htrace⟩ := awaitAnswer_trace
    ((answers_eq (w := w) libotr (simplifySn who) who message automessage).trans hanswers)
  rw [setLastsn_secret, hsecret] at htrace
  -- what is logged afterwards does not help
  have hgo : Grows
      (awaitAnswer (setLastsn (receiveOtr libotr w who message).1 (simplifySn who)) who automessage)
      (getmessage libotr w who automessage message) := by
    rw [getmessage_eq]
    simp only [World.alive_of_running hrunning, hframe.conn, hmsg]
    exact alive_grows (logEvent_secure _ _ _).toGrows
  obtain ⟨new, hnew⟩ := hgo.trace
  intro hsafe
  rw [hnew, htrace] at hsafe
  obtain ⟨hproduced, -⟩ := hsafe.of_append
  obtain ⟨lastsn, hlast⟩ := setLastsn_eq (receiveOtr libotr w who message).1 (simplifySn who)
  rw [hlast] at hproduced
  exact hcalm' awaymsg hproduced

end

/-! ## runs -/

/-- What happens to a client in between two looks at its trace. -/
inductive ClientEvent where
  | incoming (who : Str) (automessage : Bool) (message : Str)
  | typed (arg : Str)
  | paste (arg : Str) (keys : List UInt8)
  | setAway (arg : Str)
  | setPredefaway (arg : Str)
  | stopOtr (arg : Str)
  /-- libotr calls back by itself -/
  | otr (actions : List OtrAction)

section
variable [Host] (libotr : Libotr)

/-- What the client does at an event; one that crashed does nothing. -/
def handleEvent (w : World Client) (e : ClientEvent) : World Client :=
  w.alive fun w =>
    match e with
    | .incoming who automessage message => getmessage libotr w who automessage message
    | .typed arg => inputSendMessage libotr w arg
    | .paste arg keys => inputPaste libotr w arg keys
    | .setAway arg => inputSetAway w arg
    | .setPredefaway arg => inputSetPredefaway w arg
    | .stopOtr arg => inputStopOtr libotr w arg
    | .otr actions => w.otrCall none actions

/-- A run of events. -/
def runEvents (w : World Client) (events : List ClientEvent) : World Client :=
  events.foldl (handleEvent libotr) w

/-- No incoming message of the run exposes anything. -/
def Discreet : World Client → List ClientEvent → Prop
  | _, [] => True
  | w, e :: events =>
    (∀ who automessage message, e = .incoming who automessage message →
      ¬ Exposes libotr w who automessage message) ∧ Discreet (handleEvent libotr w e) events

variable {libotr} {w : World Client}

/-- An event that exposes nothing. -/
theorem handleEvent_secure (hreplaces : libotr.Replaces) (hotr : w.client.conn.otr = true)
    {e : ClientEvent} (h : ∀ who automessage message, e = .incoming who automessage message →
      ¬ Exposes libotr w who automessage message) : Secure w (handleEvent libotr w e) := by
  refine alive_secure fun _ => ?_
  cases e with
  | incoming who automessage message => exact getmessage_secure (h who automessage message rfl)
  | typed arg => exact inputSendMessage_secure hreplaces hotr arg
  | paste arg keys => exact inputPaste_secure hreplaces hotr arg keys
  | setAway arg => exact inputSetAway_secure arg
  | setPredefaway arg => exact inputSetPredefaway_secure arg
  | stopOtr arg => exact inputStopOtr_secure libotr arg
  | otr actions => exact otrCall_secure none actions

theorem handleEvent_grows (hreplaces : libotr.Replaces) (hotr : w.client.conn.otr = true)
    (e : ClientEvent) : Grows w (handleEvent libotr w e) := by
  cases e with
  | incoming who automessage message => exact alive_grows (getmessage_grows libotr _ _ _)
  | typed arg => exact (handleEvent_secure hreplaces hotr (by simp)).toGrows
  | paste arg keys => exact (handleEvent_secure hreplaces hotr (by simp)).toGrows
  | setAway arg => exact (handleEvent_secure hreplaces hotr (by simp)).toGrows
  | setPredefaway arg => exact (handleEvent_secure hreplaces hotr (by simp)).toGrows
  | stopOtr arg => exact (handleEvent_secure hreplaces hotr (by simp)).toGrows
  | otr actions => exact (handleEvent_secure hreplaces hotr (by simp)).toGrows

/-- An event that exposes something. -/
theorem handleEvent_unsafe {who : Str} {automessage : Bool} {message : Str}
    (hcalm : w.client.crash = none → Calm w.client.trace)
    (h : Exposes libotr w who automessage message) :
    ¬ TraceSafe (handleEvent libotr w (.incoming who automessage message)).client.trace := by
  have hrunning : w.client.crash = none := by
    cases hcrash : w.client.crash with
    | none => rfl
    | some k =>
        have hcrashed :=
          (receiveOtr_frame (w := w) libotr who message).crashed (by rw [hcrash]; rfl)
        rw [h.2.1] at hcrashed
        cases hcrashed
  have hstep : handleEvent libotr w (.incoming who automessage message) =
      getmessage libotr w who automessage message := World.alive_of_running hrunning _
  rw [hstep]
  exact getmessage_unsafe hcalm h

theorem runEvents_grows (hreplaces : libotr.Replaces) (hotr : w.client.conn.otr = true)
    (events : List ClientEvent) : Grows w (runEvents libotr w events) := by
  induction events generalizing w with
  | nil => exact (Secure.refl w).toGrows
  | cons e events ih =>
      have hstep := handleEvent_grows hreplaces hotr e
      exact hstep.trans (ih (hstep.otr.trans hotr))

/-- A run from a safe trace, by induction on the events. -/
theorem runEvents_safe_iff (hreplaces : libotr.Replaces) (hotr : w.client.conn.otr = true)
    (hcalm : w.client.crash = none → Calm w.client.trace) (hsafe : TraceSafe w.client.trace)
    (events : List ClientEvent) :
    TraceSafe (runEvents libotr w events).client.trace ↔ Discreet libotr w events := by
  induction events generalizing w with
  | nil => exact iff_of_true hsafe trivial
  | cons e events ih =>
      have hgrows := handleEvent_grows hreplaces hotr e
      by_cases hstep : ∀ who automessage message, e = .incoming who automessage message →
          ¬ Exposes libotr w who automessage message
      · have hsecure := handleEvent_secure hreplaces hotr hstep
        exact (ih (hgrows.otr.trans hotr) (hgrows.calm hcalm) (hsecure.safe hsafe)).trans
          (and_iff_right hstep).symm
      · refine iff_of_false (fun hrun => ?_) fun hdiscreet => hstep hdiscreet.1
        simp only [not_forall, not_not] at hstep
        obtain ⟨who, automessage, message, rfl, hexposes⟩ := hstep
        -- the trace of the whole run still has what this event put there
        obtain ⟨new, hnew⟩ := (runEvents_grows hreplaces (hgrows.otr.trans hotr) events).trace
        rw [runEvents, List.foldl_cons] at hrun
        rw [runEvents] at hnew
        rw [hnew] at hrun
        exact handleEvent_unsafe hcalm hexposes hrun.of_append

/-- **No plaintext leaves during an encrypted conversation**, in a run from an
empty trace, exactly when no step of it answers automatically somebody in
one. -/
theorem traceSafe_iff_discreet (hreplaces : libotr.Replaces) (hotr : w.client.conn.otr = true)
    (hempty : w.client.trace = []) (events : List ClientEvent) :
    TraceSafe (runEvents libotr w events).client.trace ↔ Discreet libotr w events := by
  apply runEvents_safe_iff hreplaces hotr
  · intro _ text hproduced
    rw [hempty] at hproduced
    simp [Produced] at hproduced
  · rw [hempty]
    trivial

end

/-! ## Alice is away -/

/-- A libotr in the middle of an encrypted conversation. -/
def encryptingLibotr : Libotr where
  receiving := fun _ _ _ => ⟨[.store (some 0)], false, some (ascii "hi")⟩
  sending := fun _ _ _ => ⟨[.store (some 0)], false, some (ascii "?OTR:AAMD")⟩
  disconnect := fun _ _ => []
  contextFind := fun _ _ => none

/-- Alice is away, and her conversation with Bob is encrypted. -/
def awayFromBob : World Client where
  handle := imcommCreateHandle zeroBlock
  client := { startClient with
    conn := { startClient.conn with
      isaway := true, awaymsg := some (ascii "gone"), buddiesonline := 1 }
    heap :=
      { cell := Function.update (fun _ => none) 0
          (some ⟨⟨ascii "bob", ascii "Bob", false, false, 1, some 0, 0⟩, none, none⟩)
        brk := 1 }
    buddylist := some 0
    contexts := fun _ => ⟨ascii "bob", .encrypted, true⟩ }
  children := []

theorem encryptingLibotr_replaces [Host] : encryptingLibotr.Replaces := by
  intro w p sn msg _ hnewmsg
  cases hnewmsg

/-- Alice types: what goes out is what libotr returned. -/
theorem traceSafe_iff_discreet_typed :
    (@runEvents littleEndianHost encryptingLibotr awayFromBob
      [.typed (ascii "bob hello")]).client.trace =
        [.imSend (ascii "bob") (ascii "?OTR:AAMD") false true, .newmsg (ascii "?OTR:AAMD")] ∧
    TraceSafe (@runEvents littleEndianHost encryptingLibotr awayFromBob
      [.typed (ascii "bob hello")]).client.trace := by
  refine ⟨rfl, ?_⟩
  exact (@traceSafe_iff_discreet littleEndianHost encryptingLibotr awayFromBob
    (@encryptingLibotr_replaces littleEndianHost) rfl rfl _).mpr ⟨by simp, trivial⟩

/-- Bob writes: the away message goes out as it is. -/
theorem away_message_in_the_open :
    ¬ ∀ (libotr : Libotr) (w : World Client) (events : List ClientEvent),
      @Libotr.Replaces littleEndianHost libotr → w.client.conn.otr = true →
      w.client.trace = [] →
        TraceSafe (@runEvents littleEndianHost libotr w events).client.trace := by
  intro hclaim
  have hsafe := hclaim encryptingLibotr awayFromBob
    [.incoming (ascii "bob") false (ascii "?OTR:AAMC")]
    (@encryptingLibotr_replaces littleEndianHost) rfl rfl
  have htrace : (@runEvents littleEndianHost encryptingLibotr awayFromBob
      [.incoming (ascii "bob") false (ascii "?OTR:AAMC")]).client.trace =
        [.imSend (ascii "bob") (ascii "gone") true true] := rfl
  rw [htrace] at hsafe
  obtain ⟨hproduced, -⟩ := hsafe
  simp [Produced] at hproduced

end Bsflite
