import Bsflite.Secrecy
import Bsflite.Idle

/-!
# Bsflite.Own

What the client does of itself: the automatic responses, the texts in the
logs, and who is put on the list of those who wait.  `getmessage` and
`input_send_message` do that; libotr, the other commands, and buddies that
come and go do not.

* `Tells` — what a step tells the server about the idle time.
* `Plain` — a step that tells, and does nothing of itself.
* `otrCall_plain`, `receiveOtr_plain`, … — one lemma for each function.
-/

namespace Bsflite

open LinkedList

/-! ## steps -/

/-- An automatic response, or a line in a log that has a text. -/
def Traced.own : Traced → Bool
  | .imSend _ _ automsg _ => automsg
  | .logged _ _ msg => msg.isSome
  | .newmsg _ => false
  | .inject _ => false

/-- What the client did of itself, newest first. -/
def World.own (w : World Client) : List Traced := w.client.trace.filter Traced.own

/-- A step that leaves the prompt alone, and whose sends end an idle period
when it `spoke`.  A client that crashes in it may not come to that. -/
structure Tells (w w' : World Client) (spoke : Bool) : Prop where
  isidle : w'.client.conn.isidle = w.client.conn.isidle
  conn : w'.client.conn.conn = w.client.conn.conn
  crashed : w.client.crash.isSome → w'.client.crash.isSome
  told : ∃ reset, (w'.client.crash = none → reset = spoke) ∧
    (w.handle.Flowing → Told w.handle (w.handle.isidle && !reset) w'.handle)

/-- A step in which the client does nothing of itself. -/
structure Plain (w w' : World Client) (spoke : Bool) : Prop extends Tells w w' spoke where
  waiting : w'.client.waiting = w.client.waiting
  own : w'.own = w.own

/-- A view of the trace that only sees what the client did of itself. -/
theorem filterMap_of_own {α : Type} {view : Traced → Option α}
    (hview : ∀ t, t.own = false → view t = none) {w w' : World Client} (h : w'.own = w.own) :
    w'.client.trace.filterMap view = w.client.trace.filterMap view := by
  have hown (w : World Client) :
      w.client.trace.filterMap view = w.own.filterMap view := by
    rw [World.own, List.filterMap_filter]
    refine List.filterMap_congr fun t _ => ?_
    cases ht : t.own with
    | false => exact hview t ht
    | true => rfl
  rw [hown, h, hown]

section
variable {w w' w'' : World Client} {spoke spoke' : Bool}

/-- The handle stays. -/
theorem told_same (w : World Client) {p : Prop} : ∃ reset, (p → reset = false) ∧
    (w.handle.Flowing → Told w.handle (w.handle.isidle && !reset) w.handle) :=
  ⟨false, fun _ => rfl, fun hf => by simpa using Told.refl hf⟩

theorem Tells.trans (h : Tells w w' spoke) (h' : Tells w' w'' spoke') :
    Tells w w'' (spoke || spoke') := by
  obtain ⟨reset, hreset, htold⟩ := h.told
  obtain ⟨reset', hreset', htold'⟩ := h'.told
  refine ⟨h'.isidle.trans h.isidle, h'.conn.trans h.conn, fun hc => h'.crashed (h.crashed hc),
    reset || reset', fun hrunning => ?_, fun hf => ?_⟩
  · have hbefore : w'.client.crash = none := by
      cases hcrash : w'.client.crash with
      | none => rfl
      | some k =>
          have hcrashed := h'.crashed (by rw [hcrash]; rfl)
          rw [hrunning] at hcrashed
          cases hcrashed
    rw [hreset hbefore, hreset' hrunning]
  · have hmid := htold' (htold hf).flowing
    rw [(htold hf).isidle, Bool.and_assoc, ← Bool.not_or] at hmid
    exact (htold hf).trans hmid

theorem Plain.trans (h : Plain w w' spoke) (h' : Plain w' w'' spoke') :
    Plain w w'' (spoke || spoke') :=
  ⟨h.toTells.trans h'.toTells, h'.waiting.trans h.waiting, h'.own.trans h.own⟩

/-- What follows does not speak. -/
theorem Plain.trans_silent (h : Plain w w' spoke) (h' : Plain w' w'' false) : Plain w w'' spoke :=
  Bool.or_false spoke ▸ h.trans h'

theorem Tells.trans_silent (h : Tells w w' spoke) (h' : Tells w' w'' false) : Tells w w'' spoke :=
  Bool.or_false spoke ▸ h.trans h'

theorem Plain.refl (w : World Client) : Plain w w false :=
  ⟨⟨rfl, rfl, id, told_same w⟩, rfl, rfl⟩

/-- A client that crashed may have spoken before or not. -/
theorem Plain.of_crashed (h : Plain w w' spoke) (hcrashed : w'.client.crash.isSome) :
    Plain w w' spoke' := by
  obtain ⟨reset, -, htold⟩ := h.told
  refine ⟨⟨h.isidle, h.conn, h.crashed, reset, fun hrunning => ?_, htold⟩, h.waiting, h.own⟩
  rw [hrunning] at hcrashed
  cases hcrashed

theorem crashes_plain (w : World Client) (k : Crash) : Plain w (w.crashes k) spoke := by
  have hsilent : Plain w (w.crashes k) false := by
    rw [World.crashes]
    split
    · exact Plain.refl w
    · exact ⟨⟨rfl, rfl, fun _ => rfl, told_same w⟩, rfl, rfl⟩
  exact hsilent.of_crashed (World.crashes_isSome w k)

theorem alive_tells {f : World Client → World Client}
    (hf : w.client.crash = none → Tells w (f w) false) : Tells w (w.alive f) false := by
  rw [World.alive]
  split
  · exact (Plain.refl w).toTells
  · next hrunning => exact hf (by simpa using hrunning)

theorem alive_plain {f : World Client → World Client}
    (hf : w.client.crash = none → Plain w (f w) spoke) : Plain w (w.alive f) spoke := by
  rw [World.alive]
  split
  · next hcrashed => exact (Plain.refl w).of_crashed hcrashed
  · next hrunning => exact hf (by simpa using hrunning)

/-- Settings that keep the prompt and the connection. -/
theorem setConn_plain (w : World Client) {conn : BsfConn}
    (hisidle : conn.isidle = w.client.conn.isidle) (hconn : conn.conn = w.client.conn.conn) :
    Plain w (w.setConn conn) false :=
  ⟨⟨hisidle, hconn, id, told_same w⟩, rfl, rfl⟩

theorem traced_plain (w : World Client) {t : Traced} (h : t.own = false) :
    Plain w (w.traced t) false :=
  ⟨⟨rfl, rfl, id, told_same w⟩, rfl, List.filter_cons_of_neg (by simp [h])⟩

theorem updateBuddy_plain (w : World Client) (p : Ptr) (f : Buddy → Buddy) :
    Plain w (w.updateBuddy p f) false := by
  rw [World.updateBuddy]
  split
  · exact ⟨⟨rfl, rfl, id, told_same w⟩, rfl, rfl⟩
  · exact crashes_plain w .wild

theorem withBuddy_plain (w : World Client) (who : Str) (f : Buddy → Buddy) :
    Plain w (w.withBuddy who f) false := by
  rw [World.withBuddy]
  split
  · exact crashes_plain w .wild
  · exact Plain.refl w
  · exact updateBuddy_plain w _ f

/-- A line in a log. -/
theorem logEvent_tells (w : World Client) (event : LogEvent) (sn : Str) (msg : Option Str) :
    Tells w (w.logEvent event sn msg) false := by
  rw [World.logEvent]
  split
  · split
    · exact (crashes_plain w .wild).toTells
    · split
      · exact (Plain.refl w).toTells
      · exact ⟨rfl, rfl, id, told_same w⟩
  · exact (Plain.refl w).toTells

/-- A line without a text. -/
theorem logEvent_none_plain (w : World Client) (event : LogEvent) (sn : Str) :
    Plain w (w.logEvent event sn none) false := by
  rw [World.logEvent]
  split
  · split
    · exact crashes_plain w .wild
    · split
      · exact Plain.refl w
      · exact traced_plain w rfl
  · exact Plain.refl w

variable [Host]

/-- A text for `imcomm_im_send_message`. -/
theorem imSend_tells (w : World Client) (whom text : Str) (automsg : Bool) :
    Tells w (w.imSend whom text automsg) (!automsg) :=
  ⟨rfl, rfl, id, !automsg, fun _ => rfl, fun hf => by
    rw [Bool.not_not]
    exact imcommImSendMessage_told hf whom text automsg⟩

/-- A message that is no automatic response. -/
theorem imSend_plain (w : World Client) (whom text : Str) :
    Plain w (w.imSend whom text false) true :=
  ⟨imSend_tells w whom text false, rfl, List.filter_cons_of_neg Bool.false_ne_true⟩

end

/-! ## libotr -/

/-- Is it a message for `otr_inject_msg_cb`? -/
def OtrAction.isInject : OtrAction → Bool
  | .inject _ _ => true
  | _ => false

section
variable [Host] (w : World Client)

theorem otrAct_plain (target : Option Ptr) (a : OtrAction) :
    Plain w (w.otrAct target a) a.isInject := by
  refine alive_plain fun _ => ?_
  have hset (k : Ctx) (context : ConnContext) : Plain w (w.setContext k context) false :=
    ⟨⟨rfl, rfl, id, told_same w⟩, rfl, rfl⟩
  cases a with
  | context k context => exact hset k context
  | store k =>
      cases target with
      | none => exact Plain.refl w
      | some p => exact updateBuddy_plain w p _
  | inject recipient message =>
      simp only [World.otrInjectMsgCb]
      split
      · exact (traced_plain w rfl).trans (imSend_plain _ _ _)
      · exact (traced_plain w rfl).trans (crashes_plain _ _)
  | goneSecure k =>
      simp only [World.otrSecureCb]
      split
      · exact withBuddy_plain w _ _
      · exact Plain.refl w
  | goneInsecure k => exact withBuddy_plain w _ _
  | smpEvent event k =>
      cases event with
      | askForSecret => exact withBuddy_plain w _ _
      | askForAnswer => exact withBuddy_plain w _ _
      | success =>
          simp only [World.otrSmpEventCb]
          split
          · exact crashes_plain w .wild
          · exact crashes_plain w .null
          · exact (hset k _).trans_silent (updateBuddy_plain _ _ _)
      | inProgress => exact Plain.refl w
      | abort => exact Plain.refl w
      | failure => exact Plain.refl w
      | cheated => exact Plain.refl w
      | error => exact Plain.refl w

/-- **A call of libotr.** -/
theorem otrCall_plain (target : Option Ptr) (actions : List OtrAction) :
    Plain w (w.otrCall target actions) (actions.any OtrAction.isInject) := by
  have hfold : ∀ w : World Client, Plain w (actions.foldl (fun w a => w.otrAct target a) w)
      (actions.any OtrAction.isInject) := by
    induction actions with
    | nil => exact Plain.refl
    | cons a actions ih => exact fun w => (otrAct_plain w target a).trans (ih _)
  have hcount : Plain w
      { w with client := { w.client with otrCalls := w.client.otrCalls + 1 } } false :=
    ⟨⟨rfl, rfl, id, told_same w⟩, rfl, rfl⟩
  exact hcount.trans (hfold _)

variable (libotr : Libotr)

/-- Does libotr inject something when a message arrives? -/
def Libotr.injects (who message : Str) : Bool :=
  ((w.client.findBuddy who).join.bind w.client.buddyAt).any fun buddy =>
    w.client.conn.otr && decide (buddy.otr ≠ -1) &&
      (libotr.receiving w.client buddy.sn message).actions.any OtrAction.isInject

theorem receiveOtr_plain (who message : Str) :
    Plain w (receiveOtr libotr w who message).1 (libotr.injects w who message) := by
  rw [receiveOtr]
  split
  · next hotr =>
    split
    · exact crashes_plain w .wild
    · next found hfind =>
      rw [Libotr.injects, hfind, Option.join_some, hotr]
      cases found with
      | none => exact Plain.refl w
      | some p =>
          rw [Option.bind_some]
          cases hat : w.client.buddyAt p with
          | none => exact Plain.refl w
          | some buddy =>
              rw [Option.any_some, Bool.true_and]
              simp only
              split
              · next hexempt =>
                have hcall := otrCall_plain w (some p)
                  (libotr.receiving w.client buddy.sn message).actions
                rw [decide_eq_true hexempt, Bool.true_and]
                split
                · exact hcall
                · split
                  · exact hcall
                  · split
                    · exact hcall
                    · exact hcall.trans_silent (crashes_plain _ _)
              · next hexempt =>
                rw [decide_eq_false hexempt]
                exact Plain.refl w
  · next hotr =>
    have hsilent : libotr.injects w who message = false := by
      simp [Libotr.injects, hotr]
    rw [hsilent]
    exact Plain.refl w

/-- **A typed or pasted message.** -/
theorem otrImcommImSendMessage_plain (sn fullmsg : Str) :
    ∃ spoke, Plain w (otrImcommImSendMessage libotr w sn fullmsg).1 spoke := by
  simp only [otrImcommImSendMessage]
  split
  · split
    · exact ⟨false, crashes_plain w .wild⟩
    · split
      · next p buddy _ _ =>
        have hcall := otrCall_plain w (some p) (libotr.sending w.client buddy.sn fullmsg).actions
        split
        · split
          · exact ⟨_, hcall⟩
          · split
            · exact ⟨_, hcall⟩
            · split
              · next newmsg _ =>
                have hsend := (hcall.trans (traced_plain _ (t := .newmsg newmsg) rfl)).trans
                  (imSend_plain _ sn newmsg)
                split
                · exact ⟨_, hsend⟩
                · exact ⟨_, hsend.trans_silent (crashes_plain _ .null)⟩
              · exact ⟨_, hcall.trans (imSend_plain _ _ _)⟩
        · exact ⟨_, imSend_plain w sn fullmsg⟩
      · exact ⟨_, imSend_plain w sn fullmsg⟩
  · exact ⟨_, imSend_plain w sn fullmsg⟩

/-! ## commands -/

theorem inputPasteLoop_plain (sn : Str) (maxmsgsize fuel : Nat) (w : World Client) (sendbuf : Str)
    (sendbuflen : Nat) (keys : List UInt8) :
    ∃ spoke, Plain w (inputPasteLoop libotr sn maxmsgsize fuel w sendbuf sendbuflen keys)
      spoke := by
  induction fuel generalizing w sendbuf sendbuflen keys with
  | zero => exact ⟨false, Plain.refl w⟩
  | succ fuel ih =>
      rw [inputPasteLoop]
      obtain ⟨spoke, hsend⟩ := otrImcommImSendMessage_plain w libotr sn sendbuf
      split
      · exact ⟨false, Plain.refl w⟩
      · exact ⟨false, Plain.refl w⟩
      · exact ⟨false, crashes_plain w .wild⟩
      · next pbuf keys _ =>
        split
        · split
          · exact ⟨spoke, hsend⟩
          · exact ⟨false, Plain.refl w⟩
        · split
          · simp only
            split
            · exact ⟨spoke, hsend⟩
            · obtain ⟨spoke', hrest⟩ :=
                ih (otrImcommImSendMessage libotr w sn sendbuf).1 (cstr pbuf) pbuf.length keys
              exact ⟨_, hsend.trans hrest⟩
          · split
            · exact ih _ _ _ _
            · exact ih _ _ _ _

theorem inputPaste_plain (arg : Str) (keys : List UInt8) :
    ∃ spoke, Plain w (inputPaste libotr w arg keys) spoke := by
  rw [inputPaste]
  split
  · split
    · exact ⟨false, Plain.refl w⟩
    · exact inputPasteLoop_plain libotr _ _ _ w _ _ _
  · exact ⟨false, crashes_plain w .null⟩

omit [Host] in
/-- A new away state: the handle is told, then the settings change. -/
theorem setAway_plain {w : World Client} {h : Imcomm} {conn : BsfConn}
    (hhandle : w.handle.Flowing → Told w.handle w.handle.isidle h)
    (hisidle : conn.isidle = w.client.conn.isidle) (hconn : conn.conn = w.client.conn.conn) :
    Plain w ({ w with handle := h }.setConn conn) false :=
  ⟨⟨hisidle, hconn, id, false, fun _ => rfl, fun hf => by
    rw [Bool.not_false, Bool.and_true]
    exact hhandle hf⟩, rfl, rfl⟩

theorem inputSetAway_plain (arg : Str) : Plain w (inputSetAway w arg) false := by
  rw [inputSetAway]
  split
  · split
    · exact setAway_plain imcommSetUnaway_told rfl rfl
    · exact setAway_plain (fun hf => imcommSetAway_told hf arg) rfl rfl
  · exact Plain.refl w

theorem inputSetPredefaway_plain (arg : Str) : Plain w (inputSetPredefaway w arg) false := by
  rw [inputSetPredefaway]
  split
  · split
    · exact Plain.refl w
    · split
      · exact setAway_plain (fun hf => imcommSetAway_told hf _) rfl rfl
      · exact Plain.refl w
  · exact Plain.refl w

theorem inputStopOtr_plain (arg : Str) : ∃ spoke, Plain w (inputStopOtr libotr w arg) spoke := by
  rw [inputStopOtr]
  split
  · split
    · exact ⟨false, crashes_plain w .wild⟩
    · exact ⟨false, Plain.refl w⟩
    · split
      · exact ⟨false, crashes_plain w .wild⟩
      · split
        · exact ⟨_, (otrCall_plain w none _).trans_silent
            (alive_plain fun _ => updateBuddy_plain _ _ _)⟩
        · exact ⟨false, Plain.refl w⟩
  · exact ⟨false, Plain.refl w⟩

/-! ## buddies -/

omit [Host] in
/-- The pointer work of `buddy_online` changes the list only. -/
theorem insertBuddy_same {c client : Client} {sname : Str} {newbuddy : Ptr}
    (h : c.insertBuddy sname = some (client, newbuddy)) :
    ∃ heap head, client = { c with heap := heap, buddylist := head } := by
  simp only [Client.insertBuddy, Option.bind_eq_bind, Option.pure_def, Option.bind_eq_some_iff,
    Option.some_inj, Prod.mk.injEq] at h
  obtain ⟨-, -, ⟨heap, head⟩, -, rfl, -⟩ := h
  exact ⟨heap, head, rfl⟩

omit [Host] in
theorem unlinkBuddy_plain (trav : Ptr) : Plain w (w.unlinkBuddy trav) false := by
  rw [World.unlinkBuddy]
  split
  · exact ⟨⟨rfl, rfl, id, told_same w⟩, rfl, rfl⟩
  · exact crashes_plain w .wild

omit [Host] in
theorem buddyOnline_plain (who : Str) : Plain w (buddyOnline libotr w who) false := by
  rw [buddyOnline]
  split
  · exact crashes_plain w .wild
  · next client newbuddy hinsert =>
    obtain ⟨heap, head, rfl⟩ := insertBuddy_same hinsert
    have hnode :
        Plain w { w with client := { w.client with heap := heap, buddylist := head } } false :=
      ⟨⟨rfl, rfl, id, told_same w⟩, rfl, rfl⟩
    have hfilled (f g : Buddy → Buddy) :=
      (hnode.trans (updateBuddy_plain _ newbuddy f)).trans (updateBuddy_plain _ newbuddy g)
    simp only
    split
    · exact (hfilled _ _).trans_silent (setConn_plain _ rfl rfl)
    · refine Plain.trans_silent ?_ (logEvent_none_plain _ _ _)
      exact (hfilled _ _).trans_silent (setConn_plain _ rfl rfl)

/-- Does libotr inject something when a buddy goes? -/
def Libotr.injectsOff (who : Str) : Bool :=
  ((w.client.findBuddy who).join.bind w.client.buddyAt).any fun buddy =>
    decide (buddy.otr = 1) &&
      (libotr.disconnect w.client buddy.sn).any OtrAction.isInject

theorem buddyOffline_plain (who : Str) :
    Plain w (buddyOffline libotr w who) (libotr.injectsOff w who) := by
  rw [buddyOffline]
  split
  · exact crashes_plain w .wild
  · next hfind =>
    rw [Libotr.injectsOff, hfind]
    exact Plain.refl w
  · next trav hfind =>
    have hend : Plain w (endOtr libotr w trav) (libotr.injectsOff w who) := by
      rw [Libotr.injectsOff, hfind, Option.join_some, Option.bind_some, endOtr]
      split
      · next buddy hat =>
        rw [hat, Option.any_some]
        split
        · next hotr =>
          rw [decide_eq_true hotr, Bool.true_and]
          exact (otrCall_plain w none _).trans_silent (alive_plain fun _ => updateBuddy_plain _ _ _)
        · next hotr =>
          rw [decide_eq_false hotr]
          exact Plain.refl w
      · exact crashes_plain w .wild
    have hgone (w : World Client) : Plain w (w.unlinkBuddy trav).countOff false :=
      (unlinkBuddy_plain w trav).trans (setConn_plain _ rfl rfl)
    refine hend.trans_silent (alive_plain fun _ => ?_)
    simp only
    split
    · exact hgone _
    · exact (hgone _).trans (logEvent_none_plain _ _ _)

end

end Bsflite
