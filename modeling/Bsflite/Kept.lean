import Bsflite.Own
import Bsflite.Typed

/-!
# Bsflite.Kept

The client's functions, seen through a relation between worlds.  A relation
that holds of every change of the client which leaves the away state, and of
every message that is sent, holds of every callback and of every command that
does not call the library otherwise.

* `Kept` — such a relation.
* `Kept.called` — the callbacks.
* `Kept.inputSendMessage`, `Kept.inputPaste`, … — the commands.
-/

namespace Bsflite

open LinkedList

/-- A message that was given to `imcomm_im_send_message`. -/
structure Said where
  whom : Str
  text : Str
  automsg : Bool
deriving DecidableEq, Repr

/-- The message that an entry of the trace is about, if it is one. -/
def Traced.said : Traced → Option Said
  | .imSend whom text automsg _ => some ⟨whom, text, automsg⟩
  | .newmsg _ => none
  | .inject _ => none
  | .logged _ _ _ => none

/-- The messages of a client, the first one first. -/
def Client.said (c : Client) : List Said := (c.trace.filterMap Traced.said).reverse

/-- A relation that the steps of a client keep: those that change the client,
but for the away state and what was said, and those that say something. -/
structure Kept [Host] (R : World Client → World Client → Prop) : Prop where
  refl : ∀ w, R w w
  trans : ∀ {w w' w''}, R w w' → R w' w'' → R w w''
  client : ∀ w (c : Client), c.conn.isaway = w.client.conn.isaway →
    c.conn.awaymsg = w.client.conn.awaymsg → c.said = w.client.said → R w { w with client := c }
  imSend : ∀ w whom text automsg, R w (w.imSend whom text automsg)

namespace Kept

variable [Host] {R : World Client → World Client → Prop} (hR : Kept R)
include hR

/-! ## stores -/

theorem crashes (w : World Client) (k : Crash) : R w (w.crashes k) := by
  rw [World.crashes]
  split
  · exact hR.refl w
  · exact hR.client w _ rfl rfl rfl

/-- A client that crashed stays as it is. -/
theorem alive {w w' : World Client} (h : R w w') {f : World Client → World Client}
    (hf : ∀ w, R w (f w)) : R w (w'.alive f) := by
  rw [World.alive]
  split
  · exact h
  · exact hR.trans h (hf w')

theorem setConn (w : World Client) {conn : BsfConn} (hisaway : conn.isaway = w.client.conn.isaway)
    (hmsg : conn.awaymsg = w.client.conn.awaymsg) : R w (w.setConn conn) :=
  hR.client w _ hisaway hmsg rfl

theorem updateBuddy (w : World Client) (p : Ptr) (f : Buddy → Buddy) : R w (w.updateBuddy p f) := by
  rw [World.updateBuddy]
  split
  · exact hR.client w _ rfl rfl rfl
  · exact hR.crashes w .wild

theorem withBuddy (w : World Client) (who : Str) (f : Buddy → Buddy) : R w (w.withBuddy who f) := by
  rw [World.withBuddy]
  split
  · exact hR.crashes w .wild
  · exact hR.refl w
  · exact hR.updateBuddy w _ f

theorem traced (w : World Client) {t : Traced} (ht : t.said = none) : R w (w.traced t) :=
  hR.client w _ rfl rfl (by rw [Client.said, List.filterMap_cons_none ht]; rfl)

theorem logEvent (w : World Client) (event : LogEvent) (sn : Str) (msg : Option Str) :
    R w (w.logEvent event sn msg) := by
  rw [World.logEvent]
  split
  · split
    · exact hR.crashes w .wild
    · split
      · exact hR.refl w
      · exact hR.traced w rfl
  · exact hR.refl w

/-! ## libotr -/

theorem otrAct (target : Option Ptr) (a : OtrAction) (w : World Client) :
    R w (w.otrAct target a) := by
  refine hR.alive (hR.refl w) fun w => ?_
  have hset (k : Ctx) (context : ConnContext) : R w (w.setContext k context) :=
    hR.client w _ rfl rfl rfl
  cases a with
  | context k context => exact hset k context
  | store k =>
    cases target with
    | none => exact hR.refl w
    | some p => exact hR.updateBuddy w p _
  | inject recipient message =>
    simp only [World.otrInjectMsgCb]
    split
    · exact hR.trans (hR.traced w rfl) (hR.imSend _ _ _ _)
    · exact hR.trans (hR.traced w rfl) (hR.crashes _ _)
  | goneSecure k =>
    simp only [World.otrSecureCb]
    split
    · exact hR.withBuddy w _ _
    · exact hR.refl w
  | goneInsecure k => exact hR.withBuddy w _ _
  | smpEvent event k =>
    cases event with
    | askForSecret => exact hR.withBuddy w _ _
    | askForAnswer => exact hR.withBuddy w _ _
    | success =>
      simp only [World.otrSmpEventCb]
      split
      · exact hR.crashes w .wild
      · exact hR.crashes w .null
      · exact hR.trans (hset k _) (hR.updateBuddy _ _ _)
    | inProgress => exact hR.refl w
    | abort => exact hR.refl w
    | failure => exact hR.refl w
    | cheated => exact hR.refl w
    | error => exact hR.refl w

/-- A call of libotr, whatever it does. -/
theorem otrCall (target : Option Ptr) (actions : List OtrAction) (w : World Client) :
    R w (w.otrCall target actions) := by
  have hfold (w : World Client) : R w (actions.foldl (fun w a => w.otrAct target a) w) := by
    induction actions generalizing w with
    | nil => exact hR.refl w
    | cons a actions ih => exact hR.trans (hR.otrAct target a w) (ih _)
  have hcount : R w { w with client := { w.client with otrCalls := w.client.otrCalls + 1 } } :=
    hR.client w _ rfl rfl rfl
  exact hR.trans hcount (hfold _)

variable (libotr : Libotr)

theorem receiveOtr (w : World Client) (who message : Str) :
    R w (receiveOtr libotr w who message).1 := by
  rw [Bsflite.receiveOtr]
  split
  · split
    · exact hR.crashes w .wild
    · split
      · next p buddy _ _ =>
        have hcall := hR.otrCall (some p) (libotr.receiving w.client buddy.sn message).actions w
        split
        · simp only
          split
          · exact hcall
          · split
            · exact hcall
            · split
              · exact hcall
              · exact hR.trans hcall (hR.crashes _ _)
        · exact hR.refl w
      · exact hR.refl w
  · exact hR.refl w

theorem otrImcommImSendMessage (w : World Client) (sn fullmsg : Str) :
    R w (otrImcommImSendMessage libotr w sn fullmsg).1 := by
  simp only [Bsflite.otrImcommImSendMessage]
  split
  · split
    · exact hR.crashes w .wild
    · split
      · next p buddy _ _ =>
        have hcall := hR.otrCall (some p) (libotr.sending w.client buddy.sn fullmsg).actions w
        split
        · split
          · exact hcall
          · split
            · exact hcall
            · split
              · next newmsg _ =>
                have htraced := hR.trans hcall (@traced _ R hR _ (.newmsg newmsg) rfl)
                have hsend := hR.trans htraced (hR.imSend _ sn newmsg false)
                split
                · exact hsend
                · exact hR.trans hsend (hR.crashes _ .null)
              · exact hR.trans hcall (hR.imSend _ _ _ _)
        · exact hR.imSend w sn fullmsg false
      · exact hR.imSend w sn fullmsg false
  · exact hR.imSend w sn fullmsg false

/-! ## callbacks -/

theorem awaitAnswer (who : Str) (automessage : Bool) (w : World Client) :
    R w (awaitAnswer w who automessage) := by
  rw [Bsflite.awaitAnswer]
  split
  · exact hR.refl w
  · have hwaiting :
        R w { w with client := { w.client with waiting := w.client.waiting ++ [who] } } :=
      hR.client w _ rfl rfl rfl
    simp only
    split
    · split
      · exact hR.trans hwaiting (hR.imSend _ _ _ _)
      · exact hR.trans hwaiting (hR.crashes _ _)
    · exact hwaiting

/-- **A message arrives.** -/
theorem getmessage (w : World Client) (who : Str) (automessage : Bool) (message : Str) :
    R w (getmessage libotr w who automessage message) := by
  rw [Bsflite.getmessage]
  refine hR.alive (hR.receiveOtr libotr w who message) fun w => ?_
  split
  · exact hR.refl w
  · have hlast : R w (setLastsn w (simplifySn who)) := by
      rw [setLastsn]
      split
      · exact hR.refl w
      · exact hR.setConn w rfl rfl
    exact hR.alive (hR.trans hlast (hR.awaitAnswer who automessage _)) fun w => hR.logEvent w _ _ _

/-- **A buddy comes.** -/
theorem buddyOnline (w : World Client) (who : Str) : R w (buddyOnline libotr w who) := by
  rw [Bsflite.buddyOnline]
  split
  · exact hR.crashes w .wild
  · next client newbuddy hinsert =>
    obtain ⟨heap, head, rfl⟩ := insertBuddy_same hinsert
    have hnode : R w { w with client := { w.client with heap := heap, buddylist := head } } :=
      hR.client w _ rfl rfl rfl
    have hfilled (f g : Buddy → Buddy) := hR.trans (hR.trans hnode (hR.updateBuddy _ newbuddy f))
      (hR.updateBuddy _ newbuddy g)
    simp only
    split
    · exact hR.trans (hfilled _ _) (hR.setConn _ rfl rfl)
    · refine hR.trans ?_ (hR.logEvent _ _ _ _)
      exact hR.trans (hfilled _ _) (hR.setConn _ rfl rfl)

theorem unlinkBuddy (w : World Client) (trav : Ptr) : R w (w.unlinkBuddy trav) := by
  rw [World.unlinkBuddy]
  split
  · exact hR.client w _ rfl rfl rfl
  · exact hR.crashes w .wild

theorem countOff (w : World Client) : R w w.countOff := hR.setConn w rfl rfl

theorem removeFromList (w : World Client) (who : Str) : R w (removeFromList w who) := by
  rw [Bsflite.removeFromList]
  split
  · exact hR.crashes w .wild
  · exact hR.refl w
  · exact hR.trans (hR.countOff w) (hR.unlinkBuddy _ _)

/-- **A buddy goes.** -/
theorem buddyOffline (w : World Client) (who : Str) : R w (buddyOffline libotr w who) := by
  rw [Bsflite.buddyOffline]
  split
  · exact hR.crashes w .wild
  · exact hR.refl w
  · next trav _ =>
    have hend : R w (endOtr libotr w trav) := by
      rw [endOtr]
      split
      · split
        · exact hR.alive (hR.otrCall none _ w) fun w => hR.updateBuddy w _ _
        · exact hR.refl w
      · exact hR.crashes w .wild
    refine hR.alive hend fun w => ?_
    have hoff : R w (w.unlinkBuddy trav).countOff :=
      hR.trans (hR.unlinkBuddy w trav) (hR.countOff _)
    simp only
    split
    · exact hoff
    · exact hR.trans hoff (hR.logEvent _ _ _ _)

/-- **The callbacks**, with those that the client leaves to `others`. -/
theorem called {others : Callback → World Client → World Client} (w : World Client) (c : Callback)
    (hothers : R w (others c w)) : R w (called libotr others c w) := by
  cases c with
  | imSignon sn => exact hR.buddyOnline libotr w sn
  | imSignoff sn => exact hR.buddyOffline libotr w sn
  | imBuddyaway sn => exact hR.withBuddy w sn _
  | imBuddyunaway sn => exact hR.withBuddy w sn _
  | imIdleinfo sn idletime => exact hR.withBuddy w sn _
  | imIncoming sn autoResp msg => exact hR.getmessage libotr w sn autoResp msg
  | imProfile sn profile => exact hothers
  | imAwaymsg sn awaymsg => exact hothers
  | error event data => exact hothers
  | formattedSn sn => exact hothers
  | handleDeleted => exact hothers

/-! ## commands -/

theorem inputSendMessage (w : World Client) (arg : Str) :
    R w (inputSendMessage libotr w arg) := by
  rw [Bsflite.inputSendMessage]
  split
  · split
    · exact hR.refl w
    · refine hR.alive (hR.otrImcommImSendMessage libotr w _ _) fun w => ?_
      refine hR.trans ?_ (hR.logEvent _ _ _ _)
      exact hR.setConn w rfl rfl
  · exact hR.refl w

theorem inputPasteLoop (sn : Str) (maxmsgsize fuel : Nat) (w : World Client) (sendbuf : Str)
    (sendbuflen : Nat) (keys : List UInt8) :
    R w (inputPasteLoop libotr sn maxmsgsize fuel w sendbuf sendbuflen keys) := by
  induction fuel generalizing w sendbuf sendbuflen keys with
  | zero => exact hR.refl w
  | succ fuel ih =>
    rw [Bsflite.inputPasteLoop]
    have hsend := hR.otrImcommImSendMessage libotr w sn sendbuf
    split
    · exact hR.refl w
    · exact hR.refl w
    · exact hR.crashes w .wild
    · split
      · split
        · exact hsend
        · exact hR.refl w
      · split
        · simp only
          split
          · exact hsend
          · exact hR.trans hsend (ih _ _ _ _)
        · split
          · exact ih _ _ _ _
          · exact ih _ _ _ _

theorem inputPaste (w : World Client) (arg : Str) (keys : List UInt8) :
    R w (inputPaste libotr w arg keys) := by
  rw [Bsflite.inputPaste]
  split
  · split
    · exact hR.refl w
    · exact hR.inputPasteLoop libotr _ _ _ w _ _ _
  · exact hR.crashes w .null

theorem inputStopOtr (w : World Client) (arg : Str) : R w (inputStopOtr libotr w arg) := by
  rw [Bsflite.inputStopOtr]
  split
  · split
    · exact hR.crashes w .wild
    · exact hR.refl w
    · split
      · exact hR.crashes w .wild
      · split
        · exact hR.alive (hR.otrCall none _ w) fun w => hR.updateBuddy w _ _
        · exact hR.refl w
  · exact hR.refl w

theorem inputSendSmpResponse (respondSmp : Client → Ctx → Str → List OtrAction)
    (w : World Client) (arg : Str) : R w (inputSendSmpResponse respondSmp w arg) := by
  rw [Bsflite.inputSendSmpResponse]
  split
  · split
    · exact hR.refl w
    · split
      · exact hR.crashes w .wild
      · split
        · exact hR.otrCall none _ w
        · exact hR.refl w
  · exact hR.refl w

theorem inputSendSmpRequest (w : World Client) (arg : Str) :
    R w (inputSendSmpRequest w arg) := by
  rw [Bsflite.inputSendSmpRequest]
  split
  · split
    · exact hR.refl w
    · split
      · exact hR.crashes w .wild
      · exact hR.refl w
  · exact hR.refl w

theorem inputManualOtrVerify (w : World Client) (arg : Str) :
    R w (inputManualOtrVerify w arg) := by
  rw [Bsflite.inputManualOtrVerify]
  split
  · split
    · exact hR.crashes w .wild
    · split
      · exact hR.client w _ rfl rfl rfl
      · exact hR.refl w
  · exact hR.refl w

end Kept

end Bsflite
