import Bsflite.Hearing
import Bsflite.OtrState

/-!
# Bsflite.Running

What keeps the client from a null pointer, behind which nothing can be said of
its lists.  Three things lead to one: what libotr does (`Trips`), a message of
libotr without a context, and an away message that is missing.

* `otrCall_intact` — a call of libotr in which nothing trips.
* `getmessage_intact`, `buddyOffline_running` — the two callbacks that call it.
* `presence_running` — with a libotr that keeps its contract, a connection and an
  away message no run ends the client, and its lists mirror the library's.
-/

namespace Bsflite

open LinkedList

section
variable [Host]

/-! ## the contract -/

/-- Nothing in a call of libotr trips. -/
def Smooth (target : Option Ptr) (w : World Client) : List OtrAction → Prop
  | [] => True
  | a :: actions => ¬ Trips w a ∧ Smooth target (w.otrAct target a) actions

/-- libotr in a client that is connected: its calls are smooth, and a message
that it returns instead of another has a context, which it stored. -/
structure Libotr.Sound (libotr : Libotr) : Prop where
  receiving : ∀ (w : World Client) (p : Ptr) (who message : Str) (buddy : Buddy),
    w.client.conn.conn = true → w.client.findBuddy who = some (some p) →
    w.client.buddyAt p = some buddy →
    Smooth (some p) w.counted (libotr.receiving w.client buddy.sn message).actions
  context : ∀ (w : World Client) (p : Ptr) (who message : Str) (buddy : Buddy),
    w.client.conn.conn = true → w.client.findBuddy who = some (some p) →
    w.client.buddyAt p = some buddy → (libotr.receiving w.client buddy.sn message).err = false →
    (libotr.receiving w.client buddy.sn message).newmsg ≠ none →
    ((w.otrCall (some p) (libotr.receiving w.client buddy.sn message).actions).client.buddyAt
      p).bind Buddy.otrContext ≠ none
  disconnect : ∀ (w : World Client) (p : Ptr) (buddy : Buddy), w.client.conn.conn = true →
    w.client.buddyAt p = some buddy →
    Smooth none w.counted (libotr.disconnect w.client buddy.sn)

example : quietLibotr.Sound where
  receiving _ _ _ _ _ _ _ _ := trivial
  context _ _ _ _ _ _ _ _ _ hnew := absurd rfl hnew
  disconnect _ _ _ _ _ := trivial

omit [Host] in
/-- A client that is connected, and has an away message while it is away. -/
structure Able (w : World Client) : Prop where
  conn : w.client.conn.conn = true
  awaymsg : w.client.conn.isaway = true → w.client.conn.awaymsg ≠ none

omit [Host] in
theorem OnlyLists.able {w w' : World Client} (h : OnlyLists w w') (hable : Able w) : Able w' := by
  obtain ⟨online, heap, crash, rfl⟩ := h
  exact ⟨hable.conn, hable.awaymsg⟩

/-! ## the callbacks -/

variable {libotr : Libotr} {w : World Client} {ns as bs : List (Ptr × Buddy)} {n : Int}
  {online : List OnlineBuddy} {p : Ptr} {b : Buddy}

/-- **A call of libotr** in which nothing trips. -/
theorem otrCall_intact (h : Intact ns n online w) {target : Option Ptr}
    (htarget : ∀ p ∈ target, p ∈ ns.map Prod.fst) {actions : List OtrAction}
    (hsmooth : Smooth target w.counted actions) :
    Intact ns n online (w.otrCall target actions) := by
  have hcounted : Intact ns n online w.counted := ⟨h.running, h.shows, h.count, h.lib⟩
  show Intact ns n online (actions.foldl (fun w a => w.otrAct target a) w.counted)
  generalize w.counted = w at hcounted hsmooth ⊢
  induction actions generalizing w with
  | nil => exact hcounted
  | cons a actions ih =>
      exact ih _ (otrAct_intact hcounted htarget hsmooth.1) hsmooth.2

/-- The first part of `getmessage`. -/
theorem receiveOtr_intact (hsound : libotr.Sound) (h : Intact ns n online w) (hable : Able w)
    (who message : Str) : Intact ns n online (receiveOtr libotr w who message).1 := by
  rw [receiveOtr]
  split
  · rw [h.findBuddy_eq]
    simp only
    split
    · next p buddy hp hbuddy =>
      have hfind : w.client.findBuddy who = some (some p) :=
        (h.findBuddy_eq who).trans (congrArg some hp)
      rw [hp] at hbuddy
      split
      · have htarget : ∀ q ∈ some p, q ∈ ns.map Prod.fst := by
          intro q hq
          rw [Option.mem_some_iff] at hq
          rw [← hq]
          exact findBuddy_mem h.shows hfind
        have hcall := otrCall_intact h htarget
          (hsound.receiving w p who message buddy hable.conn hfind hbuddy)
        split
        · exact hcall
        · next herr =>
          split
          · exact hcall
          · next newmsg hnewmsg =>
            split
            · exact hcall
            · next hnone =>
              exact absurd hnone (hsound.context w p who message buddy hable.conn hfind hbuddy
                (Bool.eq_false_of_not_eq_true herr) (by rw [hnewmsg]; exact Option.some_ne_none _))
      · exact h
    · exact h
  · exact h

/-- The away message is there when it is due. -/
theorem awaitAnswer_intact (h : Intact ns n online w)
    (haway : w.client.conn.isaway = true → w.client.conn.awaymsg ≠ none) (who : Str)
    (automessage : Bool) : Intact ns n online (awaitAnswer w who automessage) := by
  rw [awaitAnswer]
  have hwait : Intact ns n online
      { w with client := { w.client with waiting := w.client.waiting ++ [who] } } :=
    ⟨h.running, h.shows, h.count, h.lib⟩
  split
  · exact h
  · simp only
    split
    · next hdue =>
      split
      · exact imSend_intact hwait _ _ _
      · next hnone =>
        simp only [BsfConn.autoResponds, Bool.and_eq_true] at hdue
        exact absurd hnone (haway hdue.1.1)
    · exact hwait

/-- **An incoming message** does not end the client. -/
theorem getmessage_intact (hsound : libotr.Sound) (h : Intact ns n online w) (hable : Able w)
    (who : Str) (automessage : Bool) (message : Str) :
    Intact ns n online (getmessage libotr w who automessage message) := by
  have hreceive := receiveOtr_intact hsound h hable who message
  have hconn := (receiveOtr_frame (w := w) libotr who message).conn
  rw [getmessage]
  simp only [World.alive_of_running hreceive.running]
  split
  · exact hreceive
  · have haway : (setLastsn (receiveOtr libotr w who message).1 (simplifySn who)).client.conn.isaway
        = true → (setLastsn (receiveOtr libotr w who message).1
          (simplifySn who)).client.conn.awaymsg ≠ none := by
      rw [setLastsn]
      split
      · rw [hconn]
        exact hable.awaymsg
      · simp only [World.setConn, hconn]
        exact hable.awaymsg
    have hawait := awaitAnswer_intact (setLastsn_intact hreceive (simplifySn who)) haway who
      automessage
    rw [World.alive_of_running hawait.running]
    exact logEvent_intact hawait _ _ _

/-- The end of an OTR session. -/
theorem endOtr_intact (hsound : libotr.Sound) (h : Intact ns n online w)
    (hconn : w.client.conn.conn = true) (hp : p ∈ ns.map Prod.fst) :
    Intact ns n online (endOtr libotr w p) := by
  obtain ⟨buddy, hbuddy, -⟩ := buddyAt_isSome h.shows hp
  rw [endOtr, hbuddy]
  simp only
  split
  · have htarget : ∀ q ∈ (none : Option Ptr), q ∈ ns.map Prod.fst := by simp
    have hcall := otrCall_intact h htarget (hsound.disconnect w p buddy hconn hbuddy)
    rw [World.alive_of_running hcall.running]
    exact updateBuddy_intact_otr hcall hp fun _ => rfl
  · exact h

/-- **`buddy_offline`** does not end the client. -/
theorem buddyOffline_running (hsound : libotr.Sound) (h : Intact ns n online w)
    (hconn : w.client.conn.conn = true) (who : Str) :
    (buddyOffline libotr w who).client.crash = none := by
  rcases first_named ns (simplifySn who) with habsent | ⟨as, p, b, bs, rfl, hname, hfirst⟩
  · exact (buddyOffline_absent h libotr habsent).running
  · have hend := endOtr_intact hsound h hconn (p := p) (by simp)
    rw [buddyOffline, findBuddy_first h hname hfirst]
    simp only [World.alive_of_running hend.running]
    have hgone := countOff_intact (unlinkBuddy_intact hend)
    split
    · exact hgone.running
    · exact (logEvent_intact hgone _ _ _).running

/-! ## runs -/

/-- An event after which the client still runs. -/
def Runs (act : World Client → World Client) : Prop :=
  ∀ w, Coupled w → Able w → (act w).client.crash = none

omit [Host] in
theorem Acts.running {run : World Client → Except Fault (World Client × ImcommRet)}
    (hacts : Acts (fun act _ => Runs act) run) {w' : World Client} {ret : ImcommRet}
    (hok : run w = .ok (w', ret)) (h : Coupled w) (hable : Able w) : w'.client.crash = none := by
  rcases hacts with ⟨fault, hfault⟩ | ⟨act, out, hact, hrun⟩
  · rw [hfault] at hok
    cases hok
  · rw [hrun] at hok
    cases hok
    exact hact w h hable

variable (others : Callback → World Client → World Client)

/-- `snac_get_signon` calls nothing of libotr that could. -/
theorem snacGetSignon_runs (libotr : Libotr) (data : List UInt8) (len : Nat) :
    Acts (fun act _ => Runs act)
      fun w => snacGetSignon (bsflite libotr others) w data len := by
  unfold snacGetSignon
  refine Acts.read fun snLen _ => Acts.read fun numtlv _ => Acts.read fun sn _ =>
    Acts.read fun tlvlist _ => ?_
  refine Acts.bind (foldlM_keepsLists (signonTlv_acts libotr others (cstr sn)) tlvlist _)
    fun act info hact => Acts.ok fun w h _ => ?_
  obtain ⟨bs, hbs⟩ := h.exists_with
  obtain ⟨bs', hbs', -⟩ :=
    signonAnnounce_becomes libotr others (hact.coupled bs w hbs) (cstr sn) info
  exact hbs'.coupled.running

theorem snacGetSignoff_runs (hsound : libotr.Sound) (data : List UInt8) (len : Nat) :
    Acts (fun act _ => Runs act)
      fun w => snacGetSignoff (bsflite libotr others) w data len := by
  unfold snacGetSignoff
  refine Acts.read fun snLen _ => Acts.read fun sn _ => Acts.ok fun w h hable => ?_
  obtain ⟨ns, online, hintact, -⟩ := h
  have hset : Intact ns online.length (imcommInternalDeleteBuddy w.handle (cstr sn)).buddiesOnline
      { w with handle := imcommInternalDeleteBuddy w.handle (cstr sn) } :=
    ⟨hintact.running, hintact.shows, hintact.count, rfl⟩
  rw [fire_bsflite libotr hset.running]
  exact buddyOffline_running hsound hset hable.conn (cstr sn)

/-- The message itself, when the lists are in order. -/
theorem incomingDeliver_runs (hsound : libotr.Sound) (sn : Str) (autoResp : Bool)
    (tlvlist : List Tlv) :
    Acts (fun act _ => Runs act)
      fun w => incomingDeliver (bsflite libotr others) w sn autoResp tlvlist := by
  unfold incomingDeliver
  split
  · exact Acts.skip fun w h _ => h.running
  · refine Acts.read fun subtlv _ => ?_
    split
    · exact Acts.skip fun w h _ => h.running
    · refine Acts.read fun msg _ => Acts.ok fun w h hable => ?_
      obtain ⟨ns, online, hintact, -⟩ := h
      rw [fire_bsflite libotr hintact.running]
      exact (getmessage_intact hsound hintact hable sn autoResp (cstr msg)).running

theorem snacGetIncomingIm_runs (hsound : libotr.Sound) (data : List UInt8) (len : Nat) :
    Acts (fun act _ => Runs act)
      fun w => snacGetIncomingIm (bsflite libotr others) w data len := by
  unfold snacGetIncomingIm
  refine Acts.read fun snLen _ => Acts.read fun numtlv _ => Acts.read fun sn _ =>
    Acts.read fun tlvlist _ => ?_
  refine Acts.bind (Acts.foldlM orders_id Orders.comp
    (incomingTlv_orders libotr others (cstr sn)) tlvlist false) fun act autoResp hact => ?_
  rcases incomingDeliver_runs others hsound (cstr sn) autoResp tlvlist with
    ⟨fault, hfault⟩ | ⟨deliver, ret, hdeliver, hrun⟩
  · exact Or.inl ⟨fault, fun w => hfault _⟩
  · simp only [hrun]
    refine Acts.ok fun w h hable => ?_
    obtain ⟨bs, hbs⟩ := h.exists_with
    have hfirst := hact.coupled bs w hbs
    have hable' := (hact.lists w).able hable
    split
    · exact hdeliver _ hfirst.coupled hable'
    · obtain ⟨bs', hbs', -⟩ := updateIdletime_becomes libotr others hfirst (cstr sn) 0
      exact hdeliver _ hbs'.coupled
        ((OnlyLists.updateBuddyTimes libotr others _ (cstr sn) 1 0).able hable')

omit [Host] in
/-- `input_delete_buddy` calls nothing of libotr at all. -/
theorem removeFromList_running (h : Intact ns n online w) (who : Str) :
    (removeFromList w who).client.crash = none := by
  rcases first_named ns (simplifySn who) with habsent | ⟨as, p, b, bs, rfl, hname, hfirst⟩
  · exact (removeFromList_absent h habsent).running
  · exact (removeFromList_intact h hname hfirst).running

/-- **No step ends the client**. -/
theorem step_running (hsound : libotr.Sound) (h : Coupled w) (hable : Able w) {w' : World Client}
    (hstep : PresenceStep libotr others w w') : w'.client.crash = none := by
  cases hstep with
  | signon hok => exact (snacGetSignon_runs others libotr _ _).running hok h hable
  | signoff hok => exact (snacGetSignoff_runs others hsound _ _).running hok h hable
  | incomingIm hok => exact (snacGetIncomingIm_runs others hsound _ _).running hok h hable
  | deleteBuddy arg =>
      rw [inputDeleteBuddy]
      split
      · obtain ⟨ns, online, hintact, -⟩ := h
        have hset : Intact ns online.length (imcommImRemoveBuddy w.handle arg).buddiesOnline
            { w with handle := imcommImRemoveBuddy w.handle arg } :=
          ⟨hintact.running, hintact.shows, hintact.count, rfl⟩
        exact removeFromList_running hset arg
      · exact h.running
  | between hcrash _ _ _ _ => exact hcrash.trans h.running

/-- The worlds that a run reaches in which the client, before each step, is
connected and has an away message while it is away. -/
inductive AbleRun (libotr : Libotr) (w0 : World Client) : World Client → Prop
  | start : AbleRun libotr w0 w0
  | step {w w' : World Client} (h : AbleRun libotr w0 w) (hable : Able w)
      (hstep : PresenceStep libotr others w w') : AbleRun libotr w0 w'

/-- **No such run ends the client**, if libotr keeps its contract: it is a run
of the client that goes on, with lists that mirror each other to the end. -/
theorem presence_running (hsound : libotr.Sound) {w0 : World Client} (h0 : NoBuddies w0)
    (hrun : AbleRun others libotr w0 w) :
    PresenceRun libotr others w0 w ∧ w.client.crash = none ∧ ∃ xs, Mirrored w xs := by
  have hcoupled {w : World Client} (h : PresenceRun libotr others w0 w)
      (hrunning : w.client.crash = none) : Coupled w := by
    rcases run_settles libotr others h0 h with hnull | hcoupled
    · rw [hrunning] at hnull
      cases hnull
    · exact hcoupled
  have hgoes : PresenceRun libotr others w0 w ∧ w.client.crash = none := by
    induction hrun with
    | start => exact ⟨.start, h0.running⟩
    | step _ hable hstep ih =>
        obtain ⟨hbefore, hrunning⟩ := ih
        exact ⟨.step hbefore hrunning hstep,
          step_running others hsound (hcoupled hbefore hrunning) hable hstep⟩
  exact ⟨hgoes.1, hgoes.2, mirrored_of_coupled (hcoupled hgoes.1 hgoes.2)⟩

end

end Bsflite
