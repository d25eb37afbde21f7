import Bsflite.Client

/-!
# Bsflite.Aim

The callbacks of `aim.c`: incoming messages, and buddies that come, go and
change.  What is only printed is left out; what is sent and logged is in the
trace.

`bsflite` is the table that `create_new_connection` registers.  The
callbacks that are not modelled here are a parameter of it.
-/

namespace Bsflite

open LinkedList

section
variable [Host] (libotr : Libotr)

/-! ## messages -/

/-- The first part of `getmessage`: a message from a buddy goes through
libotr.  The result is the text to go on with, if any. -/
def receiveOtr (w : World Client) (who message : Str) : World Client × Option Str :=
  if w.client.conn.otr then
    match w.client.findBuddy who with
    | none => (w.crashes .wild, none)
    | some p =>
      match p, p.bind w.client.buddyAt with
      | some p, some buddy =>
        if buddy.otr ≠ -1 then
          let reply := libotr.receiving w.client buddy.sn message
          let w := w.otrCall (some p) reply.actions
          if reply.err then (w, none)
          else
            match reply.newmsg with
            | none => (w, some message)
            | some newmsg =>
              -- `buddy->otr_context->msgstate` is read
              match (w.client.buddyAt p).bind Buddy.otrContext with
              | some _ => (w, some newmsg)
              | none => (w.crashes .null, none)
        else (w, some message)
      | _, _ => (w, some message)
  else (w, some message)

/-- The text that `getmessage` shows; an empty one is ignored. -/
def filterText (conn : BsfConn) (msgin : Str) : Option Str :=
  let tempmsg := stripHtml msgin
  if tempmsg = [] then none
  else
    let msg := if conn.netspeakFilter then undoNetspeak tempmsg else tempmsg
    if msg = [] then none else some msg

/-- Is the sender among those who wait for an answer? -/
def Client.foundWaiting (c : Client) (who : Str) : Bool :=
  c.waiting.any fun sn => imcommCompareNicks sn who

/-- The condition for an automatic response. -/
def BsfConn.autoResponds (conn : BsfConn) (automessage : Bool) : Bool :=
  conn.isaway && !automessage && (conn.respondIdleOnly && conn.isidle || !conn.respondIdleOnly)

/-- A sender who is not waiting yet is put on the list, and gets the away
message. -/
def awaitAnswer (w : World Client) (who : Str) (automessage : Bool) : World Client :=
  if w.client.foundWaiting who then w
  else
    let w := { w with client := { w.client with waiting := w.client.waiting ++ [who] } }
    if w.client.conn.autoResponds automessage then
      match w.client.conn.awaymsg with
      | some awaymsg => w.imSend who awaymsg true
      | none => w.crashes .null
    else w

/-- The last correspondent, while nothing is typed. -/
def setLastsn (w : World Client) (sn : Str) : World Client :=
  if w.client.conn.istyping then w
  else w.setConn { w.client.conn with lastsn := some sn }

/-- `getmessage` -/
def getmessage (w : World Client) (who : Str) (automessage : Bool) (message : Str) : World Client :=
  let (w, msgin) := receiveOtr libotr w who message
  w.alive fun w =>
    match msgin.bind (filterText w.client.conn) with
    | none => w
    | some msg =>
      (awaitAnswer (setLastsn w (simplifySn who)) who automessage).alive fun w =>
        w.logEvent (if automessage then .imAutoresponse else .im) (simplifySn who) (some msg)

/-! ## presence -/

/-- `buddy_idle` -/
def buddyIdle (w : World Client) (who : Str) (idletime : Nat) : World Client :=
  w.withBuddy who fun trav => { trav with idletime := idletime, idle := decide (10 ≤ idletime) }

/-- `buddy_away` -/
def buddyAway (w : World Client) (who : Str) : World Client :=
  w.withBuddy who fun trav => { trav with away := true }

/-- `buddy_unaway` -/
def buddyUnaway (w : World Client) (who : Str) : World Client :=
  w.withBuddy who fun trav => { trav with away := false }

/-- The pointer work of `buddy_online`: a fresh node in front of the first
one with a greater name. -/
def Client.insertBuddy (c : Client) (sname : Str) : Option (Client × Ptr) := do
  let trav ← c.heap.find (fun trav => sname < trav.sn) (c.heap.brk + 1) c.buddylist
  let (newbuddy, heap) := c.heap.alloc (c.fresh c.heap.brk)
  let (heap, buddylist) ← heap.insertAt c.buddylist trav newbuddy
  return ({ c with heap := heap, buddylist := buddylist }, newbuddy)

/-- `buddy_online`: `idletime` is not written. -/
def buddyOnline (w : World Client) (who : Str) : World Client :=
  let sname := simplifySn who
  match w.client.insertBuddy sname with
  | none => w.crashes .wild
  | some (client, newbuddy) =>
    let w := { w with client := client }.updateBuddy newbuddy fun b =>
      { b with sn := sname, formattedsn := who, away := false, idle := false, otr := 0 }
    let context := libotr.contextFind w.client sname
    let w := w.updateBuddy newbuddy fun b => { b with otrContext := context }
    let w := w.setConn { w.client.conn with buddiesonline := w.client.conn.buddiesonline + 1 }
    if w.client.conn.squelchconnect then w else w.logEvent .signon sname none

/-- A node leaves the list. -/
def World.unlinkBuddy (w : World Client) (trav : Ptr) : World Client :=
  match w.client.heap.unlink w.client.buddylist trav with
  | some (heap, buddylist) =>
    { w with client := { w.client with heap := heap, buddylist := buddylist } }
  | none => w.crashes .wild

/-- One buddy less is online. -/
def World.countOff (w : World Client) : World Client :=
  w.setConn { w.client.conn with buddiesonline := w.client.conn.buddiesonline - 1 }

omit [Host] in
/-- `remove_from_list` -/
def removeFromList (w : World Client) (who : Str) : World Client :=
  match w.client.findBuddy who with
  | none => w.crashes .wild
  | some none => w
  | some (some trav) => w.countOff.unlinkBuddy trav

/-- `buddy_offline` ends an OTR session first. -/
def endOtr (w : World Client) (trav : Ptr) : World Client :=
  match w.client.buddyAt trav with
  | some buddy =>
    if buddy.otr = 1 then
      (w.otrCall none (libotr.disconnect w.client buddy.sn)).alive fun w =>
        w.updateBuddy trav fun b => { b with otr := 0, otrContext := none }
    else w
  | none => w.crashes .wild

/-- `buddy_offline` -/
def buddyOffline (w : World Client) (who : Str) : World Client :=
  match w.client.findBuddy who with
  | none => w.crashes .wild
  | some none => w
  | some (some trav) =>
    (endOtr libotr w trav).alive fun w =>
      let w := (w.unlinkBuddy trav).countOff
      if w.client.conn.squelchconnect then w else w.logEvent .signoff (simplifySn who) none

/-! ## the table -/

/-- What the client does when it is called. -/
def called (others : Callback → World Client → World Client) (c : Callback) (w : World Client) :
    World Client :=
  match c with
  | .imSignon sn => buddyOnline libotr w sn
  | .imSignoff sn => buddyOffline libotr w sn
  | .imBuddyaway sn => buddyAway w sn
  | .imBuddyunaway sn => buddyUnaway w sn
  | .imIdleinfo sn idletime => buddyIdle w sn idletime
  | .imIncoming sn autoResp msg => getmessage libotr w sn autoResp msg
  | c => others c w

/-- The callbacks that `create_new_connection` registers. -/
def bsflite (others : Callback → World Client → World Client) : Callbacks Client where
  registered := fun _ => true
  call := fun c w => w.alive (called libotr others c)

/-- A client that runs is called. -/
theorem fire_bsflite {others : Callback → World Client → World Client} {w : World Client}
    (h : w.client.crash = none) (c : Callback) :
    w.fire (bsflite libotr others) c = called libotr others c w := by
  simp [World.fire, bsflite, World.alive_of_running h]

end

end Bsflite
