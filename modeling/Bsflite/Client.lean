import Bsflite.LinkedList
import Bsflite.Text

/-!
# Bsflite.Client

The state of the client behind the callbacks: `conn`, the list of buddies
online (`buddylist`, a doubly linked list in a heap), the waiting list, and
the encryption contexts of libotr with the callbacks of `otr.c`.

libotr itself is a `Libotr`: what it answers may depend on the whole state
of the client, and on the way it may change contexts, store the context it
used, and call back.  A client that followed a bad pointer is `crash`ed:
nothing happens to it any more.

The trace, newest first, has what is passed to `imcomm_im_send_message` and
where it came from, and what is written to the logs.
-/

namespace Bsflite

open LinkedList

/-! ## state -/

/-- A `ConnContext` of libotr. -/
abbrev Ctx := Nat

/-- `OtrlMessageState` -/
inductive MsgState where
  | plaintext
  | encrypted
  | finished
deriving DecidableEq, Repr

/-- A `ConnContext`: the account at the other end, the state, and whether
the active fingerprint is trusted. -/
structure ConnContext where
  username : Str
  msgstate : MsgState
  trusted : Bool
deriving DecidableEq, Repr

/-- `struct BuddyList`, without the links. -/
structure Buddy where
  sn : Str
  formattedsn : Str
  idle : Bool
  away : Bool
  otr : Int
  otrContext : Option Ctx
  idletime : Int
deriving DecidableEq, Repr

/-- `struct Conn`; `conn` tells whether `conn->conn` is set. -/
structure BsfConn where
  conn : Bool
  username : Str
  lastsn : Option Str
  awaymsg : Option Str
  istyping : Bool
  isaway : Bool
  isidle : Bool
  buddiesonline : Int
  squelchconnect : Bool
  respondIdleOnly : Bool
  netspeakFilter : Bool
  otr : Bool
  awaymsgs : List Str
deriving DecidableEq, Repr

/-- The event types of `log_event`. -/
inductive LogEvent where
  | im
  | signon
  | signoff
  | imsend
  | imAutoresponse
deriving DecidableEq, Repr

/-- What the trace has. -/
inductive Traced where
  /-- `otrl_message_sending` returned this instead of the message -/
  | newmsg (text : Str)
  /-- libotr passed this to `otr_inject_msg_cb` -/
  | inject (message : Str)
  /-- a call of `imcomm_im_send_message`, and whether its addressee was in
  an encrypted conversation -/
  | imSend (whom text : Str) (automsg : Bool) (secret : Bool)
  /-- a line was written to the log -/
  | logged (event : LogEvent) (sn : Str) (msg : Option Str)
deriving DecidableEq, Repr

/-- How a client ends. -/
inductive Crash where
  /-- a link of the buddy list that leads to no node, or a store outside a
  block -/
  | wild
  /-- a null pointer -/
  | null
deriving DecidableEq, Repr

/-- The state of the client. -/
structure Client where
  conn : BsfConn
  heap : Heap Buddy
  buddylist : Option Ptr
  waiting : List Str
  contexts : Ctx → ConnContext
  otrCalls : Nat
  logging : Bool
  /-- what `malloc` leaves in a fresh node -/
  fresh : Ptr → Cell Buddy
  trace : List Traced
  crash : Option Crash

/-- A connected client with every option off and no buddies. -/
def startClient : Client where
  conn :=
    { conn := true, username := ascii "alice", lastsn := none, awaymsg := none, istyping := false,
      isaway := false, isidle := false, buddiesonline := 0, squelchconnect := false,
      respondIdleOnly := false, netspeakFilter := false, otr := true, awaymsgs := [] }
  heap := Heap.empty Buddy
  buddylist := none
  waiting := []
  contexts := fun _ => ⟨[], .plaintext, false⟩
  otrCalls := 0
  logging := false
  fresh := fun _ => ⟨⟨[], [], false, false, 0, none, 0⟩, none, none⟩
  trace := []
  crash := none

/-! ## libotr -/

/-- `OtrlSMPEvent` -/
inductive SmpEvent where
  | askForSecret
  | askForAnswer
  | inProgress
  | success
  | abort
  | failure
  | cheated
  | error
deriving DecidableEq, Repr

/-- What libotr may do while it runs. -/
inductive OtrAction where
  /-- change a context -/
  | context (k : Ctx) (c : ConnContext)
  /-- store the context it used through its argument `contextp` -/
  | store (k : Option Ctx)
  | inject (recipient message : Str)
  | goneSecure (k : Ctx)
  | goneInsecure (k : Ctx)
  | smpEvent (event : SmpEvent) (k : Ctx)
deriving DecidableEq, Repr

/-- What libotr does with a message, whether it returns nonzero, and the
message it returns instead. -/
structure OtrReply where
  actions : List OtrAction
  err : Bool
  newmsg : Option Str

/-- libotr, as a function of everything the client knows. -/
structure Libotr where
  /-- `otrl_message_receiving` -/
  receiving : Client → Str → Str → OtrReply
  /-- `otrl_message_sending` -/
  sending : Client → Str → Str → OtrReply
  /-- `otrl_message_disconnect_all_instances` -/
  disconnect : Client → Str → List OtrAction
  /-- `otrl_context_find` -/
  contextFind : Client → Str → Option Ctx

/-- A libotr that passes every message on. -/
def quietLibotr : Libotr where
  receiving := fun _ _ _ => ⟨[], false, none⟩
  sending := fun _ _ _ => ⟨[], false, none⟩
  disconnect := fun _ _ => []
  contextFind := fun _ _ => none

/-! ## buddies -/

/-- `find_buddy`; `none` when a link leads nowhere. -/
def Client.findBuddy (c : Client) (who : Str) : Option (Option Ptr) :=
  let sn := simplifySn who
  c.heap.find (fun trav => trav.sn = sn) (c.heap.brk + 1) c.buddylist

/-- The buddy in a node. -/
def Client.buddyAt (c : Client) (p : Ptr) : Option Buddy := (c.heap.cell p).map Cell.val

/-- Does a buddy have a context with `msgstate` ENCRYPTED? -/
def Client.encrypted (c : Client) (b : Buddy) : Bool :=
  b.otrContext.any fun k => (c.contexts k).msgstate = .encrypted

/-- Is the name that of a buddy whose conversation is encrypted, and who is
not exempt from OTR? -/
def Client.secret (c : Client) (sn : Str) : Bool :=
  match (c.findBuddy sn).join.bind c.buddyAt with
  | some b => b.otr ≠ -1 ∧ c.encrypted b
  | none => false

namespace World

variable (w : World Client)

/-- The client crashes, unless it has. -/
def crashes (k : Crash) : World Client :=
  if w.client.crash.isSome then w else { w with client := { w.client with crash := some k } }

@[simp] theorem crashes_trace (k : Crash) : (w.crashes k).client.trace = w.client.trace := by
  unfold crashes
  split <;> rfl

@[simp] theorem crashes_conn (k : Crash) : (w.crashes k).client.conn = w.client.conn := by
  unfold crashes
  split <;> rfl

@[simp] theorem crashes_isSome (k : Crash) : (w.crashes k).client.crash.isSome = true := by
  unfold crashes
  split
  · assumption
  · rfl

/-- Go on unless the client crashed. -/
def alive (f : World Client → World Client) : World Client :=
  if w.client.crash.isSome then w else f w

theorem alive_of_running {w : World Client} (h : w.client.crash = none)
    (f : World Client → World Client) : w.alive f = f w := by
  simp [alive, h]

/-- Add to the trace. -/
def traced (t : Traced) : World Client :=
  { w with client := { w.client with trace := t :: w.client.trace } }

/-- Change `conn`. -/
def setConn (conn : BsfConn) : World Client := { w with client := { w.client with conn := conn } }

/-- Store into a node of the buddy list. -/
def updateBuddy (p : Ptr) (f : Buddy → Buddy) : World Client :=
  match w.client.heap.modify p f with
  | some heap => { w with client := { w.client with heap := heap } }
  | none => w.crashes .wild

/-- Store into the node of a buddy, if there is one of that name. -/
def withBuddy (who : Str) (f : Buddy → Buddy) : World Client :=
  match w.client.findBuddy who with
  | none => w.crashes .wild
  | some none => w
  | some (some p) => w.updateBuddy p f

/-- `log_event`: whether and what it writes.  Nothing is written about a
buddy in an encrypted conversation. -/
def logEvent (event : LogEvent) (sn : Str) (msg : Option Str) : World Client :=
  if w.client.logging then
    match w.client.findBuddy sn with
    | none => w.crashes .wild
    | some p =>
      if (p.bind w.client.buddyAt).any w.client.encrypted then w
      else w.traced (.logged event sn msg)
  else w

section
variable [Host]

/-- `imcomm_im_send_message`, with an entry in the trace. -/
def imSend (whom text : Str) (automsg : Bool) : World Client :=
  { w with handle := imcommImSendMessage w.handle whom text automsg }.traced
    (.imSend whom text automsg (w.client.secret whom))

/-! ## the callbacks of `otr.c` -/

/-- What `otr_inject_msg_cb` puts around a message. -/
def injectFormat (message : Str) : Str := ascii "<HTML><BODY>" ++ message ++ ascii "</BODY></HTML>"

/-- `otr_inject_msg_cb` -/
def otrInjectMsgCb (recipient message : Str) : World Client :=
  if w.client.conn.conn then
    (w.traced (.inject message)).imSend recipient (injectFormat message) false
  else (w.traced (.inject message)).crashes .null

end

/-- `otr_secure_cb` -/
def otrSecureCb (k : Ctx) : World Client :=
  let context := w.client.contexts k
  if context.trusted then
    w.withBuddy context.username fun b => { b with otr := 1, otrContext := some k }
  else w

/-- `otr_insecure_cb` -/
def otrInsecureCb (k : Ctx) : World Client :=
  w.withBuddy (w.client.contexts k).username fun b => { b with otr := 0, otrContext := none }

/-- Change a context. -/
def setContext (k : Ctx) (context : ConnContext) : World Client :=
  { w with client := { w.client with contexts := Function.update w.client.contexts k context } }

/-- `otr_smp_event_cb`: on success only the call of `otrl_context_set_trust`
depends on whether there is a buddy. -/
def otrSmpEventCb (event : SmpEvent) (k : Ctx) : World Client :=
  let context := w.client.contexts k
  match event with
  | .askForSecret | .askForAnswer =>
    w.withBuddy context.username fun b => { b with otrContext := some k }
  | .success =>
    match w.client.findBuddy context.username with
    | none => w.crashes .wild
    | some none => w.crashes .null
    | some (some p) =>
      (w.setContext k { context with trusted := true }).updateBuddy p
        fun b => { b with otr := 1, otrContext := some k }
  | .inProgress | .abort | .failure | .cheated | .error => w

variable [Host]

/-- One thing that libotr does; `target` is the node whose `otr_context` it
was given the address of. -/
def otrAct (target : Option Ptr) (a : OtrAction) : World Client :=
  w.alive fun w =>
    match a with
    | .context k context => w.setContext k context
    | .store k =>
      match target with
      | some p => w.updateBuddy p fun b => { b with otrContext := k }
      | none => w
    | .inject recipient message => w.otrInjectMsgCb recipient message
    | .goneSecure k => w.otrSecureCb k
    | .goneInsecure k => w.otrInsecureCb k
    | .smpEvent event k => w.otrSmpEventCb event k

/-- A call of libotr. -/
def otrCall (target : Option Ptr) (actions : List OtrAction) : World Client :=
  actions.foldl (fun w a => w.otrAct target a)
    { w with client := { w.client with otrCalls := w.client.otrCalls + 1 } }

end World

end Bsflite
