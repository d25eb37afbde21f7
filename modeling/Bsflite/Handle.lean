import Bsflite.Packet

/-!
# Bsflite.Handle

The library's connection handle (`IMCOMM` of `imcomm/imcomm.h`), the
callbacks a client registers on it, and the list of online buddies that
`imcomm/imcomm.c` keeps for it.

The library calls the client only through the callback table.  A
`Callbacks σ` is such a table over a client state `σ`: which entries are
set, and what a call does to handle and client.  Every library function
below takes the table and threads a `World σ`, so the same definitions
serve the client of this repository and a client that merely records its
calls (`recorder`).
-/

namespace Bsflite

/-! ## strings -/

/-- The bytes of a C string, without the terminator. -/
abbrev Str := List UInt8

/-- `tolower` in the C locale: only the ASCII capitals change. -/
def tolower (c : UInt8) : UInt8 := if 65 ≤ c ∧ c ≤ 90 then c + 32 else c

/-- `imcomm_simplify_sn`: without blanks, in lower case. -/
def imcommSimplifySn (sn : Str) : Str := (sn.filter (· ≠ 32)).map tolower

/-- `imcomm_compare_nicks` -/
def imcommCompareNicks (s1 s2 : Str) : Bool := imcommSimplifySn s1 = imcommSimplifySn s2

/-- Lower case has no capitals left. -/
theorem tolower_tolower (c : UInt8) : tolower (tolower c) = tolower c := by
  unfold tolower
  grind

/-- A blank is the lower case of nothing else. -/
theorem tolower_ne_blank {c : UInt8} (h : c ≠ 32) : tolower c ≠ 32 := by
  unfold tolower
  grind

/-- A simplified name is its own simplification. -/
@[simp] theorem imcommSimplifySn_idem (sn : Str) :
    imcommSimplifySn (imcommSimplifySn sn) = imcommSimplifySn sn := by
  unfold imcommSimplifySn
  have hkeep : ∀ c ∈ (sn.filter (· ≠ 32)).map tolower, decide (c ≠ 32) = true := by
    intro c hc
    obtain ⟨b, hb, rfl⟩ := List.mem_map.mp hc
    exact decide_eq_true (tolower_ne_blank (by simpa using (List.mem_filter.mp hb).2))
  rw [List.filter_eq_self.mpr hkeep, List.map_map]
  exact List.map_congr_left fun c _ => tolower_tolower c

/-! ## the handle -/

/-- `struct IMComm_BuddyList` as used for `buddies_online`. -/
structure OnlineBuddy where
  sn : Str
  idletime : Nat
  onlinetime : Nat
  isaway : Bool
deriving DecidableEq, Repr

/-- `struct IMComm_BuddyList` as used for `buddylist`, the server-side list. -/
structure RosterBuddy where
  sn : Str
  formattedsn : Str
  ssiId : UInt16
  groupId : UInt16
deriving DecidableEq, Repr

/-- The transport under a handle: how many bytes the `n`-th write of a
buffer of some size accepts (negative when it fails), and what it took. -/
structure Link where
  result : Nat → Nat → Int
  writes : Nat
  wire : List UInt8

/-- `SSL_write` or `send` of a whole buffer. -/
def Link.write (l : Link) (buf : List UInt8) : Link × Int :=
  let r := l.result l.writes buf.length
  ({ l with writes := l.writes + 1, wire := l.wire ++ buf.take r.toNat }, r)

/-- `IMCOMM`, the fields that the modelled functions use. -/
structure Imcomm where
  sn : Option Str
  pw : Option Str
  oscarport : UInt16
  header : List UInt8
  headerPos : UInt8
  data : Option (List UInt8)
  dataPos : UInt16
  dataLen : UInt16
  connected : Bool
  srvPause : Bool
  toDelete : Bool
  useSsl : Bool
  socket : Int
  link : Link
  seqnum : UInt16
  snacreq : UInt32
  maxProfileLen : UInt16
  maxCapabilities : UInt16
  maxBuddylistSize : UInt16
  maxNumWatchers : UInt16
  maxOnlineNotifications : UInt16
  maxMessageSize : UInt16
  maxSenderWarning : UInt16
  maxReceiverWarning : UInt16
  maxMessageInterval : UInt16
  maxVisibleListSize : UInt16
  maxInvisibleListSize : UInt16
  families : List UInt16
  numFamilies : Nat
  buddylist : List RosterBuddy
  buddiesOnline : List OnlineBuddy
  isidle : Bool
  isaway : Bool
  isinvisible : Bool
  profileStr : Option Str
  awayMsg : Option Str
  lastKeepaliveTime : Int
  ischild : Bool
  /-- `iconlen` bytes -/
  icondata : List UInt8
  /-- `icondata` of the parent -/
  parentIcon : List UInt8

/-- `imcomm_create_handle`: what it sets; the rest of the block is what
`malloc` left in it. -/
def imcommCreateHandle (block : Imcomm) : Imcomm :=
  { block with
    oscarport := 5190
    toDelete := false
    ischild := false
    seqnum := 0x1000
    snacreq := 0
    families := []
    numFamilies := 0
    buddylist := []
    buddiesOnline := []
    isidle := false
    isinvisible := false
    profileStr := none
    awayMsg := none
    icondata := []
    socket := 0
    connected := false
    srvPause := false
    data := none
    headerPos := 0
    pw := none
    sn := none
    lastKeepaliveTime := 0
    useSsl := true }

/-- A block of zeroes, over a transport that takes every buffer whole. -/
def zeroBlock : Imcomm where
  sn := none
  pw := none
  oscarport := 0
  header := List.replicate 6 0
  headerPos := 0
  data := none
  dataPos := 0
  dataLen := 0
  connected := false
  srvPause := false
  toDelete := false
  useSsl := false
  socket := 0
  link := ⟨fun _ k => k, 0, []⟩
  seqnum := 0
  snacreq := 0
  maxProfileLen := 0
  maxCapabilities := 0
  maxBuddylistSize := 0
  maxNumWatchers := 0
  maxOnlineNotifications := 0
  maxMessageSize := 0
  maxSenderWarning := 0
  maxReceiverWarning := 0
  maxMessageInterval := 0
  maxVisibleListSize := 0
  maxInvisibleListSize := 0
  families := []
  numFamilies := 0
  buddylist := []
  buddiesOnline := []
  isidle := false
  isaway := false
  isinvisible := false
  profileStr := none
  awayMsg := none
  lastKeepaliveTime := 0
  ischild := false
  icondata := []
  parentIcon := []

/-! ## callbacks -/

/-- The indices of the callback table. -/
inductive CallbackEvent where
  | imSignon
  | imSignoff
  | imBuddyaway
  | imBuddyunaway
  | imIdleinfo
  | imIncoming
  | imProfile
  | imAwaymsg
  | error
  | formattedSn
  | handleDeleted
deriving DecidableEq, Repr

/-- The event codes given to the `IMCOMM_ERROR` callback. -/
inductive ErrorEvent where
  | errorDisconnected
  | statusConnected
  | errorInvalidLogin
  | errorOtherSignon
  | statusAuthdone
  | rateLimitWarn
  | errorUserOffline
deriving DecidableEq, Repr

/-- One call through the table, with its arguments after the handle. -/
inductive Callback where
  | imSignon (sn : Str)
  | imSignoff (sn : Str)
  | imBuddyaway (sn : Str)
  | imBuddyunaway (sn : Str)
  | imIdleinfo (sn : Str) (idletime : Nat)
  | imIncoming (sn : Str) (autoResp : Bool) (msg : Str)
  | imProfile (sn : Str) (profile : Str)
  | imAwaymsg (sn : Str) (awaymsg : Str)
  | error (event : ErrorEvent) (data : Option UInt8)
  | formattedSn (sn : Str)
  | handleDeleted
deriving DecidableEq, Repr

/-- The table entry a call goes through. -/
def Callback.event : Callback → CallbackEvent
  | .imSignon _ => .imSignon
  | .imSignoff _ => .imSignoff
  | .imBuddyaway _ => .imBuddyaway
  | .imBuddyunaway _ => .imBuddyunaway
  | .imIdleinfo _ _ => .imIdleinfo
  | .imIncoming _ _ _ => .imIncoming
  | .imProfile _ _ => .imProfile
  | .imAwaymsg _ _ => .imAwaymsg
  | .error _ _ => .error
  | .formattedSn _ => .formattedSn
  | .handleDeleted => .handleDeleted

/-- A handle, the client behind its callbacks, and the child handles it
has opened. -/
structure World (σ : Type) where
  handle : Imcomm
  client : σ
  children : List Imcomm

/-- A callback table over a client state. -/
structure Callbacks (σ : Type) where
  registered : CallbackEvent → Bool
  call : Callback → World σ → World σ

/-- `if (handle->callbacks[e]) handle->callbacks[e](…)` -/
def World.fire {σ : Type} (w : World σ) (cbs : Callbacks σ) (c : Callback) : World σ :=
  if cbs.registered c.event then cbs.call c w else w

/-- The client that writes down every call it gets. -/
def recorder : Callbacks (List Callback) where
  registered := fun _ => true
  call := fun c w => { w with client := w.client ++ [c] }

@[simp] theorem fire_recorder (w : World (List Callback)) (c : Callback) :
    w.fire recorder c = { w with client := w.client ++ [c] } := rfl

/-! ## buddies online -/

section
variable {σ : Type} (cbs : Callbacks σ)

/-- Overwrite the `i`-th node of `buddies_online`. -/
def World.setOnline (w : World σ) (i : Nat) (b : OnlineBuddy) : World σ :=
  { w with handle := { w.handle with buddiesOnline := w.handle.buddiesOnline.set i b } }

/-- `imcomm_internal_add_buddy`: 0 when the name is already on the list. -/
def imcommInternalAddBuddy (w : World σ) (sn : Str) (idletime onlinetime : Nat) (isaway : Bool) :
    World σ × Bool :=
  let sname := imcommSimplifySn sn
  if w.handle.buddiesOnline.any (fun trav => sname = trav.sn) then (w, false)
  else
    ({ w with handle := { w.handle with
        buddiesOnline := w.handle.buddiesOnline ++ [⟨sname, idletime, onlinetime, isaway⟩] } },
      true)

/-- The body of the loop of `imcomm_update_buddy_times`, at the `i`-th node. -/
def imcommUpdateBuddyTimesAt (sn : Str) (type value : Nat) (w : World σ) (i : Nat) : World σ :=
  match w.handle.buddiesOnline[i]? with
  | some trav =>
    if imcommSimplifySn sn = trav.sn then
      match type with
      | 1 => (w.setOnline i { trav with idletime := value }).fire cbs (.imIdleinfo sn value)
      | 2 => w.setOnline i { trav with onlinetime := value }
      | _ => w
    else w
  | none => w

/-- `imcomm_update_buddy_times`: the loop does not stop at a match. -/
def imcommUpdateBuddyTimes (w : World σ) (sn : Str) (type value : Nat) : World σ :=
  (List.range w.handle.buddiesOnline.length).foldl (imcommUpdateBuddyTimesAt cbs sn type value) w

/-- `imcomm_update_buddy_away`: the loop stops at the first node it changes. -/
def imcommUpdateBuddyAway (w : World σ) (sn : Str) (isaway : Bool) : World σ :=
  let sname := imcommSimplifySn sn
  match w.handle.buddiesOnline.findIdx? (fun trav => sname = trav.sn ∧ trav.isaway ≠ isaway) with
  | some i =>
    match w.handle.buddiesOnline[i]? with
    | some trav =>
      (w.setOnline i { trav with isaway := isaway }).fire cbs
        (if isaway then .imBuddyaway sn else .imBuddyunaway sn)
    | none => w
  | none => w

/-- `imcomm_internal_delete_buddy`: the first node with the name goes. -/
def imcommInternalDeleteBuddy (h : Imcomm) (sn : Str) : Imcomm :=
  { h with buddiesOnline :=
      h.buddiesOnline.eraseP (fun trav => trav.sn = imcommSimplifySn sn) }

end

end Bsflite
