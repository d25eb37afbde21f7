import Bsflite.Aim
import Bsflite.Roster
import Bsflite.Signon

/-!
# Bsflite.Input

The commands of `input.c` that send messages or change the away state, the
removal of a buddy, and `otr_imcomm_im_send_message` of `otr.c`, through
which typed and pasted messages go.
-/

namespace Bsflite

open LinkedList

section
variable [Host] (libotr : Libotr)

/-! ## sending -/

/-- `otr_imcomm_im_send_message`: -1 when nothing was sent, 0 when the
message went out encrypted. -/
def otrImcommImSendMessage (w : World Client) (sn fullmsg : Str) : World Client × Int :=
  let plain (w : World Client) : World Client × Int := (w.imSend sn fullmsg false, 1)
  if w.client.conn.otr then
    match w.client.findBuddy sn with
    | none => (w.crashes .wild, 1)
    | some p =>
      match p, p.bind w.client.buddyAt with
      | some p, some buddy =>
        if buddy.otr ≠ -1 then
          let reply := libotr.sending w.client buddy.sn fullmsg
          let w := w.otrCall (some p) reply.actions
          if w.client.crash.isSome then (w, 1)
          else if reply.err then (w, -1)
          else
            match reply.newmsg with
            | some newmsg =>
              let w := (w.traced (.newmsg newmsg)).imSend sn newmsg false
              -- `buddy->otr_context->msgstate` is read
              match (w.client.buddyAt p).bind Buddy.otrContext with
              | some k => (w, if (w.client.contexts k).msgstate = .encrypted then 0 else 1)
              | none => (w.crashes .null, 1)
            | none => plain w
        else plain w
      | _, _ => plain w
  else plain w

/-- The recipient and the text of a command line. -/
def splitCommand (arg : Str) : Option (Str × Str) :=
  match arg.findIdx? (· = 32) with
  | some n => if arg.drop (n + 1) = [] then none else some (arg.take n, arg.drop (n + 1))
  | none => none

/-- `input_send_message` -/
def inputSendMessage (w : World Client) (arg : Str) : World Client :=
  if w.client.conn.conn then
    match splitCommand arg with
    | none => w
    | some (sn, text) =>
      let msg := if w.client.conn.netspeakFilter then undoNetspeak text else text
      (otrImcommImSendMessage libotr w sn msg).1.alive fun w =>
        (w.setConn { w.client.conn with lastsn := some sn }).logEvent .imsend sn (some msg)
  else w

/-! ## pasting -/

/-- The end of `bsf_getline`. -/
inductive GetLine where
  | line (str : Str)
  /-- Ctrl-X -/
  | cancel
  /-- a store outside the buffer -/
  | overflow
  /-- there are no more keys yet -/
  | blocked
deriving DecidableEq, Repr

/-- `bsf_getline` for a buffer of `block` bytes, with `str` typed so far:
how it ends, and the keys left.  A backspace at the start of the line makes
the unsigned count wrap, and the terminator is then stored outside. -/
def bsfGetline (block limit : Nat) (str : Str) : List UInt8 → GetLine × List UInt8
  | [] => (if str.length < limit then .blocked
      else if str.length < block then .line str else .overflow, [])
  | ch :: keys =>
    if str.length < limit then
      if ch = 10 ∨ ch = 13 then (if str.length < block then .line str else .overflow, keys)
      else if ch = 24 then (.cancel, keys)
      else if ch = 8 ∨ ch = 127 ∨ ch = 4 then
        if str = [] then (.overflow, keys) else bsfGetline block limit str.dropLast keys
      else if str.length < block then bsfGetline block limit (str ++ [ch]) keys
      else (.overflow, keys)
    else (if str.length < block then .line str else .overflow, ch :: keys)

/-- The loop of `input_paste`: what is in `sendbuf`, its counted length, and
the keys to come. -/
def inputPasteLoop (sn : Str) (maxmsgsize : Nat) :
    Nat → World Client → Str → Nat → List UInt8 → World Client
  | 0, w, _, _, _ => w
  | fuel + 1, w, sendbuf, sendbuflen, keys =>
    match bsfGetline (maxmsgsize + 1) (sizeT (maxmsgsize - 6)) [] keys with
    | (.cancel, _) => w
    | (.blocked, _) => w
    | (.overflow, _) => w.crashes .wild
    | (.line pbuf, keys) =>
      if pbuf = [46] then
        if 0 < sendbuflen then (otrImcommImSendMessage libotr w sn sendbuf).1 else w
      else if maxmsgsize < sendbuflen + pbuf.length + 4 then
        let w := (otrImcommImSendMessage libotr w sn sendbuf).1
        if w.client.crash.isSome then w
        else inputPasteLoop sn maxmsgsize fuel w (cstr pbuf) pbuf.length keys
      else if sendbuflen = 0 then
        inputPasteLoop sn maxmsgsize fuel w (sendbuf ++ cstr pbuf) pbuf.length keys
      else
        inputPasteLoop sn maxmsgsize fuel w (sendbuf ++ ascii "<br>" ++ cstr pbuf)
          (sendbuflen + pbuf.length + 4) keys

/-- `input_paste`, with the keys that are typed into it. -/
def inputPaste (w : World Client) (arg : Str) (keys : List UInt8) : World Client :=
  if w.client.conn.conn then
    if arg = [] then w
    else inputPasteLoop libotr arg w.handle.maxMessageSize.toNat (keys.length + 1) w [] 0 keys
  else w.crashes .null

/-! ## the away state -/

/-- `imcomm_set_away` -/
def imcommSetAway (h : Imcomm) (msg : Str) : Imcomm :=
  let h := { h with isaway := true, awayMsg := some msg }
  if h.socket ≠ 0 then (snacSetLocationInfo h).1 else h

/-- `imcomm_set_unaway` -/
def imcommSetUnaway (h : Imcomm) : Imcomm :=
  if h.isaway then
    let h := { h with isaway := false, awayMsg := none }
    if h.socket ≠ 0 then (snacSetLocationInfo h).1 else h
  else h

/-- `input_set_away` -/
def inputSetAway (w : World Client) (arg : Str) : World Client :=
  if w.client.conn.conn then
    if w.client.conn.isaway then
      { w with handle := imcommSetUnaway w.handle }.setConn
        { w.client.conn with isaway := false, awaymsg := none }
    else
      { w with handle := imcommSetAway w.handle arg }.setConn
        { w.client.conn with isaway := true, awaymsg := some arg }
  else w

/-- `input_set_predefaway` -/
def inputSetPredefaway (w : World Client) (arg : Str) : World Client :=
  if w.client.conn.conn then
    if arg = [] then w
    else
      match w.client.conn.awaymsgs[(atoi arg).toNat]?, decide (0 ≤ atoi arg) with
      | some message, true =>
        { w with handle := imcommSetAway w.handle message }.setConn
          { w.client.conn with isaway := true, awaymsg := some message }
      | _, _ => w
  else w

/-! ## buddies -/

/-- `input_delete_buddy` -/
def inputDeleteBuddy (w : World Client) (arg : Str) : World Client :=
  if w.client.conn.conn then
    removeFromList { w with handle := imcommImRemoveBuddy w.handle arg } arg
  else w

/-- `input_stop_otr` -/
def inputStopOtr (w : World Client) (arg : Str) : World Client :=
  if w.client.conn.conn then
    match w.client.findBuddy arg with
    | none => w.crashes .wild
    | some none => w
    | some (some p) =>
      match w.client.buddyAt p with
      | none => w.crashes .wild
      | some buddy =>
        if buddy.otr = 1 then
          (w.otrCall none (libotr.disconnect w.client buddy.sn)).alive fun w =>
            w.updateBuddy p fun b => { b with otr := 0 }
        else w
  else w

end

end Bsflite
