import Bsflite.Files
import Bsflite.InfoRequests

/-!
# Bsflite.Typed

`parse_input`: the command table, and what the commands do.  A command that
only prints does nothing here; `q!` and `R!` end the connection, and are the
matter of another module.

* `parseLine` — the command of a line, and its argument.
* `parseLine_iff` — the first entry of the table is the only one that fits.
* `enters` — what a line does.
-/

namespace Bsflite

open LinkedList

/-! ## the table -/

/-- The functions in the table of `parse_input`. -/
inductive InputCallback where
  | inputSendMessage
  | inputGetInfo
  | inputGetAway
  | inputGetProfile
  | inputSetPredefaway
  | inputAddBuddy
  | inputDeleteBuddy
  | inputSetAway
  | inputShowHelp
  | inputShowLog
  | inputPaste
  | inputQuit
  | inputReconnect
  | inputSetInvisible
  | inputShowBuddies
  | inputReloadProfile
  | inputShowOtr
  | inputStopOtr
  | inputSendSmpResponse
  | inputSendSmpRequest
  | inputManualOtrVerify
deriving DecidableEq, Repr

/-- The table of `parse_input`; the lengths in it are those of the commands. -/
def inputCallbacks : List (Str × InputCallback) :=
  [(ascii "m", .inputSendMessage), (ascii "i", .inputGetInfo), (ascii "A", .inputGetAway),
    (ascii "P", .inputGetProfile), (ascii "G", .inputSetPredefaway), (ascii "a", .inputAddBuddy),
    (ascii "d", .inputDeleteBuddy), (ascii "g", .inputSetAway), (ascii "h", .inputShowHelp),
    (ascii "l", .inputShowLog), (ascii "p", .inputPaste), (ascii "q!", .inputQuit),
    (ascii "R!", .inputReconnect), (ascii "v", .inputSetInvisible), (ascii "w", .inputShowBuddies),
    (ascii "z!", .inputReloadProfile), (ascii "?", .inputShowHelp), (ascii "o", .inputShowOtr),
    (ascii "O", .inputStopOtr), (ascii "s", .inputSendSmpResponse),
    (ascii "S", .inputSendSmpRequest), (ascii "M", .inputManualOtrVerify)]

/-- The argument: one blank behind the command is skipped. -/
def commandArg (rest : Str) : Str := if rest.head? = some 32 then rest.tail else rest

/-- The loop of `parse_input`: the first command that the line starts with. -/
def parseLine (inputbuf : Str) : Option (InputCallback × Str) :=
  (inputCallbacks.find? fun ic => ic.1.isPrefixOf inputbuf).map fun ic =>
    (ic.2, commandArg (inputbuf.drop ic.1.length))

/-! ## the commands -/

/-- What the commands get from outside: the keys that are pasted, the value of
`HOME`, the files, and what a fresh node of a list holds. -/
structure Outside where
  keys : List UInt8
  home : Option Str
  fopen : Files
  garbage : Nat → UInt16

/-- The client at its terminal; `isinvisible` is a field of `conn`. -/
structure Terminal where
  world : World Client
  isinvisible : Bool

section
variable [Host]

/-- `input_add_buddy`; a call that does not return ends the client as well. -/
def inputAddBuddy (garbage : Nat → UInt16) (w : World Client) (arg : Str) : World Client :=
  if w.client.conn.conn then
    match imcommImAddBuddy (garbage w.handle.buddylist.length) w.handle arg with
    | some h => { w with handle := h }
    | none => w.crashes .wild
  else w

/-- `input_set_invisible`: nobody asks whether there is a handle. -/
def inputSetInvisible (t : Terminal) : Terminal :=
  if t.world.client.conn.conn then
    { world := { t.world with handle := imcommSetInvisible t.world.handle (!t.isinvisible) }
      isinvisible := !t.isinvisible }
  else { t with world := t.world.crashes .null }

/-- The buddy whose context the commands about OTR use, and the rest of the
line. -/
def otrBuddy (w : World Client) (sn : Str) : Option (Option Buddy) :=
  (w.client.findBuddy sn).map fun p => p.bind w.client.buddyAt

/-- `input_send_smp_response`; `respondSmp` is `otrl_message_respond_smp`. -/
def inputSendSmpResponse (respondSmp : Client → Ctx → Str → List OtrAction) (w : World Client)
    (arg : Str) : World Client :=
  if w.client.conn.conn then
    match splitCommand arg with
    | none => w
    | some (sn, msg) =>
      match otrBuddy w sn with
      | none => w.crashes .wild
      | some buddy =>
        match buddy.bind Buddy.otrContext with
        | some k => w.otrCall none (respondSmp w.client k msg)
        | none => w
  else w

/-- `input_send_smp_request`, which requests nothing. -/
def inputSendSmpRequest (w : World Client) (arg : Str) : World Client :=
  if w.client.conn.conn then
    match splitCommand arg with
    | none => w
    | some (sn, _) =>
      match otrBuddy w sn with
      | none => w.crashes .wild
      | some _ => w
  else w

/-- `input_manual_otr_verify`, for a context that has an active fingerprint. -/
def inputManualOtrVerify (w : World Client) (arg : Str) : World Client :=
  if w.client.conn.conn then
    match otrBuddy w arg with
    | none => w.crashes .wild
    | some buddy =>
      match buddy.bind Buddy.otrContext with
      | some k => w.setContext k { w.client.contexts k with trusted := true }
      | none => w
  else w

variable (libotr : Libotr) (respondSmp : Client → Ctx → Str → List OtrAction)

/-- The commands that change nothing but the handle and the client. -/
def runCommand (o : Outside) (w : World Client) (callback : InputCallback) (arg : Str) :
    World Client :=
  match callback with
  | .inputSendMessage => inputSendMessage libotr w arg
  | .inputGetInfo => inputGetInfo w arg
  | .inputGetAway => inputGetAway w arg
  | .inputGetProfile => inputGetProfile w arg
  | .inputSetPredefaway => inputSetPredefaway w arg
  | .inputAddBuddy => inputAddBuddy o.garbage w arg
  | .inputDeleteBuddy => inputDeleteBuddy w arg
  | .inputSetAway => inputSetAway w arg
  | .inputPaste => inputPaste libotr w arg o.keys
  | .inputReloadProfile => inputReloadProfile o.home o.fopen w
  | .inputStopOtr => inputStopOtr libotr w arg
  | .inputSendSmpResponse => inputSendSmpResponse respondSmp w arg
  | .inputSendSmpRequest => inputSendSmpRequest w arg
  | .inputManualOtrVerify => inputManualOtrVerify w arg
  | .inputShowHelp | .inputShowLog | .inputShowBuddies | .inputShowOtr => w
  | .inputSetInvisible | .inputQuit | .inputReconnect => w

/-- What becomes of the terminal when a line is entered: its command is run,
and nobody waits any more. -/
def enters (o : Outside) (t : Terminal) (inputbuf : Str) : Terminal :=
  if t.world.client.crash.isSome then t
  else
    let t :=
      match parseLine inputbuf with
      | some (.inputSetInvisible, _) => inputSetInvisible t
      | some (callback, arg) =>
        { t with world := runCommand libotr respondSmp o t.world callback arg }
      | none => t
    { t with world := t.world.alive fun w => { w with client := { w.client with waiting := [] } } }

end

/-! ## the first entry -/

/-- No command is the beginning of another. -/
theorem inputCallbacks_prefix :
    inputCallbacks.Pairwise fun ic ic' => ¬ ic.1 <+: ic'.1 ∧ ¬ ic'.1 <+: ic.1 := by decide

/-- **The command of a line** does not depend on the order of the table. -/
theorem parseLine_iff (inputbuf arg : Str) (callback : InputCallback) :
    parseLine inputbuf = some (callback, arg) ↔
      ∃ command, (command, callback) ∈ inputCallbacks ∧
        ∃ rest, inputbuf = command ++ rest ∧ arg = commandArg rest := by
  have hsymm : Std.Symm fun ic ic' : Str × InputCallback =>
      ¬ ic.1 <+: ic'.1 ∧ ¬ ic'.1 <+: ic.1 :=
    ⟨fun _ _ h => h.symm⟩
  have hfound {inputbuf : Str} {ic : Str × InputCallback}
      (hfind : inputCallbacks.find? (fun ic => ic.1.isPrefixOf inputbuf) = some ic) :
      ic ∈ inputCallbacks ∧ ic.1 <+: inputbuf :=
    have hfits := List.find?_some hfind
    ⟨List.mem_of_find?_eq_some hfind, List.isPrefixOf_iff_prefix.mp hfits⟩
  rw [parseLine, Option.map_eq_some_iff]
  constructor
  · rintro ⟨⟨command, found⟩, hfind, heq⟩
    obtain ⟨rfl, rfl⟩ := Prod.mk.inj heq
    obtain ⟨hmem, rest, rfl⟩ := hfound hfind
    exact ⟨command, hmem, rest, rfl, by rw [List.drop_left]⟩
  · rintro ⟨command, hmem, rest, rfl, rfl⟩
    have hfits : command <+: command ++ rest := List.prefix_append _ _
    obtain ⟨ic, hfind⟩ : ∃ ic, inputCallbacks.find?
        (fun ic => ic.1.isPrefixOf (command ++ rest)) = some ic := by
      rw [← Option.isSome_iff_exists, List.find?_isSome]
      exact ⟨_, hmem, List.isPrefixOf_iff_prefix.mpr hfits⟩
    obtain ⟨hic, hprefix⟩ := hfound hfind
    have heq : ic = (command, callback) := by
      by_contra hne
      obtain ⟨hleft, hright⟩ := inputCallbacks_prefix.forall hic hmem hne
      exact (List.prefix_or_prefix_of_prefix hprefix hfits).elim hleft hright
    exact ⟨ic, hfind, by rw [heq, List.drop_left]⟩

end Bsflite
