import Bsflite.Own

/-!
# Bsflite.Waiting

The automatic responses of an away client, and those who wait for an answer.
Whoever writes goes on the list `waiting`, once; a response goes out only
when somebody is put there; and Enter empties the list.

* `getmessage_waits` — what a message does to the list and to the responses.
* `runAway_waits` — a run without an Enter only adds to the list, and
  responds to some of those it added.
* `auto_responses_bounded` — nobody gets two responses between two presses of
  Enter, and the names on the list always differ.
-/

namespace Bsflite

/-! ## names that differ -/

/-- Names that `imcomm_compare_nicks` tells apart, each from each. -/
def Distinct (sns : List Str) : Prop :=
  sns.Pairwise fun sn sn' => imcommCompareNicks sn sn' = false

theorem imcommCompareNicks_comm (s1 s2 : Str) :
    imcommCompareNicks s1 s2 = imcommCompareNicks s2 s1 := by
  rw [imcommCompareNicks, imcommCompareNicks]
  exact decide_eq_decide.mpr eq_comm

/-- The order does not matter. -/
theorem distinct_reverse {sns : List Str} : Distinct sns.reverse ↔ Distinct sns := by
  rw [Distinct, List.pairwise_reverse, Distinct]
  simp only [imcommCompareNicks_comm]

/-- One more name that nobody on the list has. -/
theorem distinct_append_singleton {sns : List Str} {who : Str} (h : Distinct sns)
    (hwho : sns.any (fun sn => imcommCompareNicks sn who) = false) : Distinct (sns ++ [who]) := by
  refine List.pairwise_append.mpr ⟨h, List.pairwise_singleton _ _, fun sn hsn sn' hsn' => ?_⟩
  rw [List.mem_singleton.mp hsn']
  simpa using List.any_eq_false.mp hwho sn hsn

/-! ## the responses -/

/-- The addressee of an automatic response. -/
def Traced.response : Traced → Option Str
  | .imSend whom _ true _ => some whom
  | _ => none

/-- The addressees of the automatic responses, newest first. -/
def World.responses (w : World Client) : List Str := w.client.trace.filterMap Traced.response

section
variable {w w' : World Client}

/-- The client makes them itself. -/
theorem responses_of_own (h : w'.own = w.own) : w'.responses = w.responses := by
  refine filterMap_of_own (fun t ht => ?_) h
  cases t with
  | imSend whom text automsg secret => rw [show automsg = false from ht]; rfl
  | newmsg text => rfl
  | inject message => rfl
  | logged event sn msg => rfl

theorem alive_responses {f : World Client → World Client} (h : (f w).responses = w.responses) :
    (w.alive f).responses = w.responses := by
  rw [World.alive]
  split
  · rfl
  · exact h

/-- A line in a log is none. -/
theorem logEvent_responses (w : World Client) (event : LogEvent) (sn : Str) (msg : Option Str) :
    (w.logEvent event sn msg).responses = w.responses := by
  rw [World.logEvent]
  split
  · split
    · rw [World.responses, World.crashes_trace, World.responses]
    · split
      · rfl
      · rfl
  · rfl

theorem logEvent_waiting (w : World Client) (event : LogEvent) (sn : Str) (msg : Option Str) :
    (w.logEvent event sn msg).client.waiting = w.client.waiting := by
  rw [World.logEvent]
  split
  · split
    · exact (crashes_frame .wild).waiting
    · split
      · rfl
      · rfl
  · rfl

/-! ## a message -/

/-- What a message from `who` may do: nothing that matters here, or put the
sender on the list, and then perhaps respond. -/
inductive Waits (w : World Client) (who : Str) (automessage : Bool) (w' : World Client) : Prop where
  | passed (hwaiting : w'.client.waiting = w.client.waiting)
      (hresponses : w'.responses = w.responses)
  | added (hfresh : w.client.foundWaiting who = false)
      (hwaiting : w'.client.waiting = w.client.waiting ++ [who])
      (hresponses : w'.responses = w.responses)
  | answered (hfresh : w.client.foundWaiting who = false)
      (hwaiting : w'.client.waiting = w.client.waiting ++ [who])
      (hresponses : w'.responses = who :: w.responses)
      (haway : w.client.conn.isaway = true) (hauto : automessage = false)

variable {who : Str} {automessage : Bool}

/-- What comes after it. -/
theorem Waits.trans_same {w'' : World Client} (h : Waits w who automessage w')
    (hwaiting : w''.client.waiting = w'.client.waiting)
    (hresponses : w''.responses = w'.responses) : Waits w who automessage w'' := by
  cases h with
  | passed hw hr => exact .passed (hwaiting.trans hw) (hresponses.trans hr)
  | added hfresh hw hr => exact .added hfresh (hwaiting.trans hw) (hresponses.trans hr)
  | answered hfresh hw hr haway hauto =>
      exact .answered hfresh (hwaiting.trans hw) (hresponses.trans hr) haway hauto

/-- What comes before it. -/
theorem Waits.same_trans {w'' : World Client} (h : Waits w' who automessage w'')
    (hwaiting : w'.client.waiting = w.client.waiting) (hresponses : w'.responses = w.responses)
    (haway : w'.client.conn.isaway = w.client.conn.isaway) : Waits w who automessage w'' := by
  have hfound : w'.client.foundWaiting who = w.client.foundWaiting who := by
    rw [Client.foundWaiting, hwaiting, Client.foundWaiting]
  cases h with
  | passed hw hr => exact .passed (hw.trans hwaiting) (hr.trans hresponses)
  | added hfresh hw hr =>
      rw [hwaiting] at hw
      exact .added (hfound ▸ hfresh) hw (hr.trans hresponses)
  | answered hfresh hw hr haway' hauto =>
      rw [hwaiting] at hw
      rw [hresponses] at hr
      exact .answered (hfound ▸ hfresh) hw hr (haway ▸ haway') hauto

variable [Host]

theorem awaitAnswer_waits (w : World Client) (who : Str) (automessage : Bool) :
    Waits w who automessage (awaitAnswer w who automessage) := by
  rw [awaitAnswer]
  split
  · exact .passed rfl rfl
  · next hfound =>
    have hfresh : w.client.foundWaiting who = false := by simpa using hfound
    simp only
    split
    · next hauto =>
      simp only [BsfConn.autoResponds, Bool.and_eq_true, Bool.not_eq_true'] at hauto
      split
      · exact .answered hfresh rfl rfl hauto.1.1 hauto.1.2
      · refine .added hfresh (crashes_frame .null).waiting ?_
        rw [World.responses, World.crashes_trace, World.responses]
    · exact .added hfresh rfl rfl

/-- **A message.** -/
theorem getmessage_waits (libotr : Libotr) (w : World Client) (who : Str) (automessage : Bool)
    (message : Str) : Waits w who automessage (getmessage libotr w who automessage message) := by
  have hframe := receiveOtr_frame (w := w) libotr who message
  have hresponses := responses_of_own (receiveOtr_plain w libotr who message).own
  have hreceived : Waits w who automessage (receiveOtr libotr w who message).1 :=
    .passed hframe.waiting hresponses
  rw [getmessage_eq, World.alive]
  split
  · exact hreceived
  · split
    · exact hreceived
    · -- the sender is put on the list of those who wait, or is there
      obtain ⟨lastsn, hlast⟩ := setLastsn_eq (receiveOtr libotr w who message).1 (simplifySn who)
      have hawait := (awaitAnswer_waits
        (setLastsn (receiveOtr libotr w who message).1 (simplifySn who)) who
        automessage).same_trans (w := w) (by rw [hlast]; exact hframe.waiting)
        (by rw [hlast]; exact hresponses)
        (by rw [hlast, ← hframe.conn]; rfl)
      rw [World.alive]
      split
      · exact hawait
      · exact hawait.trans_same (logEvent_waiting _ _ _ _) (logEvent_responses _ _ _ _)

end

/-! ## runs -/

/-- What an Enter can make the client do. -/
inductive Command where
  | other
  | message (arg : Str)
  | paste (arg : Str) (keys : List UInt8)
  | setAway (arg : Str)
  | setPredefaway (arg : Str)
  | stopOtr (arg : Str)

/-- What happens to a client that may be away. -/
inductive AwayEvent where
  | incoming (who : Str) (automessage : Bool) (message : Str)
  /-- the settings change, the away state among them -/
  | settings (conn : BsfConn)
  /-- a line is entered -/
  | enter (command : Command)

/-- Is it an Enter? -/
def AwayEvent.isEnter : AwayEvent → Bool
  | .enter _ => true
  | _ => false

section
variable [Host] (libotr : Libotr)

/-- `parse_input`, for these commands. -/
def parseInput (w : World Client) : Command → World Client
  | .other => w
  | .message arg => inputSendMessage libotr w arg
  | .paste arg keys => inputPaste libotr w arg keys
  | .setAway arg => inputSetAway w arg
  | .setPredefaway arg => inputSetPredefaway w arg
  | .stopOtr arg => inputStopOtr libotr w arg

/-- What the client does at an event; one that crashed does nothing.  After a
line is entered nobody waits any more. -/
def handleAway (w : World Client) (e : AwayEvent) : World Client :=
  w.alive fun w =>
    match e with
    | .incoming who automessage message => getmessage libotr w who automessage message
    | .settings conn => w.setConn conn
    | .enter command =>
      (parseInput libotr w command).alive fun w =>
        { w with client := { w.client with waiting := [] } }

/-- A run of events. -/
def runAway (w : World Client) (events : List AwayEvent) : World Client :=
  events.foldl (handleAway libotr) w

variable (w : World Client)

/-! ### commands -/

/-- A command puts nobody on the list, and responds to nobody. -/
def Keeps (w w' : World Client) : Prop :=
  (∃ spoke, Tells w w' spoke) ∧ w'.client.waiting = w.client.waiting ∧ w'.responses = w.responses

omit [Host] in
theorem keeps_of_plain {w w' : World Client} {spoke : Bool} (h : Plain w w' spoke) : Keeps w w' :=
  ⟨⟨spoke, h.toTells⟩, h.waiting, responses_of_own h.own⟩

/-- What follows a typed message: the text is logged. -/
theorem logSent_keeps (sn msg : Str) :
    Keeps w ((otrImcommImSendMessage libotr w sn msg).1.alive fun w =>
      (w.setConn { w.client.conn with lastsn := some sn }).logEvent .imsend sn (some msg)) := by
  obtain ⟨spoke, hsend⟩ := otrImcommImSendMessage_plain w libotr sn msg
  simp only [World.alive]
  split
  · exact keeps_of_plain hsend
  · have hset (w : World Client) :
        Plain w (w.setConn { w.client.conn with lastsn := some sn }) false :=
      setConn_plain w rfl rfl
    have hlast := hsend.trans_silent (hset _)
    exact ⟨⟨spoke, hlast.toTells.trans_silent (logEvent_tells _ _ _ _)⟩,
      (logEvent_waiting _ _ _ _).trans hlast.waiting,
      (logEvent_responses _ _ _ _).trans (responses_of_own hlast.own)⟩

/-- **A command.** -/
theorem parseInput_keeps (command : Command) : Keeps w (parseInput libotr w command) := by
  cases command with
  | other => exact keeps_of_plain (Plain.refl w)
  | message arg =>
      rw [parseInput, inputSendMessage]
      split
      · split
        · exact keeps_of_plain (Plain.refl w)
        · exact logSent_keeps libotr w _ _
      · exact keeps_of_plain (Plain.refl w)
  | paste arg keys => exact keeps_of_plain (inputPaste_plain w libotr arg keys).choose_spec
  | setAway arg => exact keeps_of_plain (inputSetAway_plain w arg)
  | setPredefaway arg => exact keeps_of_plain (inputSetPredefaway_plain w arg)
  | stopOtr arg => exact keeps_of_plain (inputStopOtr_plain w libotr arg).choose_spec

/-! ### events -/

/-- **An event**, as far as the responses go. -/
theorem handleAway_responses (e : AwayEvent) :
    (handleAway libotr w e).responses = w.responses ∨
      ∃ who message, e = .incoming who false message ∧ w.client.conn.isaway = true ∧
        (handleAway libotr w e).responses = who :: w.responses := by
  rw [handleAway, World.alive]
  split
  · exact Or.inl rfl
  · cases e with
    | incoming who automessage message =>
        cases getmessage_waits libotr w who automessage message with
        | passed _ hresponses => exact Or.inl hresponses
        | added _ _ hresponses => exact Or.inl hresponses
        | answered _ _ hresponses haway hauto =>
            exact Or.inr ⟨who, message, by rw [hauto], haway, hresponses⟩
    | settings conn => exact Or.inl rfl
    | enter command =>
        have hclear (w : World Client) :
            ({ w with client := { w.client with waiting := [] } } : World Client).responses =
              w.responses := rfl
        obtain ⟨-, -, hresponses⟩ := parseInput_keeps libotr w command
        exact Or.inl ((alive_responses (hclear _)).trans hresponses)

/-- An event that is no Enter puts at most one name on the list, which was not
there, and responds at most to that one. -/
theorem handleAway_waits {e : AwayEvent} (h : e.isEnter = false) :
    ∃ more new, (handleAway libotr w e).client.waiting = w.client.waiting ++ more ∧
      (handleAway libotr w e).responses = new ++ w.responses ∧ new.reverse.Sublist more ∧
      (Distinct w.client.waiting → Distinct (w.client.waiting ++ more)) := by
  have hnothing (w : World Client) : ∃ more new : List Str,
      w.client.waiting = w.client.waiting ++ more ∧ w.responses = new ++ w.responses ∧
        new.reverse.Sublist more ∧
        (Distinct w.client.waiting → Distinct (w.client.waiting ++ more)) :=
    ⟨[], [], by simp, by simp, by simp, by simp⟩
  rw [handleAway, World.alive]
  split
  · exact hnothing w
  · cases e with
    | incoming who automessage message =>
        cases getmessage_waits libotr w who automessage message with
        | passed hwaiting hresponses =>
            exact ⟨[], [], by simp [hwaiting], hresponses, List.Sublist.refl _, by simp⟩
        | added hfresh hwaiting hresponses =>
            exact ⟨[who], [], hwaiting, hresponses, List.nil_sublist _,
              fun hd => distinct_append_singleton hd hfresh⟩
        | answered hfresh hwaiting hresponses _ _ =>
            exact ⟨[who], [who], hwaiting, hresponses, List.Sublist.refl _,
              fun hd => distinct_append_singleton hd hfresh⟩
    | settings conn => exact hnothing w
    | enter command => cases h

/-- **A run without an Enter**, by induction on the events: the list grows,
and the responses go to different places of what it grew by. -/
theorem runAway_waits (events : List AwayEvent) (h : ∀ e ∈ events, e.isEnter = false) :
    ∃ more new, (runAway libotr w events).client.waiting = w.client.waiting ++ more ∧
      (runAway libotr w events).responses = new ++ w.responses ∧ new.reverse.Sublist more := by
  induction events generalizing w with
  | nil => exact ⟨[], [], by simp [runAway], rfl, List.Sublist.refl _⟩
  | cons e events ih =>
      obtain ⟨he, hrest⟩ := List.forall_mem_cons.mp h
      obtain ⟨more, new, hwaiting, hresponses, hsub, -⟩ := handleAway_waits libotr w he
      obtain ⟨more', new', hwaiting', hresponses', hsub'⟩ := ih (handleAway libotr w e) hrest
      refine ⟨more ++ more', new' ++ new, ?_, ?_, ?_⟩
      · rw [← List.append_assoc, ← hwaiting, ← hwaiting']
        rfl
      · rw [List.append_assoc, ← hresponses, ← hresponses']
        rfl
      · rw [List.reverse_append]
        exact hsub.append hsub'

/-- The names on the list differ after every event. -/
theorem handleAway_distinct (h : Distinct w.client.waiting) (e : AwayEvent) :
    Distinct (handleAway libotr w e).client.waiting := by
  cases he : e.isEnter with
  | false =>
      obtain ⟨more, new, hwaiting, -, -, hdistinct⟩ := handleAway_waits libotr w he
      rw [hwaiting]
      exact hdistinct h
  | true =>
      rw [handleAway, World.alive]
      split
      · exact h
      · cases e with
        | incoming who automessage message => cases he
        | settings conn => cases he
        | enter command =>
            simp only [World.alive]
            split
            · -- a client that crashes at a command still has the list
              obtain ⟨-, hwaiting, -⟩ := parseInput_keeps libotr w command
              rw [hwaiting]
              exact h
            · exact List.Pairwise.nil

theorem runAway_distinct (h : Distinct w.client.waiting) (events : List AwayEvent) :
    Distinct (runAway libotr w events).client.waiting := by
  induction events generalizing w with
  | nil => exact h
  | cons e events ih => exact ih _ (handleAway_distinct libotr w h e)

/-- **Automatic responses are bounded**: in every run, the names of those who
wait always differ; between two presses of Enter nobody is responded to
twice, under any spelling of the name; and a response answers a message that
is none itself, while the client is away. -/
theorem auto_responses_bounded (libotr : Libotr) (w : World Client)
    (hstart : Distinct w.client.waiting) :
    (∀ events, Distinct (runAway libotr w events).client.waiting) ∧
      (∀ events between : List AwayEvent, (∀ e ∈ between, e.isEnter = false) →
        ∃ new, (runAway libotr w (events ++ between)).responses =
          new ++ (runAway libotr w events).responses ∧ Distinct new) ∧
      (∀ (events : List AwayEvent) (e : AwayEvent),
        (runAway libotr w (events ++ [e])).responses = (runAway libotr w events).responses ∨
          ∃ who message, e = .incoming who false message ∧
            (runAway libotr w events).client.conn.isaway = true ∧
            (runAway libotr w (events ++ [e])).responses =
              who :: (runAway libotr w events).responses) := by
  have happend (events more : List AwayEvent) : runAway libotr w (events ++ more) =
      runAway libotr (runAway libotr w events) more := List.foldl_append
  refine ⟨runAway_distinct libotr w hstart, fun events between hbetween => ?_, fun events e => ?_⟩
  · obtain ⟨more, new, hwaiting, hresponses, hsub⟩ :=
      runAway_waits libotr (runAway libotr w events) between hbetween
    have hdistinct := runAway_distinct libotr w hstart (events ++ between)
    rw [happend, hwaiting] at hdistinct
    have hmore : Distinct more := (List.pairwise_append.mp hdistinct).2.1
    rw [happend]
    exact ⟨new, hresponses, distinct_reverse.mp (hmore.sublist hsub)⟩
  · rw [happend]
    exact handleAway_responses libotr (runAway libotr w events) e

end

/-- Bob writes twice to Alice, who is away, and is answered once. -/
theorem auto_responses_bounded_bob :
    (@runAway littleEndianHost quietLibotr awayFromBob
      [.incoming (ascii "bob") false (ascii "hi"),
        .incoming (ascii "B ob") false (ascii "hey")]).responses = [ascii "bob"] ∧
    ∃ new, (@runAway littleEndianHost quietLibotr awayFromBob
      ([] ++ [.incoming (ascii "bob") false (ascii "hi"),
        .incoming (ascii "B ob") false (ascii "hey")])).responses =
          new ++ (@runAway littleEndianHost quietLibotr awayFromBob []).responses ∧ Distinct new :=
  ⟨rfl, (@auto_responses_bounded littleEndianHost quietLibotr awayFromBob List.Pairwise.nil).2.1
    [] _ (by simp [AwayEvent.isEnter])⟩

end Bsflite
