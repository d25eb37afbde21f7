import Bsflite.Calls
import Bsflite.Kept
import Bsflite.MainLoop

/-!
# Bsflite.Whole

The whole client: the library with the client's callbacks behind it, the lines
that are typed, and the idle periods, in any order.

* `errorCallback` — the callback that loads the buddies.
* `Follows` — what every part of the client keeps.
* `client_told` — whatever happens, the server was told last what the prompt
  shows.
-/

namespace Bsflite

/-! ## the callbacks that are left -/

section
variable [Host]

/-- `error_callback`; the other callbacks that are left only print. -/
def errorCallback (o : Outside) (c : Callback) (w : World Client) : World Client :=
  match c with
  | .error .statusConnected _ =>
    match loadBuddylist o.garbage o.home o.fopen w.handle with
    | .ok h => { w with handle := h }
    | .error _ => w.crashes .wild
  | .error .errorDisconnected _ => { w with handle := { w.handle with toDelete := true } }
  | _ => w

end

/-! ## what is kept -/

/-- The client shows the away state of its handle. -/
structure ShowsAway (w : World Client) : Prop where
  isaway : w.client.conn.isaway = w.handle.isaway
  awaymsg : w.client.conn.awaymsg = w.handle.awayMsg
  away : w.client.conn.awaymsg.isSome = w.client.conn.isaway

section
variable [Host]

/-- The SNAC of a message. -/
def Said.body (m : Said) : SnacBody := messageBody m.whom m.text m.automsg

/-- The messages that went out are those that the client said, in this order. -/
def SaidIn (c : Client) (out : List SnacBody) (c' : Client) : Prop :=
  ∃ more, c'.said = c.said ++ more ∧ out.filter SnacBody.isMessage = more.map Said.body

theorem SaidIn.trans {c c' c'' : Client} {out out' : List SnacBody} (h1 : SaidIn c out c')
    (h2 : SaidIn c' out' c'') : SaidIn c (out ++ out') c'' := by
  obtain ⟨more, hsaid, hout⟩ := h1
  obtain ⟨more', hsaid', hout'⟩ := h2
  exact ⟨more ++ more', by rw [hsaid', hsaid, List.append_assoc],
    by rw [List.filter_append, hout, hout', List.map_append]⟩

/-- Nothing was said, and no message went out. -/
theorem SaidIn.of_still {c c' : Client} {out : List SnacBody} (hsaid : c'.said = c.said)
    (hout : ∀ b ∈ out, b.isMessage = false) : SaidIn c out c' :=
  ⟨[], by rw [hsaid, List.append_nil], List.filter_eq_nil_iff.mpr fun b hb => by simp [hout b hb]⟩

/-- What goes out shows what is set and said, and so does the client. -/
structure FollowsWith (w : World Client) (out : List SnacBody) (w' : World Client) : Prop where
  tracks : Tracks w.handle out w'.handle
  isinvisible : w'.handle.isinvisible = w.handle.isinvisible
  shows : ShowsAway w → ShowsAway w'
  said : SaidIn w.client out w'.client

/-- The same for some SNACs, if everything flows. -/
def Follows (w w' : World Client) : Prop :=
  w.handle.Flowing → w.handle.socket ≠ 0 → ∃ out, FollowsWith w out w'

theorem FollowsWith.trans {w w' w'' : World Client} {out out' : List SnacBody}
    (h1 : FollowsWith w out w') (h2 : FollowsWith w' out' w'') : FollowsWith w (out ++ out') w'' :=
  ⟨h1.tracks.trans h2.tracks, h2.isinvisible.trans h1.isinvisible, fun h => h2.shows (h1.shows h),
    h1.said.trans h2.said⟩

namespace Follows

theorem trans {w w' w'' : World Client} (h1 : Follows w w') (h2 : Follows w' w'') :
    Follows w w'' := by
  intro hf hsocket
  obtain ⟨out, hfollows⟩ := h1 hf hsocket
  have htracks := hfollows.tracks
  obtain ⟨out', hfollows'⟩ := h2 htracks.flowing (htracks.socket ▸ hsocket)
  exact ⟨_, hfollows.trans hfollows'⟩

/-- The client changes. -/
theorem of_client (w : World Client) (c : Client) (hisaway : c.conn.isaway = w.client.conn.isaway)
    (hmsg : c.conn.awaymsg = w.client.conn.awaymsg) (hsaid : c.said = w.client.said) :
    Follows w { w with client := c } := by
  intro hf _
  refine ⟨[], .refl hf, rfl, fun h => ?_, .of_still hsaid (List.forall_mem_nil _)⟩
  exact ⟨hisaway.trans h.isaway, hmsg.trans h.awaymsg, by rw [hmsg, hisaway, h.away]⟩

/-- A call of the library. -/
theorem of_speaks {w : World Client} {h : Imcomm} (hspeaks : Speaks w.handle h) :
    Follows w { w with handle := h } := by
  intro hf _
  obtain ⟨out, htracks, hmessage, hset⟩ := hspeaks hf
  refine ⟨out, htracks, hset.isinvisible, fun h => ?_, .of_still rfl hmessage⟩
  exact ⟨h.isaway.trans hset.isaway.symm, h.awaymsg.trans hset.awayMsg.symm, h.away⟩

/-- Something is said. -/
theorem imSend (w : World Client) (whom text : Str) (automsg : Bool) :
    Follows w (w.imSend whom text automsg) := by
  intro hf _
  obtain ⟨htracks, hset⟩ := imcommImSendMessage_tracks hf whom text automsg
  refine ⟨_, htracks, hset.isinvisible, fun h => ?_, [⟨whom, text, automsg⟩], ?_, ?_⟩
  · exact ⟨h.isaway.trans hset.isaway.symm, h.awaymsg.trans hset.awayMsg.symm, h.away⟩
  · exact List.reverse_cons
  · have hrest : (if automsg then [] else unidleIf w.handle.isidle).filter
        SnacBody.isMessage = [] := by
      cases automsg <;> cases w.handle.isidle <;> rfl
    rw [messageBodies, List.filter_cons_of_pos rfl, hrest]
    rfl

/-- What the client does by itself. -/
theorem kept : Kept Follows where
  refl w := of_client w w.client rfl rfl rfl
  trans := trans
  client := of_client
  imSend := imSend

theorem refl (w : World Client) : Follows w w := kept.refl w

/-- The end of a connection that failed does not matter here. -/
theorem errorCallback (o : Outside) (w : World Client) (c : Callback) :
    Follows w (errorCallback o c w) := by
  cases c with
  | error event data =>
    cases event with
    | statusConnected =>
      simp only [Bsflite.errorCallback]
      split
      · next h hload => exact of_speaks (loadBuddylist_speaks _ _ _ w.handle h hload)
      · exact kept.crashes w .wild
    | errorDisconnected =>
      exact of_speaks (.of_same ⟨⟨rfl, rfl, rfl, rfl, rfl, rfl, rfl, rfl⟩, rfl, rfl, rfl, rfl⟩)
    | _ => exact refl w
  | _ => exact refl w

variable (libotr : Libotr)

theorem fire (o : Outside) (w : World Client) (c : Callback) :
    Follows w (w.fire (bsflite libotr (Bsflite.errorCallback o)) c) :=
  kept.alive (refl w) fun w => kept.called libotr w c (errorCallback o w c)

/-- **The parsers** that answer nothing call the client. -/
theorem passive (o : Outside) : Passive (bsflite libotr (Bsflite.errorCallback o)) Follows where
  refl := refl
  trans := trans
  handle _ _ hs := of_speaks (.of_same hs)
  children _ _ := fun hf _ => ⟨[], .refl hf, rfl, fun h => ⟨h.isaway, h.awaymsg, h.away⟩,
    .of_still rfl (List.forall_mem_nil _)⟩
  fire w c _ := fire libotr o w c

/-! ## settings -/

/-- A setting, and what the client writes down of it. -/
theorem setting (w : World Client) (s : Setting) {conn : BsfConn}
    (hinv : (s.change w.handle).isinvisible = w.handle.isinvisible)
    (hshows : ShowsAway w → conn.isaway = (s.change w.handle).isaway ∧
      conn.awaymsg = (s.change w.handle).awayMsg ∧ conn.awaymsg.isSome = conn.isaway) :
    Follows w ({ w with handle := s.run w.handle }.setConn conn) := by
  intro hf hsocket
  have htracks := s.run_tracks hf hsocket
  have hsent := s.run_sent w.handle ((s.change_same w.handle).flowing hf)
  obtain ⟨writes, heq⟩ := hsent
  refine ⟨s.bodies w.handle, htracks, ?_, fun h => ?_,
    .of_still rfl fun b hb => (s.bodies_still w.handle b hb).message⟩
  · show (s.run w.handle).isinvisible = _
    rw [heq]
    exact hinv
  · obtain ⟨hisaway, hmsg, haway⟩ := hshows h
    refine ⟨?_, ?_, haway⟩
    · show conn.isaway = (s.run w.handle).isaway
      rw [heq]
      exact hisaway
    · show conn.awaymsg = (s.run w.handle).awayMsg
      rw [heq]
      exact hmsg

theorem inputSetAway (w : World Client) (arg : Str) : Follows w (inputSetAway w arg) := by
  rw [Bsflite.inputSetAway]
  split
  · split
    · next haway =>
      refine setting w .setUnaway ?_ fun h => ?_
      · rw [Setting.change]
        split <;> rfl
      · rw [Setting.change, if_pos (h.isaway.symm.trans haway)]
        exact ⟨rfl, rfl, rfl⟩
    · exact setting w (.setAway arg) rfl fun _ => ⟨rfl, rfl, rfl⟩
  · exact refl w

theorem inputSetPredefaway (w : World Client) (arg : Str) :
    Follows w (inputSetPredefaway w arg) := by
  rw [Bsflite.inputSetPredefaway]
  split
  · split
    · exact refl w
    · split
      · exact setting w (.setAway _) rfl fun _ => ⟨rfl, rfl, rfl⟩
      · exact refl w
  · exact refl w

theorem inputReloadProfile (home : Option Str) (fopen : Files) (w : World Client) :
    Follows w (inputReloadProfile home fopen w) := by
  rw [Bsflite.inputReloadProfile, setProfile_eq]
  split
  · split
    · next h awaymsgs hprofile _ =>
      obtain rfl := Except.ok.inj hprofile
      exact setting w (.setProfile _) rfl fun h => ⟨h.isaway, h.awaymsg, h.away⟩
    · exact kept.crashes w .wild
  · exact refl w

/-! ## commands -/

theorem inputAddBuddy (garbage : Nat → UInt16) (w : World Client) (arg : Str) :
    Follows w (inputAddBuddy garbage w arg) := by
  rw [Bsflite.inputAddBuddy]
  split
  · split
    · next h hadd => exact of_speaks (imcommImAddBuddy_speaks hadd)
    · exact kept.crashes w .wild
  · exact refl w

theorem inputDeleteBuddy (w : World Client) (arg : Str) : Follows w (inputDeleteBuddy w arg) := by
  rw [Bsflite.inputDeleteBuddy]
  split
  · exact (of_speaks (imcommImRemoveBuddy_speaks w.handle arg)).trans (kept.removeFromList _ _)
  · exact refl w

theorem inputGet {request : Imcomm → Str → Imcomm} (hrequest : ∀ h sn, Speaks h (request h sn))
    (w : World Client) (arg : Str) : Follows w (inputGet request w arg) := by
  rw [Bsflite.inputGet]
  split
  · exact of_speaks (hrequest w.handle arg)
  · exact refl w

/-- **A command.** -/
theorem runCommand (respondSmp : Client → Ctx → Str → List OtrAction) (o : Outside)
    (w : World Client) (callback : InputCallback) (arg : Str) :
    Follows w (runCommand libotr respondSmp o w callback arg) := by
  cases callback with
  | inputSendMessage => exact kept.inputSendMessage libotr w arg
  | inputGetInfo => exact inputGet (fun h sn => (request_speaks h sn).1) w arg
  | inputGetAway => exact inputGet (fun h sn => (request_speaks h sn).2.2) w arg
  | inputGetProfile => exact inputGet (fun h sn => (request_speaks h sn).2.1) w arg
  | inputSetPredefaway => exact inputSetPredefaway w arg
  | inputAddBuddy => exact inputAddBuddy o.garbage w arg
  | inputDeleteBuddy => exact inputDeleteBuddy w arg
  | inputSetAway => exact inputSetAway w arg
  | inputPaste => exact kept.inputPaste libotr w arg o.keys
  | inputReloadProfile => exact inputReloadProfile o.home o.fopen w
  | inputStopOtr => exact kept.inputStopOtr libotr w arg
  | inputSendSmpResponse => exact kept.inputSendSmpResponse respondSmp w arg
  | inputSendSmpRequest => exact kept.inputSendSmpRequest w arg
  | inputManualOtrVerify => exact kept.inputManualOtrVerify w arg
  | inputShowHelp => exact refl w
  | inputShowLog => exact refl w
  | inputShowBuddies => exact refl w
  | inputShowOtr => exact refl w
  | inputSetInvisible => exact refl w
  | inputQuit => exact refl w
  | inputReconnect => exact refl w

theorem endIdle (w : World Client) : Follows w (endIdle w) := by
  rw [Bsflite.endIdle]
  split
  · simp only
    split
    · exact (of_speaks (imcommSetIdleTime_speaks w.handle 0)).trans (kept.setConn _ rfl rfl)
    · exact kept.setConn w rfl rfl
  · exact refl w

theorem beginIdle (w : World Client) (elapsed : Int) : Follows w (beginIdle w elapsed) := by
  have hshown : Follows w (w.setConn { w.client.conn with isidle := true }) :=
    kept.setConn w rfl rfl
  rw [Bsflite.beginIdle]
  split
  · exact hshown.trans (of_speaks (imcommSetIdleTime_speaks _ _))
  · exact hshown

end Follows

/-! ## what happens -/

/-- What happens to a client: a payload arrives, a line is entered, a key is
pressed, or there was none for some time. -/
inductive Happening where
  | payload (o : Outside) (data : List UInt8)
  | line (o : Outside) (inputbuf : Str)
  | key
  | idle (elapsed : Int)

namespace Happening

/-- A payload that fits into a frame and does not answer a login, and a line
that does not end the connection. -/
def Fits : Happening → Prop
  | payload _ data => data.length ≤ 65535 ∧ ¬ AnswersLogin data
  | line _ inputbuf => ∀ command ∈ parseLine inputbuf,
    command.1 ≠ .inputQuit ∧ command.1 ≠ .inputReconnect
  | key => True
  | idle _ => True

/-- The server's answer about the location rights: SNAC (02,03). -/
def isRights : Happening → Bool
  | payload _ data => (Turn.payload data).isRights
  | line _ _ => false
  | key => false
  | idle _ => false

end Happening

/-- The prompt shows the settings of the handle. -/
structure Terminal.Shown (t : Terminal) : Prop extends ShowsAway t.world where
  isinvisible : t.isinvisible = t.world.handle.isinvisible

/-- What the server should have been told. -/
def Terminal.view (t : Terminal) : ServerView :=
  .of { t.world.handle with
    isaway := t.world.client.conn.isaway
    awayMsg := t.world.client.conn.awaymsg
    isinvisible := t.isinvisible }

theorem Terminal.Shown.view_eq {t : Terminal} (h : t.Shown) : t.view = .of t.world.handle := by
  rw [Terminal.view, h.isaway, h.awaymsg, h.isinvisible]

section
variable [Network] (libotr : Libotr) (respondSmp : Client → Ctx → Str → List OtrAction)

/-- What becomes of the terminal; nothing happens to a client that crashed. -/
def happens (t : Terminal) (a : Happening) : Except Fault Terminal :=
  if t.world.client.crash.isSome then .error .null
  else
    match a with
    | .payload o data => do
      let r ← snacDecode (bsflite libotr (errorCallback o)) t.world data (uint16 data.length)
      return { t with world := r.1 }
    | .line o inputbuf => return enters libotr respondSmp o t inputbuf
    | .key => return { t with world := endIdle t.world }
    | .idle elapsed => return { t with world := beginIdle t.world elapsed }

/-- A run of the client. -/
def runClient (t : Terminal) (as : List Happening) : Except Fault Terminal :=
  as.foldlM (happens libotr respondSmp) t

/-! ## a payload -/

omit [Network] in
/-- No answer brings an idle time or a message. -/
theorem replies_still (h : Imcomm) (data : List UInt8) : ∀ b ∈ replies h data, b.Still := by
  have hready : ∀ b ∈ readyBodies, b.Still := .of_all (by decide)
  have hgeneric (subtype : UInt16) : ∀ b ∈ genericReplies data subtype, b.Still := by
    have hrequests : ∀ b ∈ multireqBodies, b.Still := .of_all (by decide)
    rw [genericReplies]
    split
    · exact List.forall_mem_singleton.mpr ⟨rfl, rfl⟩
    · split
      · exact List.forall_mem_singleton.mpr ⟨rfl, rfl⟩
      · split
        · exact List.forall_mem_cons.mpr ⟨⟨rfl, rfl⟩, hrequests⟩
        · exact List.forall_mem_nil _
  have hlocation (subtype : UInt16) : ∀ b ∈ locationReplies h subtype, b.Still := by
    rw [locationReplies]
    split
    · exact List.forall_mem_cons.mpr ⟨⟨rfl, rfl⟩, List.forall_mem_singleton.mpr ⟨rfl, rfl⟩⟩
    · exact List.forall_mem_nil _
  have hicbm (subtype : UInt16) : ∀ b ∈ icbmReplies data subtype, b.Still := by
    rw [icbmReplies]
    split
    · exact List.forall_mem_singleton.mpr ⟨rfl, rfl⟩
    · exact List.forall_mem_nil _
  have hlogin : ∀ b ∈ loginReplies h data, b.Still := by
    rw [loginReplies]
    split
    · split
      · exact List.forall_mem_singleton.mpr ⟨rfl, rfl⟩
      · exact List.forall_mem_nil _
    · exact List.forall_mem_nil _
  simp only [replies]
  split
  · exact List.forall_mem_nil _
  split
  · exact hlogin
  split
  · exact hgeneric _
  split
  · exact hlocation _
  split
  · exact hicbm _
  split
  · split
    · exact List.forall_mem_nil _
    · exact hready
  · exact List.forall_mem_nil _

omit [Network] in
/-- **A payload**: the answers go out, and then what the callbacks send. -/
theorem Handled.follows {o : Outside} {w w' : World Client} {out : List SnacBody}
    (hf : w.handle.Flowing) (hsocket : w.handle.socket ≠ 0) (hstill : ∀ b ∈ out, b.Still)
    (h : Handled (bsflite libotr (errorCallback o)) Follows w out w') :
    ∃ more, FollowsWith w (out ++ more) w' := by
  cases h with
  | passive hfollows => exact hfollows hf hsocket
  | answer hs hfair hsent =>
    have hsent := hsent (hs.flowing hf)
    have hidle : ∀ b ∈ out, b.isIdle = false := fun b hb => (hstill b hb).idle
    refine ⟨[], ?_, ?_, fun h => ?_, ?_⟩
    · rw [List.append_nil]
      exact .of_sent hf hs hsent hfair (by rw [lastTold_of_idle hidle, hs.isidle])
    · obtain ⟨writes, rfl⟩ := hsent
      exact hs.isinvisible
    · obtain ⟨writes, rfl⟩ := hsent
      exact ⟨h.isaway.trans hs.isaway.symm, h.awaymsg.trans hs.awayMsg.symm, h.away⟩
    · rw [List.append_nil]
      exact .of_still rfl fun b hb => (hstill b hb).message
  | @ready h h' hs hconnected hsent =>
    have hflowing := hs.flowing hf
    obtain ⟨writes, rfl⟩ := hsent ⟨hflowing.accepting, hflowing.srvPause⟩
    have hready : Tracks w.handle readyBodies { h with
        connected := true
        link := { h.link with writes := writes
                              wire := h.link.wire ++ numberBytes h.seqnum h.snacreq readyBodies }
        seqnum := h.seqnum + UInt16.ofNat readyBodies.length
        snacreq := h.snacreq + UInt32.ofNat readyBodies.length } :=
      { flowing := ⟨hflowing.accepting, hflowing.srvPause⟩
        ischild := hs.ischild
        socket := hs.socket
        wire := by rw [← hs.link, ← hs.seqnum, ← hs.snacreq]
        seqnum := by rw [← hs.seqnum]
        snacreq := by rw [← hs.snacreq]
        connected := by rw [hconnected]; rfl
        isidle := hs.isidle.symm
        view := (ServerView.of_same hs).symm }
    obtain ⟨more, hmore⟩ := Follows.fire libotr o { w with handle := _ }
      (.error .statusConnected none) hready.flowing (by rw [hready.socket]; exact hsocket)
    have hfirst : FollowsWith w readyBodies { w with handle := _ } :=
      ⟨hready, hs.isinvisible, fun h =>
        ⟨h.isaway.trans hs.isaway.symm, h.awaymsg.trans hs.awayMsg.symm, h.away⟩,
        .of_still rfl fun b hb => (hstill b hb).message⟩
    exact ⟨more, hfirst.trans hmore⟩

/-- What goes out shows what is set and said, and so does the terminal. -/
structure Terminal.Goes (t : Terminal) (out : List SnacBody) (t' : Terminal) : Prop where
  tracks : Tracks t.world.handle out t'.world.handle
  shown : t.Shown → t'.Shown
  said : SaidIn t.world.client out t'.world.client

omit [Network] in
theorem Terminal.goes_of_follows {t : Terminal} {w : World Client} {out : List SnacBody}
    (h : FollowsWith t.world out w) : t.Goes out { t with world := w } :=
  ⟨h.tracks, fun hshown =>
    { toShowsAway := h.shows hshown.toShowsAway
      isinvisible := hshown.isinvisible.trans h.isinvisible.symm }, h.said⟩

omit [Network] in
theorem Terminal.Goes.refl {t : Terminal} (hf : t.world.handle.Flowing) : t.Goes [] t :=
  ⟨.refl hf, id, .of_still rfl (List.forall_mem_nil _)⟩

omit [Network] in
theorem Terminal.Goes.trans {t t' t'' : Terminal} {out out' : List SnacBody} (h1 : t.Goes out t')
    (h2 : t'.Goes out' t'') : t.Goes (out ++ out') t'' :=
  ⟨h1.tracks.trans h2.tracks, fun h => h2.shown (h1.shown h), h1.said.trans h2.said⟩

omit [Network] in
/-- **A line** is entered. -/
theorem enters_goes (o : Outside) {t : Terminal} (hf : t.world.handle.Flowing)
    (hsocket : t.world.handle.socket ≠ 0) (inputbuf : Str) :
    ∃ out, t.Goes out (enters libotr respondSmp o t inputbuf) := by
  have hclear (w : World Client) :
      Follows w (w.alive fun w => { w with client := { w.client with waiting := [] } }) :=
    Follows.kept.alive (.refl w) fun w => .of_client w _ rfl rfl rfl
  rw [enters]
  split
  · exact ⟨[], .refl hf⟩
  · split
    · -- the command that changes the visibility
      rw [inputSetInvisible]
      split
      · have htracks := (Setting.setInvisible (!t.isinvisible)).run_tracks hf hsocket
        obtain ⟨writes, heq⟩ := (Setting.setInvisible (!t.isinvisible)).run_sent t.world.handle
          ⟨hf.accepting, hf.srvPause⟩
        obtain ⟨more, hmore⟩ := hclear
          { t.world with handle := imcommSetInvisible t.world.handle (!t.isinvisible) }
          htracks.flowing (htracks.socket ▸ hsocket)
        have hset : ∀ h : Imcomm, h = (Setting.setInvisible (!t.isinvisible)).run t.world.handle →
            h.isaway = t.world.handle.isaway ∧ h.awayMsg = t.world.handle.awayMsg ∧
              h.isinvisible = !t.isinvisible := by
          intro h heq'
          rw [heq', heq]
          exact ⟨rfl, rfl, rfl⟩
        obtain ⟨hisaway, hmsg, hinv⟩ :=
          hset (imcommSetInvisible t.world.handle (!t.isinvisible)) rfl
        have hsaid : SaidIn t.world.client
            ((Setting.setInvisible (!t.isinvisible)).bodies t.world.handle) t.world.client :=
          .of_still rfl fun b hb => (Setting.bodies_still t.world.handle _ b hb).message
        refine ⟨_, htracks.trans hmore.tracks, fun h => ?_, hsaid.trans hmore.said⟩
        exact {
          toShowsAway := hmore.shows
            ⟨h.isaway.trans hisaway.symm, h.awaymsg.trans hmsg.symm, h.away⟩
          isinvisible := hinv.symm.trans hmore.isinvisible.symm }
      · obtain ⟨out, hout⟩ := ((Follows.kept.crashes t.world .null).trans (hclear _)) hf hsocket
        exact ⟨out, Terminal.goes_of_follows hout⟩
    · next callback arg _ _ =>
      obtain ⟨out, hout⟩ :=
        ((Follows.runCommand libotr respondSmp o t.world callback arg).trans (hclear _)) hf hsocket
      exact ⟨out, Terminal.goes_of_follows hout⟩
    · obtain ⟨out, hout⟩ := hclear t.world hf hsocket
      exact ⟨out, Terminal.goes_of_follows hout⟩

/-- **One step**: what goes out shows what the terminal shows, and the answer
to (02,03) tells all of it. -/
theorem happens_goes {t : Terminal} (hf : t.world.handle.Flowing)
    (hchild : t.world.handle.ischild = false) (hsocket : t.world.handle.socket ≠ 0)
    {a : Happening} (ha : a.Fits) :
    Ensures (happens libotr respondSmp t a) fun t' => ∃ out, t.Goes out t' ∧
      (a.isRights → ∀ v, out.foldl ServerView.hear v = .of t'.world.handle) := by
  unfold happens
  refine Ensures.ite (fun _ => Ensures.error) fun _ => ?_
  cases a with
  | payload o data =>
    refine (snacDecode_handled (Follows.passive libotr o) t.world hchild ha.1 ha.2).bind
      fun r hr => Ensures.pure ?_
    obtain ⟨more, hmore⟩ := hr.follows libotr hf hsocket (replies_still t.world.handle data)
    refine ⟨_, Terminal.goes_of_follows hmore, fun hrights v => ?_⟩
    have hview := hmore.tracks.view
    rw [replies_rights t.world.handle hrights, List.foldl_append,
      ServerView.hear_locationBodies] at hview
    rw [replies_rights t.world.handle hrights, List.foldl_append, ServerView.hear_locationBodies]
    exact hview
  | line o inputbuf =>
    obtain ⟨out, hout⟩ := enters_goes libotr respondSmp o hf hsocket inputbuf
    exact Ensures.pure ⟨out, hout, nofun⟩
  | key =>
    obtain ⟨out, hout⟩ := Follows.endIdle t.world hf hsocket
    exact Ensures.pure ⟨out, Terminal.goes_of_follows hout, nofun⟩
  | idle elapsed =>
    obtain ⟨out, hout⟩ := Follows.beginIdle t.world elapsed hf hsocket
    exact Ensures.pure ⟨out, Terminal.goes_of_follows hout, nofun⟩

/-- **The whole client**: in every run, what the library answers, what the
callbacks send and what the lines and the idle periods send is one stream of
SNACs that are numbered in the order they go out.  The server is told once at
most that the client is ready; the messages among them are those that the client
said, in order; the last idle time that it was told is that of the handle; and
the last profile, away message and visibility that it was told are those that
the prompt shows, if they were before or the server asked for them in the
run. -/
theorem client_told {t t' : Terminal} (hf : t.world.handle.Flowing)
    (hchild : t.world.handle.ischild = false) (hsocket : t.world.handle.socket ≠ 0)
    (hshown : t.Shown) {as : List Happening} (hfits : ∀ a ∈ as, a.Fits)
    (hrun : runClient libotr respondSmp t as = .ok t') {v : ServerView}
    (hv : v = t.view ∨ as.any Happening.isRights) :
    ∃ out, t'.world.handle.link.wire = t.world.handle.link.wire ++
        numberBytes t.world.handle.seqnum t.world.handle.snacreq out ∧
      t.world.handle.connected.toNat + out.countP SnacBody.isReady =
        t'.world.handle.connected.toNat ∧
      SaidIn t.world.client out t'.world.client ∧
      lastTold t.world.handle.isidle out = t'.world.handle.isidle ∧
      out.foldl ServerView.hear v = t'.view := by
  suffices h : ∃ out, t.Goes out t' ∧ out.foldl ServerView.hear v = .of t'.world.handle by
    obtain ⟨out, hgoes, hheard⟩ := h
    exact ⟨out, hgoes.tracks.wire, hgoes.tracks.connected.symm, hgoes.said,
      hgoes.tracks.isidle, hheard.trans (hgoes.shown hshown).view_eq.symm⟩
  rw [hshown.view_eq] at hv
  clear hshown
  induction as generalizing t v with
  | nil =>
    have heq : (.ok t : Except Fault Terminal) = .ok t' := hrun
    cases heq
    exact ⟨[], .refl hf, hv.resolve_right Bool.false_ne_true⟩
  | cons a as ih =>
    rw [runClient, List.foldlM_cons] at hrun
    obtain ⟨t₁, hstep, hrest⟩ := bind_eq_ok hrun
    obtain ⟨out, hgoes, hrights⟩ :=
      happens_goes libotr respondSmp hf hchild hsocket (hfits a List.mem_cons_self) t₁ hstep
    have htracks := hgoes.tracks
    have hlater : out.foldl ServerView.hear v = .of t₁.world.handle ∨
        as.any Happening.isRights := by
      rw [List.any_cons, Bool.or_eq_true, ← or_assoc] at hv
      refine hv.imp_left fun hv => ?_
      rcases hv with rfl | ha
      · exact htracks.view
      · exact hrights ha v
    obtain ⟨out', hgoes', hheard⟩ := ih htracks.flowing (htracks.ischild.trans hchild)
      (by rw [htracks.socket]; exact hsocket) (fun a ha => hfits a (List.mem_cons_of_mem _ ha))
      hrest hlater
    refine ⟨out ++ out', hgoes.trans hgoes', ?_⟩
    rw [List.foldl_append]
    exact hheard

end

end

/-- A terminal with a fresh handle, on a machine without files. -/
def freshTerminal : Terminal where
  world := ⟨{ imcommCreateHandle zeroBlock with socket := 3 }, startClient, []⟩
  isinvisible := false

/-- No keys and no files. -/
def emptyOutside : Outside := ⟨[], none, fun _ => none, fun _ => 0⟩

/-- The server's (02,03), "brb", and out of sight. -/
theorem client_told_brb :
    ∃ t', @runClient littleEndianHost refusingNetwork quietLibotr (fun _ _ _ => []) freshTerminal
        [.payload emptyOutside
          [0x00, 0x02, 0x00, 0x03, 0, 0, 0, 0, 0, 0, 0, 1, 0, 2, 4, 0, 0, 2, 0, 2, 0, 16],
          .line emptyOutside (ascii "g brb"), .line emptyOutside (ascii "v")] = .ok t' ∧
      t'.world.client.conn.awaymsg = some (ascii "brb") ∧ t'.isinvisible = true ∧
      ∃ out, t'.world.handle.link.wire = numberBytes 0x1000 0 out ∧
        out.foldl ServerView.hear ⟨⟨0, 0, []⟩, ⟨0, 0, []⟩⟩ =
          @Terminal.view littleEndianHost t' := by
  refine ⟨_, rfl, rfl, rfl, ?_⟩
  have hfits (line : String) (callback : InputCallback) (arg : Str)
      (hline : parseLine (ascii line) = some (callback, arg))
      (hquit : callback ≠ .inputQuit) (hreconnect : callback ≠ .inputReconnect) :
      (Happening.line emptyOutside (ascii line)).Fits := by
    intro command hcommand
    rw [hline] at hcommand
    cases hcommand
    exact ⟨hquit, hreconnect⟩
  obtain ⟨out, hwire, -, -, -, hheard⟩ := @client_told littleEndianHost refusingNetwork quietLibotr
    (fun _ _ _ => []) freshTerminal _ ⟨fun _ _ => rfl, rfl⟩ rfl (by decide)
    ⟨⟨rfl, rfl, rfl⟩, rfl⟩
    [.payload emptyOutside
      [0x00, 0x02, 0x00, 0x03, 0, 0, 0, 0, 0, 0, 0, 1, 0, 2, 4, 0, 0, 2, 0, 2, 0, 16],
      .line emptyOutside (ascii "g brb"), .line emptyOutside (ascii "v")]
    (List.forall_mem_cons.mpr
      ⟨by simp [Happening.Fits, AnswersLogin, wordAt, byteAt, ofBe16], List.forall_mem_cons.mpr
        ⟨hfits "g brb" .inputSetAway (ascii "brb") (by decide) (by decide) (by decide),
          List.forall_mem_singleton.mpr
            (hfits "v" .inputSetInvisible [] (by decide) (by decide) (by decide))⟩⟩)
    rfl ⟨⟨0, 0, []⟩, ⟨0, 0, []⟩⟩ (.inr (by decide))
  exact ⟨out, hwire, hheard⟩

end Bsflite
