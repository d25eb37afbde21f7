import Bsflite.Connections
import Bsflite.Replies

/-!
# Bsflite.Turns

The library's side of a session: the server talks, the application sends, and
the user sets something.

* `turn_answers` — what one turn puts on the wire.
* `session_stream` — a whole session is one stream of SNACs, with one (01,02)
  at most.
* `settings_told` — the last that the server was told is what is set.
-/

namespace Bsflite

/-! ## settings -/

/-- `imcomm_set_invisible` -/
def imcommSetInvisible [Host] (h : Imcomm) (inv : Bool) : Imcomm :=
  (snacSendCliUpdate { h with isinvisible := inv }).1

/-- What a user sets. -/
inductive Setting where
  | setProfile (profile : Str)
  | setAway (msg : Str)
  | setUnaway
  | setInvisible (inv : Bool)

namespace Setting

/-- The handle after it, before it is told. -/
def change (h : Imcomm) : Setting → Imcomm
  | setProfile profile => { h with profileStr := some profile }
  | setAway msg => { h with isaway := true, awayMsg := some msg }
  | setUnaway => if h.isaway then { h with isaway := false, awayMsg := none } else h
  | setInvisible inv => { h with isinvisible := inv }

variable [Host]

/-- What is told. -/
def bodies (h : Imcomm) : Setting → List SnacBody
  | setProfile profile =>
    if h.socket ≠ 0 then locationBodies (change h (.setProfile profile)) else []
  | setAway msg => if h.socket ≠ 0 then locationBodies (change h (.setAway msg)) else []
  | setUnaway => if h.isaway ∧ h.socket ≠ 0 then locationBodies (change h .setUnaway) else []
  | setInvisible inv => [cliUpdate inv]

/-- The call that sets it. -/
def run (h : Imcomm) : Setting → Imcomm
  | setProfile profile => Session.imcommSetProfile h profile
  | setAway msg => imcommSetAway h msg
  | setUnaway => imcommSetUnaway h
  | setInvisible inv => imcommSetInvisible h inv

omit [Host] in
theorem change_same (h : Imcomm) (s : Setting) : SameWire h (s.change h) := by
  cases s with
  | setUnaway =>
    rw [change]
    split <;> exact ⟨rfl, rfl, rfl, rfl, rfl, rfl, rfl, rfl⟩
  | _ => exact ⟨rfl, rfl, rfl, rfl, rfl, rfl, rfl, rfl⟩

theorem bodies_fair (h : Imcomm) (s : Setting) : ∀ b ∈ s.bodies h, b.Fair (s.change h) := by
  have hif (p : Prop) [Decidable p] (h : Imcomm) :
      ∀ b ∈ if p then locationBodies h else [], b.Fair h := by
    split
    · exact locationBodies_fair h
    · exact fun b hb => absurd hb List.not_mem_nil
  cases s with
  | setProfile profile => exact hif (h.socket ≠ 0) _
  | setAway msg => exact hif (h.socket ≠ 0) _
  | setUnaway => exact hif (h.isaway ∧ h.socket ≠ 0) _
  | setInvisible inv =>
    intro b hb
    rw [List.mem_singleton.mp hb]
    exact ⟨rfl, nofun, fun _ => rfl⟩

theorem run_sent (h : Imcomm) (s : Setting) : SentFrom (s.change h) (s.bodies h) (s.run h) := by
  have hif (p : Prop) [Decidable p] (h : Imcomm) : SentFrom h (if p then locationBodies h else [])
      (if p then (snacSetLocationInfo h).1 else h) := by
    split
    · exact setLocationInfo_sent h
    · exact fun _ => Sent.refl h
  cases s with
  | setProfile profile => exact hif (h.socket ≠ 0) { h with profileStr := some profile }
  | setAway msg => exact hif (h.socket ≠ 0) { h with isaway := true, awayMsg := some msg }
  | setUnaway =>
    cases haway : h.isaway with
    | true =>
      simpa [change, bodies, run, imcommSetUnaway, haway] using
        hif (h.socket ≠ 0) { h with isaway := false, awayMsg := none }
    | false =>
      have hsent : SentFrom h [] h := fun _ => Sent.refl h
      simpa [change, bodies, run, imcommSetUnaway, haway] using hsent
  | setInvisible inv => exact sendCliUpdate_sent { h with isinvisible := inv }

end Setting

/-! ## a session -/

/-- What happens to a handle: a payload arrives, the application sends, or the
user sets something. -/
inductive Turn where
  | payload (data : List UInt8)
  | send (s : SendCall)
  | setting (s : Setting)

namespace Turn

/-- A payload that fits into a frame and does not answer a login, a send that
fits and is none of the library's own, or a setting. -/
def Fits : Turn → Prop
  | payload data => data.length ≤ 65535 ∧ ¬ AnswersLogin data
  | send s => ∀ c ∈ s.calls, c.body.data.length ≤ 65525 ∧ c.body.isOwn = false
  | setting _ => True

/-- A list of buddies: SNAC (13,06). -/
def isList : Turn → Bool
  | payload data => 4 < data.length ∧ wordAt data 0 = 0x0013 ∧ wordAt data 2 = 0x0006
  | send _ => false
  | setting _ => false

section
variable [Host] [Network]

/-- What happens then; the client writes down what it is told. -/
def run (w : World (List Callback)) : Turn → Except Fault (World (List Callback))
  | payload data => do
    let r ← snacDecode recorder w data (uint16 data.length)
    return r.1
  | send s => return { w with handle := s.run w.handle }
  | setting s => return { w with handle := s.run w.handle }

/-- What goes out then. -/
def bodies (h : Imcomm) : Turn → List SnacBody
  | payload data => replies h data
  | send s => s.bodies h.isidle
  | setting s => s.bodies h

end

end Turn

section
variable [Host] [Network]

/-- A session. -/
def session (w : World (List Callback)) (ts : List Turn) : Except Fault (World (List Callback)) :=
  ts.foldlM Turn.run w

/-- What goes out in it, in order. -/
def sessionBodies (w : World (List Callback)) : List Turn → List SnacBody
  | [] => []
  | t :: ts => t.bodies w.handle ++
    match t.run w with
    | .ok w' => sessionBodies w' ts
    | .error _ => []

omit [Network] in
theorem loginReplies_ready (h : Imcomm) (data : List UInt8) :
    (loginReplies h data).countP SnacBody.isReady = 0 := by
  unfold loginReplies
  split
  · split <;> rfl
  · rfl

omit [Network] in
theorem genericReplies_ready (data : List UInt8) (subtype : UInt16) :
    (genericReplies data subtype).countP SnacBody.isReady = 0 := by
  rw [genericReplies]
  split
  · rfl
  · split
    · rfl
    · split
      · rfl
      · rfl

omit [Network] in
/-- The list is answered by the batch that makes the client ready. -/
theorem replies_list (h : Imcomm) {data : List UInt8} (hlist : (Turn.payload data).isList) :
    replies h data = if h.connected then [] else readyBodies := by
  obtain ⟨hlen, hfamily, hsubtype⟩ : 4 < data.length ∧ wordAt data 0 = 0x0013 ∧
      wordAt data 2 = 0x0006 := by simpa [Turn.isList] using hlist
  simp only [replies, hfamily, hsubtype]
  rw [if_neg (by omega), if_neg (by decide), if_neg (by decide), if_neg (by decide),
    if_neg (by decide), if_pos (by decide)]

omit [Network] in
/-- No other answer says so. -/
theorem replies_ready (h : Imcomm) {data : List UInt8} (hlist : ¬ (Turn.payload data).isList) :
    (replies h data).countP SnacBody.isReady = 0 := by
  simp only [replies]
  split
  · rfl
  next hlen =>
  split
  · exact loginReplies_ready h data
  split
  · exact genericReplies_ready data _
  split
  · rw [locationReplies]
    split <;> rfl
  split
  · rw [icbmReplies]
    split <;> rfl
  split
  · next hitems => exact absurd (by simpa [Turn.isList] using ⟨by omega, hitems⟩) hlist
  · rfl

/-- `w'` is `w` after the SNACs `out` went out, each of which that says that
the client is ready was told to it. -/
structure Answers (w : World (List Callback)) (out : List SnacBody) (w' : World (List Callback)) :
    Prop where
  flowing : w'.handle.Flowing
  ischild : w'.handle.ischild = w.handle.ischild
  wire : w'.handle.link.wire =
    w.handle.link.wire ++ numberBytes w.handle.seqnum w.handle.snacreq out
  seqnum : w'.handle.seqnum = w.handle.seqnum + UInt16.ofNat out.length
  snacreq : w'.handle.snacreq = w.handle.snacreq + UInt32.ofNat out.length
  connected : w'.handle.connected.toNat = w.handle.connected.toNat + out.countP SnacBody.isReady
  told : w'.client.countP Callback.isConnected =
    w.client.countP Callback.isConnected + out.countP SnacBody.isReady

namespace Answers

variable {w w' w'' : World (List Callback)} {out out' : List SnacBody}

omit [Host] [Network] in
theorem refl (hf : w.handle.Flowing) : Answers w [] w :=
  ⟨hf, rfl, by simp, by simp, by simp, rfl, rfl⟩

omit [Host] [Network] in
theorem trans (h1 : Answers w out w') (h2 : Answers w' out' w'') : Answers w (out ++ out') w'' where
  flowing := h2.flowing
  ischild := h2.ischild.trans h1.ischild
  wire := by
    rw [h2.wire, h1.wire, h1.seqnum, h1.snacreq, numberBytes_append, List.append_assoc]
  seqnum := by rw [h2.seqnum, h1.seqnum, List.length_append, UInt16.ofNat_add, UInt16.add_assoc]
  snacreq := by rw [h2.snacreq, h1.snacreq, List.length_append, UInt32.ofNat_add, UInt32.add_assoc]
  connected := by rw [h2.connected, h1.connected, List.countP_append, Nat.add_assoc]
  told := by rw [h2.told, h1.told, List.countP_append, Nat.add_assoc]

omit [Host] [Network] in
/-- Sends from a handle that goes by the same fields. -/
theorem of_sent {h h' : Imcomm} {idle : Bool} (hf : w.handle.Flowing) (hs : SameWire w.handle h)
    (hsent : Sent h out idle h') (hready : out.countP SnacBody.isReady = 0) :
    Answers w out { w with handle := h' } := by
  have hflowing := hs.flowing hf
  have hflowing' : h'.Flowing :=
    ⟨hsent.accepting hflowing.accepting, hsent.srvPause.trans hflowing.srvPause⟩
  obtain ⟨writes, rfl⟩ := hsent
  exact {
    flowing := hflowing'
    ischild := hs.ischild
    wire := by rw [← hs.link, ← hs.seqnum, ← hs.snacreq]
    seqnum := by rw [← hs.seqnum]
    snacreq := by rw [← hs.snacreq]
    connected := by rw [hready, Nat.add_zero, ← hs.connected]
    told := by rw [hready, Nat.add_zero] }

end Answers

omit [Network] in
theorem countP_fair {h : Imcomm} {out : List SnacBody} (hout : ∀ b ∈ out, b.Fair h) :
    out.countP SnacBody.isReady = 0 :=
  List.countP_eq_zero.mpr fun b hb => by
    rw [(hout b hb).ready]
    decide

omit [Host] [Network] in
/-- The client that writes down its calls leaves the handle alone. -/
theorem recorder_passive : Passive recorder fun w w' =>
    SameUser w.handle w'.handle ∧
      w'.client.countP Callback.isConnected = w.client.countP Callback.isConnected where
  refl w := ⟨.refl _, rfl⟩
  trans h1 h2 := ⟨h1.1.trans h2.1, h2.2.trans h1.2⟩
  handle w h hs := ⟨hs, rfl⟩
  children w cs := ⟨.refl _, rfl⟩
  fire w c hc := ⟨.refl _, by simp [hc]⟩

omit [Network] in
/-- A payload that was handled. -/
theorem Handled.answers {w w' : World (List Callback)} {out : List SnacBody}
    (hf : w.handle.Flowing) (h : Handled recorder (fun w w' => SameUser w.handle w'.handle ∧
      w'.client.countP Callback.isConnected = w.client.countP Callback.isConnected) w out w') :
    Answers w out w' := by
  cases h with
  | passive hR =>
    obtain ⟨hs, htold⟩ := hR
    exact {
      flowing := hs.flowing hf
      ischild := hs.ischild
      wire := by rw [hs.link, numberBytes_nil, List.append_nil]
      seqnum := by rw [hs.seqnum]; simp
      snacreq := by rw [hs.snacreq]; simp
      connected := by rw [hs.connected]; rfl
      told := htold }
  | answer hs hfair hsent =>
    exact .of_sent hf hs.toSameWire (hsent (hs.flowing hf)) (countP_fair hfair)
  | ready hs hconnected hsent =>
    have hflowing := hs.flowing hf
    obtain ⟨writes, heq⟩ := hsent ⟨hflowing.accepting, hflowing.srvPause⟩
    subst heq
    exact {
      flowing := ⟨hflowing.accepting, hflowing.srvPause⟩
      ischild := hs.ischild
      wire := by
        rw [← hs.link, ← hs.seqnum, ← hs.snacreq]
        rfl
      seqnum := by
        rw [← hs.seqnum]
        rfl
      snacreq := by
        rw [← hs.snacreq]
        rfl
      connected := by
        rw [hconnected]
        rfl
      told := by
        simp only [fire_recorder, List.countP_append]
        rfl }

omit [Network] in
/-- What an application sends. -/
theorem send_fair {s : SendCall} {idle : Bool} (h : Imcomm)
    (hs : ∀ c ∈ s.calls, c.body.isOwn = false) : ∀ b ∈ s.bodies idle, b.Fair h := by
  intro b hb
  refine SnacBody.fair_of_other h ?_
  rw [SendCall.bodies] at hb
  rcases List.mem_append.mp hb with hb | hb
  · obtain ⟨c, hc, rfl⟩ := List.mem_map.mp hb
    exact hs c hc
  · have hun : b = unidle := by
      rw [unidleIf] at hb
      grind
    rw [hun]
    rfl

/-- **A turn** puts what goes out then on the wire. -/
theorem turn_answers {w : World (List Callback)} (hf : w.handle.Flowing)
    (hchild : w.handle.ischild = false) {t : Turn} (ht : t.Fits) :
    Ensures (t.run w) (Answers w (t.bodies w.handle)) := by
  cases t with
  | payload data =>
    exact (snacDecode_handled recorder_passive w hchild ht.1 ht.2).bind fun r hr =>
      Ensures.pure (hr.answers hf)
  | send s =>
    exact Ensures.pure (.of_sent hf (SameUser.refl _).toSameWire
      (s.run_sent w.handle hf.accepting hf.srvPause fun c hc => (ht c hc).1)
      (countP_fair (send_fair w.handle fun c hc => (ht c hc).2)))
  | setting s =>
    have hsame := s.change_same w.handle
    exact Ensures.pure (.of_sent hf hsame (s.run_sent w.handle (hsame.flowing hf))
      (countP_fair (s.bodies_fair w.handle)))

omit [Network] in
/-- The list that comes first is the one that makes the client ready. -/
theorem turn_ready (h : Imcomm) {t : Turn} (ht : t.Fits) :
    (t.bodies h).countP SnacBody.isReady = if h.connected then 0 else t.isList.toNat := by
  cases t with
  | payload data =>
    by_cases hlist : (Turn.payload data).isList
    · rw [Turn.bodies, replies_list h hlist, hlist]
      split <;> rfl
    · rw [Turn.bodies, replies_ready h hlist, Bool.eq_false_iff.mpr hlist]
      split <;> rfl
  | send s =>
    rw [Turn.bodies, countP_fair (send_fair h fun c hc => (ht c hc).2)]
    split <;> rfl
  | setting s =>
    rw [Turn.bodies, countP_fair (s.bodies_fair h)]
    split <;> rfl

/-- **A session**: the library answers each payload by what `replies` says and
puts its answers and the sends of the application on one stream, as SNACs that
are numbered in this order.  The SNAC that says that the client is ready goes
out with the first list of buddies, and the client is told then; neither
happens twice. -/
theorem session_stream {w w' : World (List Callback)} (hf : w.handle.Flowing)
    (hchild : w.handle.ischild = false) {ts : List Turn} (hfits : ∀ t ∈ ts, t.Fits)
    (hrun : session w ts = .ok w') :
    w'.handle.link.wire = w.handle.link.wire ++
        numberBytes w.handle.seqnum w.handle.snacreq (sessionBodies w ts) ∧
      (sessionBodies w ts).countP SnacBody.isReady =
        (if w.handle.connected then 0 else (ts.any Turn.isList).toNat) ∧
      w'.client.countP Callback.isConnected = w.client.countP Callback.isConnected +
        (if w.handle.connected then 0 else (ts.any Turn.isList).toNat) := by
  suffices h : Answers w (sessionBodies w ts) w' ∧
      (sessionBodies w ts).countP SnacBody.isReady =
        if w.handle.connected then 0 else (ts.any Turn.isList).toNat by
    exact ⟨h.1.wire, h.2, by rw [h.1.told, h.2]⟩
  induction ts generalizing w with
  | nil =>
    have heq : (.ok w : Except Fault (World (List Callback))) = .ok w' := hrun
    cases heq
    refine ⟨.refl hf, ?_⟩
    split <;> rfl
  | cons t ts ih =>
    rw [session, List.foldlM_cons] at hrun
    obtain ⟨w₁, hturn, hrest⟩ := bind_eq_ok hrun
    have ht := hfits t List.mem_cons_self
    have hanswers := turn_answers hf hchild ht w₁ hturn
    obtain ⟨hanswers', hready'⟩ := ih hanswers.flowing (hanswers.ischild.trans hchild)
      (fun t ht => hfits t (List.mem_cons_of_mem _ ht)) hrest
    rw [sessionBodies, hturn]
    refine ⟨hanswers.trans hanswers', ?_⟩
    have hready := turn_ready w.handle ht
    have hconnected := hanswers.connected
    rw [hready] at hconnected
    rw [List.countP_append, hready', hready, List.any_cons]
    generalize w.handle.connected = before at hconnected ⊢
    generalize w₁.handle.connected = after at hconnected ⊢
    generalize t.isList = first at hconnected ⊢
    generalize ts.any Turn.isList = later
    revert before after first later
    decide

end

/-! ## what the server was told -/

/-- The last location and the last status that a server was told. -/
structure ServerView where
  location : SnacBody
  status : SnacBody

namespace ServerView

/-- The server hears a SNAC. -/
def hear (v : ServerView) (b : SnacBody) : ServerView where
  location := if b.isLocation then b else v.location
  status := if b.isStatus then b else v.status

section
variable [Host]

/-- The view that shows what is set. -/
def of (h : Imcomm) : ServerView := ⟨locationBody h, cliUpdate h.isinvisible⟩

/-- SNACs that are so change nothing. -/
theorem hear_fair {h : Imcomm} {out : List SnacBody} (hout : ∀ b ∈ out, b.Fair h) :
    out.foldl hear (of h) = of h := by
  induction out with
  | nil => rfl
  | cons b out ih =>
    have hb := hout b List.mem_cons_self
    have hsame : (of h).hear b = of h := by
      rw [hear, of, ServerView.mk.injEq]
      constructor
      · split
        · next hlocation => exact hb.location hlocation
        · rfl
      · split
        · next hstatus => exact hb.status hstatus
        · rfl
    rw [List.foldl_cons, hsame]
    exact ih fun b hb => hout b (List.mem_cons_of_mem _ hb)

/-- The location is told together with the status. -/
theorem hear_locationBodies (v : ServerView) (h : Imcomm) :
    (locationBodies h).foldl hear v = of h := rfl

theorem of_same {h h' : Imcomm} (hs : SameUser h h') : of h' = of h := by
  simp only [of, locationBody, locationInfoPacket, hs.isinvisible, hs.profileStr, hs.awayMsg]

theorem of_sent {h h' : Imcomm} {out : List SnacBody} {idle : Bool} (hs : Sent h out idle h') :
    of h' = of h := by
  obtain ⟨writes, rfl⟩ := hs
  rfl

end

end ServerView

/-- The server's answer about the location rights: SNAC (02,03). -/
def Turn.isRights : Turn → Bool
  | payload data => 4 < data.length ∧ wordAt data 0 = 0x0002 ∧ wordAt data 2 = 0x0003
  | send _ => false
  | setting _ => false

section
variable [Host] [Network]

omit [Network] in
/-- They are answered by the location. -/
theorem replies_rights (h : Imcomm) {data : List UInt8} (hrights : (Turn.payload data).isRights) :
    replies h data = locationBodies h := by
  obtain ⟨hlen, hfamily, hsubtype⟩ : 4 < data.length ∧ wordAt data 0 = 0x0002 ∧
      wordAt data 2 = 0x0003 := by simpa [Turn.isRights] using hrights
  simp only [replies, hfamily, hsubtype]
  rw [if_neg (by omega), if_neg (by decide), if_neg (by decide), if_pos trivial]
  rfl

omit [Network] in
/-- A payload leaves the settings, and what is answered shows them. -/
theorem Handled.heard {w w' : World (List Callback)} {out : List SnacBody}
    (hf : w.handle.Flowing) (h : Handled recorder (fun w w' => SameUser w.handle w'.handle ∧
      w'.client.countP Callback.isConnected = w.client.countP Callback.isConnected) w out w') :
    out.foldl ServerView.hear (.of w.handle) = .of w.handle ∧
      ServerView.of w'.handle = .of w.handle ∧ w'.handle.socket = w.handle.socket := by
  cases h with
  | passive hR => exact ⟨rfl, ServerView.of_same hR.1, hR.1.socket⟩
  | answer hs hfair hsent =>
    have hsent := hsent (hs.flowing hf)
    refine ⟨ServerView.hear_fair hfair,
      (ServerView.of_sent hsent).trans (ServerView.of_same hs), ?_⟩
    obtain ⟨writes, rfl⟩ := hsent
    exact hs.socket
  | @ready h _ hs hconnected hsent =>
    have hflowing := hs.flowing hf
    have hsent := hsent ⟨hflowing.accepting, hflowing.srvPause⟩
    have hview : ServerView.of { h with connected := true } = .of h := rfl
    refine ⟨rfl, ((ServerView.of_sent hsent).trans hview).trans (ServerView.of_same hs), ?_⟩
    obtain ⟨writes, rfl⟩ := hsent
    exact hs.socket

omit [Network] in
/-- A setting is told. -/
theorem Setting.heard {h : Imcomm} (hf : h.Flowing) (hsocket : h.socket ≠ 0) (s : Setting) :
    (s.bodies h).foldl ServerView.hear (.of h) = .of (s.run h) := by
  have hsent := s.run_sent h ((s.change_same h).flowing hf)
  rw [ServerView.of_sent hsent]
  cases s with
  | setProfile profile =>
    rw [Setting.bodies, if_pos hsocket]
    rfl
  | setAway msg =>
    rw [Setting.bodies, if_pos hsocket]
    rfl
  | setUnaway =>
    by_cases haway : h.isaway = true
    · rw [Setting.bodies, if_pos ⟨haway, hsocket⟩]
      rfl
    · rw [Setting.bodies, if_neg fun h => haway h.1, Setting.change, if_neg haway]
      rfl
  | setInvisible inv => rfl

/-- A turn keeps the server's view right; the answer to (02,03) makes it right. -/
theorem turn_heard {w : World (List Callback)} (hf : w.handle.Flowing)
    (hchild : w.handle.ischild = false) (hsocket : w.handle.socket ≠ 0) {t : Turn} (ht : t.Fits)
    {v : ServerView} (hv : v = .of w.handle ∨ t.isRights) :
    Ensures (t.run w) fun w' => (t.bodies w.handle).foldl ServerView.hear v = .of w'.handle ∧
      w'.handle.socket = w.handle.socket := by
  cases t with
  | payload data =>
    refine (snacDecode_handled recorder_passive w hchild ht.1 ht.2).bind fun r hr =>
      Ensures.pure ?_
    obtain ⟨hheard, hsame, hsame'⟩ := hr.heard hf
    refine ⟨?_, hsame'⟩
    rw [hsame]
    rcases hv with rfl | hrights
    · exact hheard
    · rw [Turn.bodies, replies_rights w.handle hrights, ServerView.hear_locationBodies]
  | send s =>
    obtain rfl : v = .of w.handle := hv.resolve_right Bool.false_ne_true
    have hsent := s.run_sent w.handle hf.accepting hf.srvPause fun c hc => (ht c hc).1
    refine Ensures.pure ⟨?_, ?_⟩
    · rw [ServerView.of_sent hsent]
      exact ServerView.hear_fair (send_fair w.handle fun c hc => (ht c hc).2)
    · obtain ⟨writes, heq⟩ := hsent
      rw [heq]
  | setting s =>
    obtain rfl : v = .of w.handle := hv.resolve_right Bool.false_ne_true
    have hsame := s.change_same w.handle
    refine Ensures.pure ⟨s.heard hf hsocket, ?_⟩
    obtain ⟨writes, heq⟩ := s.run_sent w.handle (hsame.flowing hf)
    rw [heq]
    exact hsame.socket

/-- **The settings**: the profile, the away message and the visibility that a
server was told last are the ones that are set, if they were before the session
or the server asked for them in it. -/
theorem settings_told {w w' : World (List Callback)} (hf : w.handle.Flowing)
    (hchild : w.handle.ischild = false) (hsocket : w.handle.socket ≠ 0) {ts : List Turn}
    (hfits : ∀ t ∈ ts, t.Fits) (hrun : session w ts = .ok w') {v : ServerView}
    (hv : v = .of w.handle ∨ ts.any Turn.isRights) :
    ∃ out, w'.handle.link.wire =
        w.handle.link.wire ++ numberBytes w.handle.seqnum w.handle.snacreq out ∧
      out.foldl ServerView.hear v = .of w'.handle := by
  suffices h : Answers w (sessionBodies w ts) w' ∧
      (sessionBodies w ts).foldl ServerView.hear v = .of w'.handle by
    exact ⟨_, h.1.wire, h.2⟩
  induction ts generalizing w v with
  | nil =>
    have heq : (.ok w : Except Fault (World (List Callback))) = .ok w' := hrun
    cases heq
    exact ⟨.refl hf, hv.resolve_right Bool.false_ne_true⟩
  | cons t ts ih =>
    rw [session, List.foldlM_cons] at hrun
    obtain ⟨w₁, hturn, hrest⟩ := bind_eq_ok hrun
    have ht := hfits t List.mem_cons_self
    have hanswers := turn_answers hf hchild ht w₁ hturn
    have hsocket' := (turn_heard hf hchild hsocket ht (.inl rfl) w₁ hturn).2
    have hlater : (t.bodies w.handle).foldl ServerView.hear v = .of w₁.handle ∨
        ts.any Turn.isRights := by
      rw [List.any_cons, Bool.or_eq_true, ← or_assoc] at hv
      exact hv.imp_left fun hv => (turn_heard hf hchild hsocket ht hv w₁ hturn).1
    obtain ⟨hanswers', hheard'⟩ := ih hanswers.flowing (hanswers.ischild.trans hchild)
      (by rwa [hsocket']) (fun t ht => hfits t (List.mem_cons_of_mem _ ht)) hrest hlater
    rw [sessionBodies, hturn]
    refine ⟨hanswers.trans hanswers', ?_⟩
    rw [List.foldl_append]
    exact hheard'

end

/-- An empty list for a fresh handle. -/
theorem session_stream_list :
    ∃ w', @session littleEndianHost refusingNetwork
        ⟨imcommCreateHandle zeroBlock, [], []⟩
        [.payload [0x00, 0x13, 0x00, 0x06, 0, 0, 0, 0, 0, 0, 0, 0, 0]] = .ok w' ∧
      w'.handle.link.wire = numberBytes 0x1000 0 readyBodies ∧
      w'.client.countP Callback.isConnected = 1 := by
  refine ⟨_, rfl, ?_⟩
  obtain ⟨hwire, -, htold⟩ := @session_stream littleEndianHost refusingNetwork
    ⟨imcommCreateHandle zeroBlock, [], []⟩ _ ⟨fun _ _ => rfl, rfl⟩ rfl
    [.payload [0x00, 0x13, 0x00, 0x06, 0, 0, 0, 0, 0, 0, 0, 0, 0]]
    (by simp [Turn.Fits, AnswersLogin, wordAt, byteAt, ofBe16]) rfl
  exact ⟨hwire, htold⟩

/-- "brb" on a fresh handle with a socket, after the server's (02,03). -/
theorem settings_told_brb :
    ∃ w', @session littleEndianHost refusingNetwork
        ⟨{ imcommCreateHandle zeroBlock with socket := 3 }, [], []⟩
        [.payload [0x00, 0x02, 0x00, 0x03, 0, 0, 0, 0, 0, 0, 0, 1, 0, 2, 4, 0, 0, 2, 0, 2, 0, 16],
          .setting (.setAway (ascii "brb"))] = .ok w' ∧
      ∃ out, w'.handle.link.wire = numberBytes 0x1000 0 out ∧
        out.foldl ServerView.hear ⟨⟨0, 0, []⟩, ⟨0, 0, []⟩⟩ =
          @ServerView.of littleEndianHost w'.handle := by
  refine ⟨_, rfl, ?_⟩
  exact @settings_told littleEndianHost refusingNetwork
    ⟨{ imcommCreateHandle zeroBlock with socket := 3 }, [], []⟩ _ ⟨fun _ _ => rfl, rfl⟩ rfl
    (by decide)
    [.payload [0x00, 0x02, 0x00, 0x03, 0, 0, 0, 0, 0, 0, 0, 1, 0, 2, 4, 0, 0, 2, 0, 2, 0, 16],
      .setting (.setAway (ascii "brb"))]
    (by simp [Turn.Fits, AnswersLogin, wordAt, byteAt, ofBe16]) rfl ⟨⟨0, 0, []⟩, ⟨0, 0, []⟩⟩
    (.inr (by decide))

end Bsflite
