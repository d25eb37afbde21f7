import Bsflite.Waiting

/-!
# Bsflite.MainLoop

The loop of `main`, as far as it goes about idle times.  The client shows
itself idle after `idle_rep_time` seconds without a key; the library tells the
server from 600 seconds on, and ends an idle period by itself at a message.
The frames that `imcomm_select` sends to keep a connection alive are left out:
they tell nothing, and end no idle period.

* `arrivals_tells` — what `imcomm_select` brings.
* `key_step`, `detectIdle_step` — the two halves of an iteration.
* `iterate_step` — an iteration keeps what is shown and what was told together
  exactly when nothing is injected into an idle period, and an idle period is
  only shown when it is long enough to be told.
* `idle_in_step` — the same for every run.
-/

namespace Bsflite

/-- A difference of times converted to `uint32_t`. -/
def uint32 (i : Int) : UInt32 := UInt32.ofNat (i % 4294967296).toNat

/-! ## the loop -/

/-- What `imcomm_select` may bring. -/
inductive Arrival where
  | incoming (who : Str) (automessage : Bool) (message : Str)
  | signon (who : Str)
  | signoff (who : Str)

/-- What an iteration gets: what arrives, whether `imcomm_select` is
interrupted, what `read` returns and what the key makes the client do, and
what `time(NULL)` tells at the key, at the test and at the report. -/
structure Iteration where
  arrivals : List Arrival
  interrupted : Bool
  input : Option (Int × Option Command)
  keyTime : Int
  testTime : Int
  reportTime : Int

/-- The variables of the loop; `reportIdle` and `idleRepTime` are fields of
`conn`. -/
structure MainLoop where
  world : World Client
  reportIdle : Bool
  idleRepTime : Int
  lastKeystrokeTime : Int
  nchr : Int

/-- A key ends an idle period. -/
def endIdle [Host] (w : World Client) : World Client :=
  if w.client.conn.isidle then
    let w := if w.client.conn.conn then { w with handle := imcommSetIdleTime w.handle 0 } else w
    w.setConn { w.client.conn with isidle := false }
  else w

/-- An idle period begins. -/
def beginIdle [Host] (w : World Client) (elapsed : Int) : World Client :=
  let w := w.setConn { w.client.conn with isidle := true }
  if w.client.conn.conn then { w with handle := imcommSetIdleTime w.handle (uint32 elapsed) } else w

section
variable [Host] (libotr : Libotr)

/-- What the client does with it; one that crashed does nothing. -/
def arrive (w : World Client) (a : Arrival) : World Client :=
  w.alive fun w =>
    match a with
    | .incoming who automessage message => getmessage libotr w who automessage message
    | .signon who => buddyOnline libotr w who
    | .signoff who => buddyOffline libotr w who

namespace MainLoop

/-- Go on unless the client crashed. -/
def alive (s : MainLoop) (f : MainLoop → MainLoop) : MainLoop :=
  if s.world.client.crash.isSome then s else f s

/-- The part that reads a key. -/
def readKey (it : Iteration) (s : MainLoop) : MainLoop :=
  match it.input with
  | none => s
  | some (nchr, enter) =>
    let s := { s with nchr := nchr }
    if nchr = 1 then
      let s :=
        if s.reportIdle then { s with lastKeystrokeTime := it.keyTime, world := endIdle s.world }
        else s
      match enter with
      | some command => { s with world := handleAway libotr s.world (.enter command) }
      | none => s
    else s

/-- The part that detects an idle period. -/
def detectIdle (it : Iteration) (s : MainLoop) : MainLoop :=
  if s.reportIdle ∧ s.nchr = 1 then
    if s.world.client.conn.isidle then s
    else if s.idleRepTime < it.testTime - s.lastKeystrokeTime then
      { s with world := beginIdle s.world (it.reportTime - s.lastKeystrokeTime) }
    else s
  else s

/-- An iteration. -/
def iterate (s : MainLoop) (it : Iteration) : MainLoop :=
  let s := { s with world := it.arrivals.foldl (arrive libotr) s.world }
  if it.interrupted then s
  else (s.alive (readKey libotr it)).alive (detectIdle it)

omit [Host] in
theorem alive_eq {s : MainLoop} {f : MainLoop → MainLoop}
    (h : (s.alive f).world.client.crash = none) :
    s.world.client.crash = none ∧ s.alive f = f s := by
  rw [alive] at h ⊢
  split at h
  · next hcrashed =>
    rw [h] at hcrashed
    cases hcrashed
  · next hcrashed => exact ⟨by simpa using hcrashed, if_neg hcrashed⟩

/-- A run of iterations. -/
def run (s : MainLoop) (its : List Iteration) : MainLoop := its.foldl (iterate libotr) s

end MainLoop

/-! ## what arrives -/

/-- Does libotr inject something when this arrives? -/
def Arrival.injects (w : World Client) : Arrival → Bool
  | .incoming who _ message => libotr.injects w who message
  | .signon _ => false
  | .signoff who => libotr.injectsOff w who

/-- Does libotr inject something while all this arrives? -/
def arrivalsInject : World Client → List Arrival → Bool
  | _, [] => false
  | w, a :: arrivals => a.injects libotr w || arrivalsInject (arrive libotr w a) arrivals

theorem awaitAnswer_tells (w : World Client) (who : Str) (automessage : Bool) :
    Tells w (awaitAnswer w who automessage) false := by
  have hwait : Tells w
      { w with client := { w.client with waiting := w.client.waiting ++ [who] } } false :=
    ⟨rfl, rfl, id, told_same w⟩
  rw [awaitAnswer]
  split
  · exact (Plain.refl w).toTells
  · simp only
    split
    · split
      · exact hwait.trans_silent (imSend_tells _ _ _ true)
      · exact hwait.trans_silent (crashes_plain _ .null).toTells
    · exact hwait

/-- **A message**: an automatic response does not end an idle period. -/
theorem getmessage_tells (w : World Client) (who : Str) (automessage : Bool) (message : Str) :
    Tells w (getmessage libotr w who automessage message) (libotr.injects w who message) := by
  rw [getmessage_eq]
  refine (receiveOtr_plain w libotr who message).toTells.trans_silent (alive_tells fun _ => ?_)
  split
  · exact (Plain.refl _).toTells
  · have hlast : Plain (receiveOtr libotr w who message).1
        (setLastsn (receiveOtr libotr w who message).1 (simplifySn who)) false := by
      rw [setLastsn]
      split
      · exact Plain.refl _
      · exact setConn_plain _ rfl rfl
    exact (hlast.toTells.trans_silent (awaitAnswer_tells _ _ _)).trans_silent
      (alive_tells fun _ => logEvent_tells _ _ _ _)

theorem arrive_tells (w : World Client) (a : Arrival) :
    Tells w (arrive libotr w a) (a.injects libotr w) := by
  rw [arrive, World.alive]
  split
  · next hcrashed =>
    exact ((Plain.refl w).of_crashed hcrashed).toTells
  · cases a with
    | incoming who automessage message => exact getmessage_tells libotr w who automessage message
    | signon who => exact (buddyOnline_plain w libotr who).toTells
    | signoff who => exact (buddyOffline_plain w libotr who).toTells

/-- **What arrives**, by induction on the arrivals. -/
theorem arrivals_tells (w : World Client) (arrivals : List Arrival) :
    Tells w (arrivals.foldl (arrive libotr) w) (arrivalsInject libotr w arrivals) := by
  induction arrivals generalizing w with
  | nil => exact (Plain.refl w).toTells
  | cons a arrivals ih => exact (arrive_tells libotr w a).trans (ih _)

/-- An Enter. -/
theorem enter_tells (w : World Client) (command : Command) :
    ∃ spoke, Tells w (handleAway libotr w (.enter command)) spoke := by
  obtain ⟨⟨spoke, htells⟩, -⟩ := parseInput_keeps libotr w command
  rw [handleAway, World.alive]
  split
  · exact ⟨false, (Plain.refl w).toTells⟩
  · refine ⟨spoke, htells.trans_silent (alive_tells fun _ => ?_)⟩
    exact ⟨rfl, rfl, id, told_same _⟩

/-! ## the two flags -/

/-- What stays through a session: idle times are reported, the client is
connected, and the flag of the handle is what the server was told since `h`. -/
structure MainLoop.Connected (h : Imcomm) (s : MainLoop) : Prop where
  reportIdle : s.reportIdle = true
  conn : s.world.client.conn.conn = true
  told : Told h s.world.handle.isidle s.world.handle

omit [Host] in
/-- A step of the client. -/
theorem MainLoop.Connected.tells {h : Imcomm} {s : MainLoop} {w : World Client} {spoke : Bool}
    (hs : s.Connected h) (ht : Tells s.world w spoke) :
    MainLoop.Connected h { s with world := w } := by
  obtain ⟨reset, -, htold⟩ := ht.told
  have hhandle := htold hs.told.flowing
  refine ⟨hs.reportIdle, ht.conn.trans hs.conn, ?_⟩
  rw [hhandle.isidle]
  exact hs.told.trans hhandle

/-- A key. -/
theorem endIdle_eq {w : World Client} (hconn : w.client.conn.conn = true) (hf : w.handle.Flowing)
    (hle : w.client.conn.isidle = false → w.handle.isidle = false) :
    (endIdle w).client.conn = { w.client.conn with isidle := false } ∧
      (endIdle w).client.crash = w.client.crash ∧ Told w.handle false (endIdle w).handle := by
  rw [endIdle]
  split
  · have htold : Told w.handle false (imcommSetIdleTime w.handle 0) := by
      simpa using imcommSetIdleTime_told hf 0
    simp only [hconn]
    exact ⟨rfl, rfl, htold⟩
  · next hidle =>
    have hisidle : w.client.conn.isidle = false := by simpa using hidle
    exact ⟨by rw [← hisidle], rfl, hle hisidle ▸ Told.refl hf⟩

/-- The report of an idle period. -/
theorem beginIdle_eq {w : World Client} (hconn : w.client.conn.conn = true) (hf : w.handle.Flowing)
    (hidle : w.handle.isidle = false) (elapsed : Int) :
    (beginIdle w elapsed).client.conn = { w.client.conn with isidle := true } ∧
      (beginIdle w elapsed).client.crash = w.client.crash ∧
      Told w.handle (decide (600 < uint32 elapsed)) (beginIdle w elapsed).handle := by
  have htold := imcommSetIdleTime_told hf (uint32 elapsed)
  rw [hidle, Bool.false_and, Bool.or_false] at htold
  have hset : beginIdle w elapsed = { w with
      handle := imcommSetIdleTime w.handle (uint32 elapsed)
      client := { w.client with conn := { w.client.conn with isidle := true } } } := by
    rw [beginIdle]
    simp only [World.setConn, hconn, if_true]
  rw [hset]
  exact ⟨rfl, rfl, htold⟩

omit [Host] in
/-- What the handle's flag becomes. -/
theorem Tells.handle_isidle {w w' : World Client} {spoke : Bool} (h : Tells w w' spoke)
    (hf : w.handle.Flowing) (hrunning : w'.client.crash = none) :
    w'.handle.isidle = (w.handle.isidle && !spoke) := by
  obtain ⟨reset, hreset, htold⟩ := h.told
  rw [(htold hf).isidle, hreset hrunning]

/-! ## an iteration -/

/-- Is a key read? -/
def Iteration.isKey (it : Iteration) : Bool :=
  match it.input with
  | some (nchr, _) => decide (nchr = 1)
  | none => false

/-- The variable `nchr` after `read`. -/
def Iteration.nchrAfter (it : Iteration) (nchr : Int) : Int :=
  match it.input with
  | some (nchr, _) => nchr
  | none => nchr

omit [Host] in
theorem nchrAfter_of_isKey {it : Iteration} (hkey : it.isKey = true) (nchr : Int) :
    it.nchrAfter nchr = 1 := by
  rw [Iteration.isKey] at hkey
  rw [Iteration.nchrAfter]
  cases hinput : it.input with
  | none => simp [hinput] at hkey
  | some input => simpa [hinput] using hkey

/-- The time of the last key. -/
def Iteration.lastKey (it : Iteration) (last : Int) : Int := if it.isKey then it.keyTime else last

/-- What an iteration must not do: inject into an idle period that no key ends,
and show an idle period that is too short to be told. -/
structure MainLoop.Meets (libotr : Libotr) (s : MainLoop) (it : Iteration) : Prop where
  quiet : s.world.client.conn.isidle = true → it.interrupted = true ∨ it.isKey = false →
    arrivalsInject libotr s.world it.arrivals = false
  long : it.interrupted = false → it.nchrAfter s.nchr = 1 →
    it.isKey = true ∨ s.world.client.conn.isidle = false →
    s.idleRepTime < it.testTime - it.lastKey s.lastKeystrokeTime →
    600 < uint32 (it.reportTime - it.lastKey s.lastKeystrokeTime)

/-- `read` got no key. -/
theorem readKey_none {it : Iteration} (hkey : it.isKey = false) (s : MainLoop) :
    s.readKey libotr it = { s with nchr := it.nchrAfter s.nchr } := by
  rw [MainLoop.readKey, Iteration.nchrAfter]
  rw [Iteration.isKey] at hkey
  cases hinput : it.input with
  | none => rfl
  | some input =>
      have hnchr : input.1 ≠ 1 := by simpa [hinput] using hkey
      simp only [if_neg hnchr]

/-- A key ends an idle period, and may be an Enter. -/
theorem readKey_some {it : Iteration} (hkey : it.isKey = true) {s : MainLoop}
    (hreport : s.reportIdle = true) :
    ∃ w spoke, s.readKey libotr it =
        { s with world := w, lastKeystrokeTime := it.keyTime, nchr := it.nchrAfter s.nchr } ∧
      Tells (endIdle s.world) w spoke := by
  rw [MainLoop.readKey, Iteration.nchrAfter]
  rw [Iteration.isKey] at hkey
  cases hinput : it.input with
  | none => simp [hinput] at hkey
  | some input =>
      obtain ⟨nchr, enter⟩ := input
      have hnchr : nchr = 1 := by simpa [hinput] using hkey
      simp only [if_pos hnchr, if_pos hreport]
      cases enter with
      | none => exact ⟨_, false, rfl, (Plain.refl _).toTells⟩
      | some command =>
          obtain ⟨spoke, htells⟩ := enter_tells libotr (endIdle s.world) command
          exact ⟨_, spoke, rfl, htells⟩

/-- The part that detects an idle period, of a client that is not idle. -/
theorem detectIdle_step {h : Imcomm} {s : MainLoop} (hs : s.Connected h) (it : Iteration)
    (hclient : s.world.client.conn.isidle = false) (hhandle : s.world.handle.isidle = false) :
    MainLoop.Connected h (s.detectIdle it) ∧
      ((s.detectIdle it).world.client.conn.isidle = (s.detectIdle it).world.handle.isidle ↔
        (s.nchr = 1 → s.idleRepTime < it.testTime - s.lastKeystrokeTime →
          600 < uint32 (it.reportTime - s.lastKeystrokeTime))) := by
  rw [MainLoop.detectIdle]
  split
  · next hnchr =>
    rw [if_neg (by simp [hclient])]
    split
    · next htime =>
      obtain ⟨hconn, -, htold⟩ := beginIdle_eq hs.conn hs.told.flowing hhandle
        (it.reportTime - s.lastKeystrokeTime)
      refine ⟨⟨hs.reportIdle, by rw [hconn]; exact hs.conn, ?_⟩, ?_⟩
      · rw [htold.isidle]
        exact hs.told.trans htold
      · rw [hconn, htold.isidle, eq_comm, decide_eq_true_iff]
        exact ⟨fun hlong _ _ => hlong, fun hlong => hlong hnchr.2 htime⟩
    · next htime =>
      rw [hclient, hhandle]
      exact ⟨hs, iff_of_true rfl fun _ h => absurd h htime⟩
  · next hnchr =>
    rw [hclient, hhandle]
    exact ⟨hs, iff_of_true rfl fun h _ => absurd ⟨hs.reportIdle, h⟩ hnchr⟩

/-- An idle client is not detected. -/
theorem detectIdle_idle {s : MainLoop} (it : Iteration)
    (hidle : s.world.client.conn.isidle = true) : s.detectIdle it = s := by
  simp [MainLoop.detectIdle, hidle]

/-- The rest of an iteration with a key. -/
theorem key_step {h : Imcomm} {s : MainLoop} (hs : s.Connected h) {it : Iteration}
    (hkey : it.isKey = true)
    (hle : s.world.client.conn.isidle = false → s.world.handle.isidle = false) :
    MainLoop.Connected h ((s.readKey libotr it).detectIdle it) ∧
      (((s.readKey libotr it).detectIdle it).world.client.conn.isidle =
          ((s.readKey libotr it).detectIdle it).world.handle.isidle ↔
        (s.idleRepTime < it.testTime - it.keyTime →
          600 < uint32 (it.reportTime - it.keyTime))) := by
  obtain ⟨hconn, -, htold⟩ := endIdle_eq hs.conn hs.told.flowing hle
  obtain ⟨w, spoke, hread, htells⟩ := readKey_some libotr hkey hs.reportIdle
  have hended : MainLoop.Connected h { s with world := endIdle s.world } := by
    refine ⟨hs.reportIdle, by rw [hconn]; exact hs.conn, ?_⟩
    rw [htold.isidle]
    exact hs.told.trans htold
  have hpressed := hended.tells htells
  have hclient : w.client.conn.isidle = false := by rw [htells.isidle, hconn]
  have hhandle : w.handle.isidle = false := by
    obtain ⟨reset, -, htold'⟩ := htells.told
    rw [(htold' htold.flowing).isidle, htold.isidle, Bool.false_and]
  obtain ⟨hdetected, hiff⟩ := detectIdle_step (s := s.readKey libotr it) (h := h)
    (by rw [hread]; exact ⟨hpressed.reportIdle, hpressed.conn, hpressed.told⟩) it
    (by rw [hread]; exact hclient) (by rw [hread]; exact hhandle)
  refine ⟨hdetected, hiff.trans ?_⟩
  rw [hread]
  exact ⟨fun himp => himp (nchrAfter_of_isKey hkey s.nchr), fun himp _ => himp⟩

/-- The rest of an iteration without a key. -/
theorem noKey_step {h : Imcomm} {s : MainLoop} (hs : s.Connected h) {it : Iteration}
    (hkey : it.isKey = false)
    (hle : s.world.client.conn.isidle = false → s.world.handle.isidle = false) :
    MainLoop.Connected h ((s.readKey libotr it).detectIdle it) ∧
      (((s.readKey libotr it).detectIdle it).world.client.conn.isidle =
          ((s.readKey libotr it).detectIdle it).world.handle.isidle ↔
        s.world.client.conn.isidle = s.world.handle.isidle ∧
          (it.nchrAfter s.nchr = 1 → s.world.client.conn.isidle = false →
            s.idleRepTime < it.testTime - s.lastKeystrokeTime →
              600 < uint32 (it.reportTime - s.lastKeystrokeTime))) := by
  have hread : MainLoop.Connected h { s with nchr := it.nchrAfter s.nchr } :=
    ⟨hs.reportIdle, hs.conn, hs.told⟩
  rw [readKey_none libotr hkey]
  cases hidle : s.world.client.conn.isidle with
  | true =>
      rw [detectIdle_idle it (by exact hidle)]
      refine ⟨hread, ?_⟩
      simp [hidle]
  | false =>
      obtain ⟨hdetected, hiff⟩ := detectIdle_step hread it hidle (hle hidle)
      refine ⟨hdetected, hiff.trans ?_⟩
      simp [hle hidle]

/-- Of an iteration that a packet interrupts only what arrives counts. -/
theorem meets_interrupted {s : MainLoop} {it : Iteration} (hinterrupted : it.interrupted = true) :
    s.Meets libotr it ↔ (s.world.client.conn.isidle = true →
      arrivalsInject libotr s.world it.arrivals = false) := by
  refine ⟨fun hmeets hidle => hmeets.quiet hidle (Or.inl hinterrupted),
    fun hquiet => ⟨fun hidle _ => hquiet hidle, fun h => ?_⟩⟩
  rw [hinterrupted] at h
  cases h

/-- With a key only the times count. -/
theorem meets_key {s : MainLoop} {it : Iteration} (hinterrupted : it.interrupted = false)
    (hkey : it.isKey = true) :
    s.Meets libotr it ↔
      (s.idleRepTime < it.testTime - it.keyTime → 600 < uint32 (it.reportTime - it.keyTime)) := by
  have hlast : it.lastKey s.lastKeystrokeTime = it.keyTime := by simp [Iteration.lastKey, hkey]
  refine ⟨fun hmeets => ?_, fun hlong => ⟨fun _ h => ?_, fun _ _ _ => ?_⟩⟩
  · rw [← hlast]
    exact hmeets.long hinterrupted (nchrAfter_of_isKey hkey s.nchr) (Or.inl hkey)
  · simp [hinterrupted, hkey] at h
  · rw [hlast]
    exact hlong

theorem meets_noKey {s : MainLoop} {it : Iteration} (hinterrupted : it.interrupted = false)
    (hkey : it.isKey = false) :
    s.Meets libotr it ↔
      (s.world.client.conn.isidle = true →
        arrivalsInject libotr s.world it.arrivals = false) ∧
      (it.nchrAfter s.nchr = 1 → s.world.client.conn.isidle = false →
        s.idleRepTime < it.testTime - s.lastKeystrokeTime →
          600 < uint32 (it.reportTime - s.lastKeystrokeTime)) := by
  have hlast : it.lastKey s.lastKeystrokeTime = s.lastKeystrokeTime := by
    simp [Iteration.lastKey, hkey]
  refine ⟨fun hmeets => ⟨fun hidle => hmeets.quiet hidle (Or.inr hkey), fun hnchr hidle => ?_⟩,
    fun ⟨hquiet, hlong⟩ => ⟨fun hidle _ => hquiet hidle, fun _ hnchr h => ?_⟩⟩
  · rw [← hlast]
    exact hmeets.long hinterrupted hnchr (Or.inr hidle)
  · rw [hlast]
    exact hlong hnchr (h.resolve_left (by simp [hkey]))

/-- **An iteration** that the client survives, of a client that shows what
the server was told. -/
theorem iterate_step {h : Imcomm} {s : MainLoop} (hs : s.Connected h) (it : Iteration)
    (hagree : s.world.client.conn.isidle = s.world.handle.isidle)
    (hrunning : (s.iterate libotr it).world.client.crash = none) :
    MainLoop.Connected h (s.iterate libotr it) ∧
      ((s.iterate libotr it).world.client.conn.isidle = (s.iterate libotr it).world.handle.isidle ↔
        s.Meets libotr it) := by
  have harrive := arrivals_tells libotr s.world it.arrivals
  have harrived := hs.tells harrive
  rw [MainLoop.iterate] at hrunning ⊢
  generalize it.arrivals.foldl (arrive libotr) s.world = w at harrive harrived hrunning ⊢
  have hbefore : w.client.crash = none := by
    split at hrunning
    · exact hrunning
    · exact (MainLoop.alive_eq (MainLoop.alive_eq hrunning).1).1
  -- what arrives keeps the client's flag, and clears the library's if libotr injects
  have hhandle := harrive.handle_isidle hs.told.flowing hbefore
  rw [← hagree] at hhandle
  have hquiet : w.client.conn.isidle = w.handle.isidle ↔
      (s.world.client.conn.isidle = true → arrivalsInject libotr s.world it.arrivals = false) := by
    rw [harrive.isidle, hhandle]
    cases s.world.client.conn.isidle <;> simp
  have hle : w.client.conn.isidle = false → w.handle.isidle = false := by
    rw [harrive.isidle, hhandle]
    intro hidle
    rw [hidle, Bool.false_and]
  split at hrunning
  · next hinterrupted =>
    rw [if_pos hinterrupted]
    exact ⟨harrived, hquiet.trans (meets_interrupted libotr hinterrupted).symm⟩
  · next hinterrupted =>
    obtain ⟨hread, hdetect⟩ := MainLoop.alive_eq hrunning
    obtain ⟨-, hreads⟩ := MainLoop.alive_eq hread
    rw [if_neg hinterrupted, hdetect, hreads]
    rw [Bool.not_eq_true] at hinterrupted
    cases hkey : it.isKey with
    | true =>
        obtain ⟨hconnected, hiff⟩ := key_step libotr harrived hkey hle
        exact ⟨hconnected, hiff.trans (meets_key (s := s) libotr hinterrupted hkey).symm⟩
    | false =>
        obtain ⟨hconnected, hiff⟩ := noKey_step libotr harrived hkey hle
        refine ⟨hconnected,
          hiff.trans (Iff.trans ?_ (meets_noKey (s := s) libotr hinterrupted hkey).symm)⟩
        refine and_congr hquiet ?_
        rw [harrive.isidle]

/-! ## runs -/

/-- What is shown is what the server was told since `h`; a client that crashed
shows nothing. -/
def MainLoop.Agrees (h : Imcomm) (s : MainLoop) : Prop :=
  s.world.client.crash = none →
    s.world.client.conn.isidle = s.world.handle.isidle ∧
      ∃ out, s.world.handle.link.wire = h.link.wire ++ numberBytes h.seqnum h.snacreq out ∧
        s.world.client.conn.isidle = lastTold h.isidle out

/-- Every iteration of a run that the client survives meets the condition. -/
def MainLoop.AllMeet (libotr : Libotr) : MainLoop → List Iteration → Prop
  | _, [] => True
  | s, it :: its =>
    (s.iterate libotr it).world.client.crash = none →
      s.Meets libotr it ∧ AllMeet libotr (s.iterate libotr it) its

omit [Host] in
theorem MainLoop.Connected.agrees_iff {h : Imcomm} {s : MainLoop} (hs : s.Connected h) :
    s.Agrees h ↔ (s.world.client.crash = none →
      s.world.client.conn.isidle = s.world.handle.isidle) := by
  obtain ⟨out, hwire, -, -, htold⟩ := hs.told.wire
  exact ⟨fun hagrees hrunning => (hagrees hrunning).1, fun hagree hrunning =>
    ⟨hagree hrunning, out, hwire, (hagree hrunning).trans htold.symm⟩⟩

/-- A client that crashed does not come back. -/
theorem run_crashed {s : MainLoop} (hcrashed : s.world.client.crash.isSome = true)
    (its : List Iteration) : (s.run libotr its).world.client.crash.isSome = true := by
  induction its generalizing s with
  | nil => exact hcrashed
  | cons it its ih =>
      apply ih
      have harrived := (arrivals_tells libotr s.world it.arrivals).crashed hcrashed
      rw [MainLoop.iterate]
      split
      · exact harrived
      · simp only [MainLoop.alive, harrived, if_true]

/-- A run from a connected state, by induction on the iterations. -/
theorem run_agrees_iff {h : Imcomm} {s : MainLoop} (hs : s.Connected h)
    (hagree : s.world.client.conn.isidle = s.world.handle.isidle) (its : List Iteration) :
    (∀ before, before <+: its → (s.run libotr before).Agrees h) ↔ s.AllMeet libotr its := by
  have hnow : s.Agrees h := hs.agrees_iff.mpr fun _ => hagree
  induction its generalizing s with
  | nil =>
      refine iff_of_true (fun before hbefore => ?_) trivial
      rw [List.prefix_nil.mp hbefore]
      exact hnow
  | cons it its ih =>
      have hsplit : (∀ before, before <+: it :: its → (s.run libotr before).Agrees h) ↔
          ∀ before, before <+: its → ((s.iterate libotr it).run libotr before).Agrees h := by
        refine ⟨fun hall before hbefore => hall (it :: before) ?_, fun hall before hbefore => ?_⟩
        · exact (List.prefix_cons_inj it).mpr hbefore
        · rcases List.prefix_cons_iff.mp hbefore with rfl | ⟨before, rfl, hrest⟩
          · exact hnow
          · exact hall before hrest
      rw [hsplit, MainLoop.AllMeet]
      by_cases hrunning : (s.iterate libotr it).world.client.crash = none
      · obtain ⟨hconnected, hiff⟩ := iterate_step libotr hs it hagree hrunning
        refine ⟨fun hall _ => ?_, fun hmeets => ?_⟩
        · have hagree' := (hall [] List.nil_prefix hrunning).1
          exact ⟨hiff.mp hagree',
            (ih hconnected hagree' (hconnected.agrees_iff.mpr fun _ => hagree')).mp hall⟩
        · have hagree' := hiff.mpr (hmeets hrunning).1
          exact (ih hconnected hagree' (hconnected.agrees_iff.mpr fun _ => hagree')).mpr
            (hmeets hrunning).2
      · refine iff_of_true (fun before _ hrun => ?_) fun h => absurd h hrunning
        have hcrashed := run_crashed libotr (Option.isSome_iff_ne_none.mpr hrunning) before
        rw [hrun] at hcrashed
        cases hcrashed

/-- **What is shown is what the server was told**, after every iteration of a
run on a connected session whose sends succeed, exactly when no iteration
injects into an idle period that no key ends in it, and none shows an idle
period of at most 600 seconds. -/
theorem idle_in_step {s : MainLoop} (hreport : s.reportIdle = true)
    (hconn : s.world.client.conn.conn = true) (haccepting : s.world.handle.link.Accepting)
    (hpause : s.world.handle.srvPause = false) (hshown : s.world.client.conn.isidle = false)
    (htold : s.world.handle.isidle = false) (its : List Iteration) :
    (∀ before, before <+: its → (s.run libotr before).Agrees s.world.handle) ↔
      s.AllMeet libotr its :=
  run_agrees_iff libotr ⟨hreport, hconn, Told.refl ⟨haccepting, hpause⟩⟩
    (hshown.trans htold.symm) its

end

/-! ## Alice leaves the keyboard -/

/-- Alice, connected, with her last key at time 0. -/
def quietLoop (idleRepTime : Int) : MainLoop where
  world := { handle := imcommCreateHandle zeroBlock, client := startClient, children := [] }
  reportIdle := true
  idleRepTime := idleRepTime
  lastKeystrokeTime := 0
  nchr := 1

/-- Nothing arrives and no key is read until some time. -/
def noKeyUntil (time : Int) : Iteration where
  arrivals := []
  interrupted := false
  input := none
  keyTime := 0
  testTime := time
  reportTime := time

/-- With the default limit the server is told. -/
theorem idle_in_step_default :
    (@MainLoop.run littleEndianHost quietLibotr (quietLoop 600)
      [noKeyUntil 600, noKeyUntil 601]).world.client.conn.isidle = true ∧
    ∀ before, before <+: [noKeyUntil 600, noKeyUntil 601] →
      MainLoop.Agrees (quietLoop 600).world.handle
        (@MainLoop.run littleEndianHost quietLibotr (quietLoop 600) before) := by
  refine ⟨by decide +kernel, ?_⟩
  let _ : Host := littleEndianHost
  have hnot : (quietLoop 600).Meets quietLibotr (noKeyUntil 600) :=
    ⟨fun _ _ => rfl, fun _ _ _ h => absurd h (by decide)⟩
  have hlong : ((quietLoop 600).iterate quietLibotr (noKeyUntil 600)).Meets quietLibotr
      (noKeyUntil 601) := ⟨fun _ _ => rfl, fun _ _ _ _ => by decide⟩
  exact (@idle_in_step littleEndianHost quietLibotr (quietLoop 600) rfl rfl (fun _ _ => rfl) rfl rfl
    rfl _).mpr fun _ => ⟨hnot, fun _ => ⟨hlong, trivial⟩⟩

/-- With a limit of five minutes the prompt shows an idle period that the
server is not told about. -/
theorem idle_not_told :
    ¬ ∀ (libotr : Libotr) (s : MainLoop), s.reportIdle = true → 1 ≤ s.idleRepTime →
      s.world.client.conn.conn = true → s.world.handle.link.Accepting →
      s.world.handle.srvPause = false → s.world.client.conn.isidle = false →
      s.world.handle.isidle = false → ∀ its before : List Iteration, before <+: its →
        MainLoop.Agrees s.world.handle (@MainLoop.run littleEndianHost libotr s before) := by
  intro hclaim
  have hagrees :=
    hclaim quietLibotr (quietLoop 300) rfl (by decide) rfl (fun _ _ => rfl) rfl rfl rfl
      [noKeyUntil 301] [noKeyUntil 301] (List.prefix_refl _)
  obtain ⟨hsame, -⟩ := hagrees (by decide +kernel)
  exact absurd hsame (by decide +kernel)

/-- A libotr that answers every message by itself. -/
def answeringLibotr : Libotr where
  receiving := fun _ sn _ => ⟨[.inject sn (ascii "?OTR:AAIK")], true, none⟩
  sending := fun _ _ _ => ⟨[], false, none⟩
  disconnect := fun _ _ => []
  contextFind := fun _ _ => none

/-- What libotr answers to Bob ends the idle period for the server only. -/
example :
    let s := @MainLoop.run littleEndianHost answeringLibotr
      { quietLoop 600 with world := awayFromBob }
      [noKeyUntil 601, { noKeyUntil 602 with
        arrivals := [.incoming (ascii "bob") false (ascii "?OTR:AAIC")] }]
    s.world.client.conn.isidle = true ∧ s.world.handle.isidle = false := by
  decide +kernel

end Bsflite
