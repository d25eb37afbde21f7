import Bsflite.Sends

/-!
# Bsflite.Alternate

The idle notifications of a handle over a run of `imcomm_set_idle_time`,
`flap_send` and `flap_sendMulti`.

* `IdleOp.run_puts` — one step: what goes out, and the flag behind it.
* `idleRun_puts` — a run of steps.
* `idle_alternates` — the notifications alternate, and the flag is what the
  last one said.
-/

namespace Bsflite

/-! ## alternating -/

/-- The numbers are more than 600 and 0 in turn; the flag tells which of the
two came last. -/
def Alternates : Bool → List UInt32 → Prop
  | _, [] => True
  | false, secs :: rest => 600 < secs ∧ Alternates true rest
  | true, secs :: rest => secs = 0 ∧ Alternates false rest

/-- The flag behind a list of numbers. -/
def idleAfter (idle : Bool) (secs : List UInt32) : Bool :=
  (secs.getLast?.map fun s => decide (600 < s)).getD idle

theorem idleAfter_cons (idle : Bool) (s : UInt32) (secs : List UInt32) :
    idleAfter idle (s :: secs) = idleAfter (decide (600 < s)) secs := by
  rw [idleAfter, List.getLast?_cons, idleAfter]
  cases secs.getLast? <;> rfl

theorem idleAfter_append (idle : Bool) (secs secs' : List UInt32) :
    idleAfter idle (secs ++ secs') = idleAfter (idleAfter idle secs) secs' := by
  induction secs generalizing idle with
  | nil => rfl
  | cons s secs ih => rw [List.cons_append, idleAfter_cons, idleAfter_cons, ih]

theorem Alternates.append {idle : Bool} {secs secs' : List UInt32} (h : Alternates idle secs)
    (h' : Alternates (idleAfter idle secs) secs') : Alternates idle (secs ++ secs') := by
  induction secs generalizing idle with
  | nil => exact h'
  | cons s secs ih =>
      rw [idleAfter_cons] at h'
      cases idle with
      | false =>
          rw [decide_eq_true h.1] at h'
          exact ⟨h.1, ih h.2 h'⟩
      | true =>
          rw [h.1] at h'
          exact ⟨h.1, ih h.2 h'⟩

/-! ## what goes out -/

/-- A frame that a caller gave to a sender, or a notification of
`imcomm_set_idle_time`. -/
inductive Out where
  | call (p : MultiPacket)
  | idle (secs : UInt32)
deriving DecidableEq, Repr

/-- The frames of the callers. -/
def Out.called : Out → Option MultiPacket
  | call p => some p
  | idle _ => none

/-- The notifications. -/
def Out.secs : Out → Option UInt32
  | call _ => none
  | idle s => some s

theorem secs_call (ps : List MultiPacket) : (ps.map Out.call).filterMap Out.secs = [] := by
  rw [List.filterMap_map]
  exact List.filterMap_none _

/-- The frames on the wire; the notifications take the request ids. -/
def outFrames (reqid : UInt32) : List Out → List MultiPacket
  | [] => []
  | .call p :: outs => p :: outFrames reqid outs
  | .idle s :: outs => idleFrame reqid s :: outFrames (reqid + 1) outs

theorem outFrames_append (reqid : UInt32) (outs outs' : List Out) :
    outFrames reqid (outs ++ outs') = outFrames reqid outs ++
      outFrames (reqid + UInt32.ofNat (outs.filterMap Out.secs).length) outs' := by
  induction outs generalizing reqid with
  | nil => simp [outFrames]
  | cons o outs ih =>
      cases o with
      | call p => rw [List.cons_append, outFrames, ih]; rfl
      | idle s =>
          have hr : reqid + 1 + UInt32.ofNat (outs.filterMap Out.secs).length =
              reqid + UInt32.ofNat ((outs.filterMap Out.secs).length + 1) := by
            rw [UInt32.ofNat_add, UInt32.add_assoc, UInt32.add_comm 1]
            rfl
          rw [List.cons_append, outFrames, ih, hr]
          rfl

/-- The data of a frame that carries a SNAC (01,11). -/
def idleData (p : MultiPacket) : Option (List UInt8) :=
  if p.channel = 0x02 then
    (parseSnac p.packet).bind fun s =>
      if s.family = 0x0001 ∧ s.subtype = 0x0011 then some s.data else none
  else none

theorem idleData_idleFrame (reqid secs : UInt32) :
    idleData (idleFrame reqid secs) = some (be32 secs) := by
  simp [idleData, idleFrame]

/-- When no caller sends a SNAC (01,11) of its own, those on the wire are the
notifications. -/
theorem filterMap_idleData (reqid : UInt32) {outs : List Out}
    (h : ∀ p ∈ outs.filterMap Out.called, idleData p = none) :
    (outFrames reqid outs).filterMap idleData = (outs.filterMap Out.secs).map be32 := by
  induction outs generalizing reqid with
  | nil => rfl
  | cons o outs ih =>
      cases o with
      | call p =>
          have hp : idleData p = none := h p (by simp [Out.called])
          rw [outFrames, List.filterMap_cons_none hp]
          exact ih reqid fun q hq => h q (List.mem_cons_of_mem p hq)
      | idle s =>
          rw [outFrames, List.filterMap_cons_some (idleData_idleFrame reqid s), ih (reqid + 1) h]
          rfl

/-- `h'` is `h` after `outs` went out. -/
structure Puts (h : Imcomm) (outs : List Out) (h' : Imcomm) : Prop where
  took : Took h (outFrames h.snacreq outs) h'
  snacreq : h'.snacreq = h.snacreq + UInt32.ofNat (outs.filterMap Out.secs).length
  srvPause : h'.srvPause = h.srvPause

theorem Puts.refl (h : Imcomm) : Puts h [] h := ⟨Took.refl h, by simp, rfl⟩

theorem Puts.trans {h h' h'' : Imcomm} {outs outs' : List Out} (h1 : Puts h outs h')
    (h2 : Puts h' outs' h'') : Puts h (outs ++ outs') h'' := by
  refine ⟨?_, ?_, h2.srvPause.trans h1.srvPause⟩
  · rw [outFrames_append]
    exact h1.took.trans (h1.snacreq ▸ h2.took)
  · rw [h2.snacreq, h1.snacreq, List.filterMap_append, List.length_append, UInt32.ofNat_add,
      UInt32.add_assoc]

theorem Puts.accepting {h h' : Imcomm} {outs : List Out} (hs : Puts h outs h')
    (ha : h.link.Accepting) : h'.link.Accepting := by
  intro n k
  rw [hs.took.result]
  exact ha n k

/-! ## one step -/

/-- A call of `imcomm_set_idle_time`, or of a sender. -/
inductive IdleOp where
  | setIdle (secs : UInt32)
  | call (c : FlapCall)
deriving DecidableEq, Repr

namespace IdleOp

/-- The frames that the caller gives to the step. -/
def frames : IdleOp → List MultiPacket
  | setIdle _ => []
  | call c => c.frames

/-- The notification of the step on a handle that is idle or not: nothing is
said of 1 to 600 seconds, and no state is told twice. -/
def notice (idle : Bool) : IdleOp → List UInt32
  | setIdle secs => if (600 < secs ∧ idle = false) ∨ (secs = 0 ∧ idle = true) then [secs] else []
  | call c => if c.updateidle = 1 ∧ idle = true then [0] else []

/-- What goes out. -/
def outs (idle : Bool) (op : IdleOp) : List Out :=
  op.frames.map Out.call ++ (op.notice idle).map Out.idle

theorem called_outs (idle : Bool) (op : IdleOp) :
    (op.outs idle).filterMap Out.called = op.frames := by
  have hcall : (op.frames.map Out.call).filterMap Out.called = op.frames := by
    rw [List.filterMap_map]
    exact List.filterMap_some
  have hidle : ((op.notice idle).map Out.idle).filterMap Out.called = [] := by
    rw [List.filterMap_map]
    exact List.filterMap_none _
  rw [outs, List.filterMap_append, hcall, hidle, List.append_nil]

theorem secs_outs (idle : Bool) (op : IdleOp) :
    (op.outs idle).filterMap Out.secs = op.notice idle := by
  have hidle : ((op.notice idle).map Out.idle).filterMap Out.secs = op.notice idle := by
    rw [List.filterMap_map]
    exact List.filterMap_some
  rw [outs, List.filterMap_append, secs_call, hidle, List.nil_append]

/-- A notification is the other one. -/
theorem alternates_notice (idle : Bool) (op : IdleOp) : Alternates idle (op.notice idle) := by
  cases op with
  | setIdle secs =>
      rw [notice]
      split
      · next h =>
        cases idle with
        | false => exact ⟨by simpa using h, trivial⟩
        | true => exact ⟨by simpa using h, trivial⟩
      · trivial
  | call c =>
      rw [notice]
      split
      · next h =>
        rw [h.2]
        exact ⟨rfl, trivial⟩
      · trivial

/-- The idle reset of a send is `imcomm_set_idle_time(handle, 0)`. -/
theorem notice_call (c : FlapCall) (idle : Bool) :
    (call c).notice idle = if c.updateidle = 1 then (setIdle 0).notice idle else [] := by
  have hshort : ¬ (600 : UInt32) < 0 := by decide
  by_cases hu : c.updateidle = 1 <;> simp [notice, hu, hshort]

theorem notice_setIdle (h : Imcomm) (secs : UInt32) :
    (setIdle secs).notice h.isidle = if idleReported h secs then [secs] else [] := rfl

/-- A send that updates the idle time leaves the idle state. -/
theorem idleAfter_call {c : FlapCall} (hu : c.updateidle = 1) (idle : Bool) :
    idleAfter idle ((call c).notice idle) = false := by
  cases idle <;> simp [notice, hu, idleAfter]

section
variable [Host]

/-- Make the step. -/
def run (h : Imcomm) : IdleOp → Imcomm
  | setIdle secs => imcommSetIdleTime h secs
  | call c => (c.run h).1

end

end IdleOp

section
variable [Host]

omit [Host] in
theorem Link.Accepting.wholeOrNothing {l : Link} (ha : l.Accepting) : l.WholeOrNothing :=
  fun n k => Or.inl (ha n k)

omit [Host] in
theorem Link.Accepting.not_fails {l : Link} (ha : l.Accepting) (k : Nat) : ¬ l.Fails k := by
  rw [Link.Fails, ha]
  omega

/-- `imcomm_set_idle_time` says what it has to say, and the flag follows. -/
theorem imcommSetIdleTime_puts {h : Imcomm} (ha : h.link.Accepting) (hp : h.srvPause = false)
    (secs : UInt32) :
    Puts h (((IdleOp.setIdle secs).notice h.isidle).map Out.idle) (imcommSetIdleTime h secs) ∧
      (imcommSetIdleTime h secs).isidle =
        idleAfter h.isidle ((IdleOp.setIdle secs).notice h.isidle) := by
  have htook := imcommSetIdleTime_took ha.wholeOrNothing secs
  rw [IdleOp.notice_setIdle]
  by_cases hreported : idleReported h secs
  · have hres : imcommSetIdleTime h secs =
        afterWrite (reporting h secs) (multiBytes h.seqnum [idleFrame h.snacreq secs]) 1 := by
      rw [imcommSetIdleTime_eq, if_pos hreported, if_neg (by simp [hp]), flapSend_eq,
        if_neg (Link.Accepting.not_fails (l := (reporting h secs).link) ha _), resetIdle_eq,
        if_neg (by decide)]
      rfl
    rw [idleTaken, if_pos ⟨hreported, hp, ha.not_fails _⟩] at htook
    rw [if_pos hreported]
    refine ⟨⟨htook, ?_, ?_⟩, ?_⟩ <;> rw [hres] <;> rfl
  · have hres : imcommSetIdleTime h secs = h := by
      rw [imcommSetIdleTime_eq, if_neg hreported]
    rw [hres, if_neg hreported]
    exact ⟨Puts.refl h, rfl⟩

omit [Host] in
theorem outFrames_call (reqid : UInt32) (ps : List MultiPacket) :
    outFrames reqid (ps.map Out.call) = ps := by
  induction ps with
  | nil => rfl
  | cons p ps ih => rw [List.map_cons, outFrames, ih]

/-- A call puts its frames on the wire before the idle time is reset. -/
theorem FlapCall.run_accepting {h : Imcomm} (ha : h.link.Accepting) (c : FlapCall) :
    ∃ h', Puts h (c.frames.map Out.call) h' ∧ h'.isidle = h.isidle ∧ h'.link.Accepting ∧
      (c.run h).1 = if c.updateidle = 1 then imcommSetIdleTime h' 0 else h' := by
  have hfails : ¬ c.Fails h := ha.not_fails _
  have htook := took_of_not_failed ha.wholeOrNothing hfails
  refine ⟨afterWrite h (multiBytes h.seqnum c.frames) c.frames.length, ⟨?_, ?_, rfl⟩, rfl, ha, ?_⟩
  · rwa [outFrames_call]
  · rw [secs_call]
    exact (UInt32.add_zero _).symm
  · rw [run_eq ha.wholeOrNothing, if_neg hfails, resetIdle_eq]

/-- **One step** puts its frames and its notification on the wire. -/
theorem IdleOp.run_puts {h : Imcomm} (ha : h.link.Accepting) (hp : h.srvPause = false)
    (op : IdleOp) :
    Puts h (op.outs h.isidle) (op.run h) ∧
      (op.run h).isidle = idleAfter h.isidle (op.notice h.isidle) := by
  cases op with
  | setIdle secs => exact imcommSetIdleTime_puts ha hp secs
  | call c =>
      obtain ⟨h', hputs, hidle, ha', hrun⟩ := c.run_accepting ha
      rw [IdleOp.run, hrun, IdleOp.outs, IdleOp.notice_call]
      by_cases hu : c.updateidle = 1
      · rw [if_pos hu, if_pos hu, ← hidle]
        obtain ⟨hreset, hafter⟩ := imcommSetIdleTime_puts ha' (hputs.srvPause.trans hp) 0
        exact ⟨hputs.trans hreset, hafter⟩
      · rw [if_neg hu, if_neg hu]
        exact ⟨(List.append_nil _).symm ▸ hputs, hidle⟩

/-! ## runs -/

/-- The handle after a run of steps. -/
def idleRun (h : Imcomm) (ops : List IdleOp) : Imcomm := ops.foldl IdleOp.run h

/-- A run of steps puts the frames of the callers on the wire, in order, and
between them notifications that alternate. -/
theorem idleRun_puts {h : Imcomm} (ha : h.link.Accepting) (hp : h.srvPause = false)
    (ops : List IdleOp) :
    ∃ outs, Puts h outs (idleRun h ops) ∧
      outs.filterMap Out.called = ops.flatMap IdleOp.frames ∧
      Alternates h.isidle (outs.filterMap Out.secs) ∧
      (idleRun h ops).isidle = idleAfter h.isidle (outs.filterMap Out.secs) := by
  induction ops generalizing h with
  | nil => exact ⟨[], Puts.refl h, rfl, trivial, rfl⟩
  | cons op ops ih =>
      obtain ⟨hputs, hidle⟩ := op.run_puts ha hp
      obtain ⟨outs, hrest, hcalled, halternates, hafter⟩ :=
        ih (hputs.accepting ha) (hputs.srvPause.trans hp)
      rw [hidle] at halternates hafter
      refine ⟨op.outs h.isidle ++ outs, hputs.trans hrest, ?_, ?_, ?_⟩
      · rw [List.filterMap_append, op.called_outs, hcalled, List.flatMap_cons]
      · rw [List.filterMap_append, op.secs_outs]
        exact (op.alternates_notice h.isidle).append halternates
      · rw [List.filterMap_append, op.secs_outs, idleAfter_append]
        exact hafter

/-- **Idle notifications** of a fresh handle alternate, whatever is called in
whatever order: the first says more than 600 seconds, the next 0.  The flag is
what the last one said, and it is down after a send that updates the idle
time. -/
theorem idle_alternates (block : Imcomm) (ha : block.link.Accepting) (ops : List IdleOp) :
    (∃ outs,
      (idleRun (imcommCreateHandle block) ops).link.wire =
        block.link.wire ++ multiBytes 0x1000 (outFrames 0 outs) ∧
      outs.filterMap Out.called = ops.flatMap IdleOp.frames ∧
      Alternates false (outs.filterMap Out.secs) ∧
      ((idleRun (imcommCreateHandle block) ops).isidle = true ↔
        ∃ secs, (outs.filterMap Out.secs).getLast? = some secs ∧ 600 < secs) ∧
      ((∀ p ∈ ops.flatMap IdleOp.frames, idleData p = none) →
        (outFrames 0 outs).filterMap idleData = (outs.filterMap Out.secs).map be32)) ∧
    ∀ before c, ops = before ++ [.call c] → c.updateidle = 1 →
      (idleRun (imcommCreateHandle block) ops).isidle = false := by
  refine ⟨?_, fun before c heq hu => ?_⟩
  · obtain ⟨outs, hputs, hcalled, halternates, hafter⟩ :=
      idleRun_puts (h := imcommCreateHandle block) ha rfl ops
    refine ⟨outs, hputs.took.wire, hcalled, halternates, ?_, fun hown => ?_⟩
    · rw [hafter, idleAfter]
      cases (outs.filterMap Out.secs).getLast? <;> simp [imcommCreateHandle]
    · exact filterMap_idleData 0 (hcalled ▸ hown)
  · obtain ⟨outs, hputs, -⟩ := idleRun_puts (h := imcommCreateHandle block) ha rfl before
    rw [heq, idleRun, List.foldl_append]
    exact ((IdleOp.call c).run_puts (hputs.accepting ha) hputs.srvPause).2.trans
      (IdleOp.idleAfter_call hu _)

end

/-- The user is away for a quarter of an hour, and sends a message. -/
theorem idle_alternates_message :
    (@idleRun littleEndianHost (imcommCreateHandle zeroBlock)
      [.setIdle 900, .call (.send ⟨0x02, [1], 1⟩)]).isidle = false :=
  (@idle_alternates littleEndianHost zeroBlock (fun _ _ => rfl)
    [.setIdle 900, .call (.send ⟨0x02, [1], 1⟩)]).2 [.setIdle 900] (.send ⟨0x02, [1], 1⟩) rfl rfl

end Bsflite
