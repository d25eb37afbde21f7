import Bsflite.Intact

/-!
# Bsflite.OtrState

The field `otr` of a buddy, which is 1 during an OTR session, and who sets it.
Signing on and off, and the command `O`, only clear it; libotr calls back to
set it, at any time and for any contact.

`made` lists the callbacks of a step with the world that each of them is made
in.  `otr_smp_event_cb` stores into the buddy whether there is one or not
when an authentication succeeds; `Orderly` is a callback that is not that.

* `otrAct_switches` — a callback that sets the flag, and the context with it.
* `buddyOnline_clears`, `buddyOffline_onlyBy`, `inputStopOtr_onlyBy` — the rest.
* `otr_state_iff` — a run is as it is meant to be when all its callbacks are
  orderly, and only then.
-/

namespace Bsflite

open LinkedList

/-! ## runs -/

/-- What happens to the flags: buddies come and go, the command `O`, and
libotr on its own. -/
inductive OtrOp where
  | online (who : Str)
  | offline (who : Str)
  | stopOtr (arg : Str)
  | act (a : OtrAction)

section
variable [Host] (libotr : Libotr)

def otrStep (w : World Client) : OtrOp → World Client
  | .online who => w.alive fun w => buddyOnline libotr w who
  | .offline who => w.alive fun w => buddyOffline libotr w who
  | .stopOtr arg => w.alive fun w => inputStopOtr libotr w arg
  | .act a => w.otrAct none a

/-- The steps of a run, each with the world before it. -/
def otrSteps (w : World Client) : List OtrOp → List (World Client × OtrOp)
  | [] => []
  | op :: ops => (w, op) :: otrSteps (otrStep libotr w op) ops

/-! ## callbacks -/

/-- The context that a callback is made with. -/
def OtrAction.callback : OtrAction → Option Ctx
  | .goneSecure k => some k
  | .goneInsecure k => some k
  | .smpEvent _ k => some k
  | .context _ _ => none
  | .store _ => none
  | .inject _ _ => none

/-- What libotr does one after the other, with the world before each. -/
def otrActs (w : World Client) : List OtrAction → List (World Client × OtrAction)
  | [] => []
  | a :: actions => (w, a) :: otrActs (w.otrAct none a) actions

/-- What libotr does when a session with a buddy is ended. -/
def disconnects (w : World Client) (who : Str) : List OtrAction :=
  match (w.client.findBuddy who).join.bind w.client.buddyAt with
  | some buddy => if buddy.otr = 1 then libotr.disconnect w.client buddy.sn else []
  | none => []

/-- A call of libotr is counted. -/
def World.counted (w : World Client) : World Client :=
  { w with client := { w.client with otrCalls := w.client.otrCalls + 1 } }

/-- What libotr does in a step. -/
def made (w : World Client) : OtrOp → List (World Client × OtrAction)
  | .online _ => []
  | .offline who =>
    if w.client.crash.isSome then [] else otrActs w.counted (disconnects libotr w who)
  | .stopOtr arg =>
    if w.client.crash.isSome ∨ ¬ w.client.conn.conn then []
    else otrActs w.counted (disconnects libotr w arg)
  | .act a => [(w, a)]

end

/-- Not a successful authentication of a stranger, while the client runs. -/
def Orderly (w : World Client) (a : OtrAction) : Prop :=
  ∀ k, a = .smpEvent .success k → w.client.crash = none → ¬ Stranger w k

/-- Is the flag of the buddy in a node set? -/
def Client.inSession (c : Client) (p : Ptr) : Bool := (c.buddyAt p).any fun b => b.otr = 1

/-- A flag that is set from `w` to `w'` comes with a context that is trusted in
`w'`, and that the buddy has there. -/
def Switches (w w' : World Client) (callback : Option Ctx) : Prop :=
  ∀ p, w'.client.inSession p = true → w.client.inSession p = false →
    ∃ k, callback = some k ∧ (w'.client.contexts k).trusted = true ∧
      (w'.client.buddyAt p).map Buddy.otrContext = some (some k)

section
variable [Host] (libotr : Libotr)

/-- A flag that is set from `w` to `w'` is set by one of these. -/
def OnlyBy (w w' : World Client) (cs : List (World Client × OtrAction)) : Prop :=
  ∀ p, w'.client.inSession p = true → w.client.inSession p = false →
    ∃ c ∈ cs, c.1.client.inSession p = false ∧ (c.1.otrAct none c.2).client.inSession p = true

/-- A callback for a stranger changes no buddy, and no pointer that is missing
is followed. -/
def SparesStranger (w : World Client) (a : OtrAction) : Prop :=
  ∀ k, a.callback = some k → Stranger w k →
    (w.otrAct none a).client.heap = w.client.heap ∧
    (w.otrAct none a).client.buddylist = w.client.buddylist ∧
    (w.otrAct none a).client.crash = w.client.crash

/-- A step is as it is meant to be: callbacks spare strangers, and have trusted
contexts when they set flags; nothing else sets one. -/
structure Meant (w : World Client) (op : OtrOp) : Prop where
  spares : ∀ c ∈ made libotr w op, SparesStranger c.1 c.2
  trusted : ∀ c ∈ made libotr w op, Switches c.1 (c.1.otrAct none c.2) c.2.callback
  only : OnlyBy w (otrStep libotr w op) (made libotr w op)

end

/-! ## no flag is set -/

/-- Every flag that is set was set before. -/
def Clears (w w' : World Client) : Prop :=
  ∀ p, w'.client.inSession p = true → w.client.inSession p = true

section
variable {w w' w'' : World Client} {p : Ptr}

theorem Clears.trans (h : Clears w w') (h' : Clears w' w'') : Clears w w'' :=
  fun p hp => h p (h' p hp)

theorem clears_of_heap (h : w'.client.heap = w.client.heap) : Clears w w' := by
  intro p hp
  rwa [Client.inSession, Client.buddyAt, h] at hp

theorem crashes_heap (w : World Client) (k : Crash) :
    (w.crashes k).client.heap = w.client.heap := by
  rw [World.crashes]
  split <;> rfl

theorem logEvent_heap (w : World Client) (event : LogEvent) (sn : Str) (msg : Option Str) :
    (w.logEvent event sn msg).client.heap = w.client.heap := by
  rw [World.logEvent]
  split
  · split
    · exact crashes_heap w _
    · split <;> rfl
  · rfl

theorem alive_clears {f : World Client → World Client} (hf : Clears w (f w)) :
    Clears w (w.alive f) := by
  rw [World.alive]
  split
  · exact fun p hp => hp
  · exact hf

/-- What is in a node after a store. -/
theorem updateBuddy_at (w : World Client) (p q : Ptr) (f : Buddy → Buddy) :
    (w.updateBuddy p f).client.buddyAt q =
      if q = p then (w.client.buddyAt p).map f else w.client.buddyAt q := by
  rw [World.updateBuddy, Heap.modify, Client.buddyAt, Client.buddyAt, Client.buddyAt]
  cases hc : w.client.heap.cell p with
  | none =>
      simp only [Option.map_none, crashes_heap]
      split
      · next hq => rw [hq, hc]; rfl
      · rfl
  | some c =>
      simp only [Option.map_some]
      split
      · next hq => rw [hq, Heap.put_cell_self]; rfl
      · next hq => rw [Heap.put_cell_of_ne _ _ hq]

theorem updateBuddy_clears {f : Buddy → Buddy} (hf : ∀ b, (f b).otr = 1 → b.otr = 1) :
    Clears w (w.updateBuddy p f) := by
  intro q hq
  rw [Client.inSession, updateBuddy_at] at hq
  rw [Client.inSession]
  split at hq
  · next heq =>
    subst heq
    cases hb : w.client.buddyAt q with
    | none => simp [hb] at hq
    | some b => simpa [hb] using hf b (by simpa [hb] using hq)
  · exact hq

theorem withBuddy_clears (who : Str) {f : Buddy → Buddy} (hf : ∀ b, (f b).otr = 1 → b.otr = 1) :
    Clears w (w.withBuddy who f) := by
  rw [World.withBuddy]
  split
  · exact clears_of_heap (crashes_heap w _)
  · exact fun p hp => hp
  · exact updateBuddy_clears hf

/-! ### the pointer work -/

theorem clears_of_values (h : Values w.client.heap w'.client.heap) : Clears w w' := by
  intro q hq
  rw [Client.inSession, Client.buddyAt] at hq ⊢
  cases hc' : w'.client.heap.cell q with
  | none => simp [hc'] at hq
  | some c' =>
      obtain ⟨c, hc, hval⟩ := h q c' hc'
      simpa [hc, hval, hc'] using hq

theorem unlinkBuddy_clears (p : Ptr) : Clears w (w.unlinkBuddy p) := by
  rw [World.unlinkBuddy]
  split
  · next heap buddylist hunlink => exact clears_of_values (unlink_values hunlink)
  · exact clears_of_heap (crashes_heap w _)

theorem logEvent_clears (event : LogEvent) (sn : Str) (msg : Option Str) :
    Clears w (w.logEvent event sn msg) := clears_of_heap (logEvent_heap w event sn msg)

/-- The other nodes are there before a new one is. -/
theorem insertBuddy_inSession {c c' : Client} {sname : Str} {new q : Ptr}
    (hinsert : c.insertBuddy sname = some (c', new)) (hq : q ≠ new)
    (hset : c'.inSession q = true) : c.inSession q = true := by
  simp only [Client.insertBuddy, Option.bind_eq_bind, Option.bind_eq_some_iff] at hinsert
  obtain ⟨trav, -, r, hinsert, heq⟩ := hinsert
  obtain ⟨rfl, hnew⟩ := Prod.mk.inj (Option.some.inj heq)
  have hvalues := insertAt_values hinsert
  rw [Client.inSession, Client.buddyAt] at hset ⊢
  cases hc' : r.1.cell q with
  | none => simp [hc'] at hset
  | some d' =>
      obtain ⟨d, hd, hval⟩ := hvalues q d' hc'
      have hold : c.heap.cell q = some d := by
        have hne : q ≠ c.heap.brk := fun heq => hq (heq.trans hnew)
        simpa [Heap.alloc, hne] using hd
      simpa [hold, hval, hc'] using hset

/-- **Signing on** clears the flag of the new node, whatever was there. -/
theorem buddyOnline_clears (libotr : Libotr) (who : Str) : Clears w (buddyOnline libotr w who) := by
  rw [buddyOnline]
  cases hinsert : w.client.insertBuddy (simplifySn who) with
  | none => exact clears_of_heap (crashes_heap w _)
  | some r =>
      obtain ⟨client, new⟩ := r
      -- the stores behind the one that clears the flag
      have hlater (v : World Client) (context : Option Ctx) :
          Clears v (v.updateBuddy new fun b => { b with otrContext := context }) :=
        updateBuddy_clears fun _ h => h
      have hnamed : Clears w (({ w with client := client } : World Client).updateBuddy new fun b =>
          { b with
            sn := simplifySn who, formattedsn := who, away := false, idle := false
            otr := 0 }) := by
        intro q hq
        rw [Client.inSession, updateBuddy_at] at hq
        split at hq
        · cases hb : client.buddyAt new <;> simp [hb] at hq
        · next hne => exact insertBuddy_inSession hinsert hne hq
      simp only
      split
      · exact (hnamed.trans (hlater _ _)).trans (clears_of_heap rfl)
      · exact ((hnamed.trans (hlater _ _)).trans (clears_of_heap rfl)).trans
          (logEvent_clears _ _ _)

/-! ## callbacks -/

section
variable [Host]

omit [Host] in
theorem updateBuddy_contexts (w : World Client) (p : Ptr) (f : Buddy → Buddy) :
    (w.updateBuddy p f).client.contexts = w.client.contexts := by
  rw [World.updateBuddy]
  split
  · rfl
  · rw [World.crashes]
    split <;> rfl

omit [Host] in
theorem Clears.switches (h : Clears w w') (callback : Option Ctx) : Switches w w' callback := by
  intro p hset hunset
  rw [h p hset] at hunset
  cases hunset

omit [Host] in
/-- A store that leaves a trusted context. -/
theorem updateBuddy_switches {p : Ptr} {f : Buddy → Buddy} {k : Ctx}
    (hf : ∀ b, (f b).otrContext = some k) (htrusted : (w.client.contexts k).trusted = true) :
    Switches w (w.updateBuddy p f) (some k) := by
  intro q hset hunset
  rw [Client.inSession, updateBuddy_at] at hset
  refine ⟨k, rfl, by rw [updateBuddy_contexts]; exact htrusted, ?_⟩
  rw [updateBuddy_at]
  split at hset
  · next heq =>
    rw [if_pos heq]
    cases hb : w.client.buddyAt p with
    | none => simp [hb] at hset
    | some b => simp [hf]
  · rw [Client.inSession, hset] at hunset
    cases hunset

/-- **A callback that sets a flag** has a trusted context, and leaves it with
the buddy. -/
theorem otrAct_switches (w : World Client) (a : OtrAction) :
    Switches w (w.otrAct none a) a.callback := by
  rw [World.otrAct, World.alive]
  split
  · exact Clears.switches (fun p hp => hp) _
  · cases a with
    | context k context => exact (clears_of_heap rfl).switches _
    | store k => exact (clears_of_heap rfl).switches _
    | inject recipient message =>
        refine (clears_of_heap ?_).switches _
        simp only [World.otrInjectMsgCb]
        split
        · rfl
        · exact crashes_heap _ _
    | goneSecure k =>
        simp only [World.otrSecureCb]
        split
        · next htrusted =>
          rw [World.withBuddy]
          split
          · exact (clears_of_heap (crashes_heap w _)).switches _
          · exact (clears_of_heap rfl).switches _
          · exact updateBuddy_switches (fun _ => rfl) htrusted
        · exact (clears_of_heap rfl).switches _
    | goneInsecure k => exact (withBuddy_clears _ (by simp)).switches _
    | smpEvent event k =>
        have hask : Clears w (w.withBuddy (w.client.contexts k).username fun b =>
            { b with otrContext := some k }) := withBuddy_clears _ fun _ h => h
        have hsame : Clears w w := fun p hp => hp
        cases event with
        | askForSecret => exact hask.switches _
        | askForAnswer => exact hask.switches _
        | success =>
            simp only [World.otrSmpEventCb]
            split
            · exact (clears_of_heap (crashes_heap w _)).switches _
            · exact (clears_of_heap (crashes_heap w _)).switches _
            · -- the trust is set before the flag is
              exact updateBuddy_switches
                (w := w.setContext k { w.client.contexts k with trusted := true })
                (fun _ => rfl) (by simp [World.setContext])
        | inProgress => exact hsame.switches _
        | abort => exact hsame.switches _
        | failure => exact hsame.switches _
        | cheated => exact hsame.switches _
        | error => exact hsame.switches _

/-! ## steps -/

theorem Clears.onlyBy (h : Clears w w') (cs : List (World Client × OtrAction)) :
    OnlyBy w w' cs := by
  intro p hset hunset
  rw [h p hset] at hunset
  cases hunset

theorem OnlyBy.trans_clears {cs : List (World Client × OtrAction)} (h : OnlyBy w w' cs)
    (h' : Clears w' w'') : OnlyBy w w'' cs := fun p hset => h p (h' p hset)

/-- One thing after the other. -/
theorem foldl_onlyBy (w : World Client) (actions : List OtrAction) :
    OnlyBy w (actions.foldl (fun w a => w.otrAct none a) w) (otrActs w actions) := by
  induction actions generalizing w with
  | nil => exact Clears.onlyBy (fun p hp => hp) _
  | cons a actions ih =>
      intro p hset hunset
      cases hfirst : (w.otrAct none a).client.inSession p with
      | true => exact ⟨(w, a), List.mem_cons_self, hunset, hfirst⟩
      | false =>
          obtain ⟨c, hc, hswitch⟩ := ih (w.otrAct none a) p hset hfirst
          exact ⟨c, List.mem_cons_of_mem _ hc, hswitch⟩

/-- A call of libotr. -/
theorem otrCall_onlyBy (w : World Client) (actions : List OtrAction) :
    OnlyBy w (w.otrCall none actions) (otrActs w.counted actions) :=
  foldl_onlyBy w.counted actions

/-- The end of a session when a buddy signs off. -/
theorem endOtr_onlyBy (libotr : Libotr) {who : Str} {p : Ptr}
    (hfind : w.client.findBuddy who = some (some p)) :
    OnlyBy w (endOtr libotr w p) (otrActs w.counted (disconnects libotr w who)) := by
  rw [endOtr]
  cases hb : w.client.buddyAt p with
  | none => exact (clears_of_heap (crashes_heap w _)).onlyBy _
  | some buddy =>
      simp only
      split
      · next hotr =>
        have hacts : disconnects libotr w who = libotr.disconnect w.client buddy.sn := by
          simp [disconnects, hfind, hb, hotr]
        rw [hacts]
        exact (otrCall_onlyBy w _).trans_clears (alive_clears (updateBuddy_clears (by simp)))
      · exact Clears.onlyBy (fun q hq => hq) _

theorem buddyOffline_onlyBy (libotr : Libotr) (who : Str) :
    OnlyBy w (buddyOffline libotr w who) (otrActs w.counted (disconnects libotr w who)) := by
  rw [buddyOffline]
  split
  · exact (clears_of_heap (crashes_heap w _)).onlyBy _
  · exact Clears.onlyBy (fun q hq => hq) _
  · next p hfind =>
    refine (endOtr_onlyBy libotr hfind).trans_clears (alive_clears ?_)
    have hgone (v : World Client) : Clears v (v.unlinkBuddy p).countOff :=
      (unlinkBuddy_clears p).trans (clears_of_heap rfl)
    simp only
    split
    · exact hgone _
    · exact (hgone _).trans (logEvent_clears _ _ _)

theorem inputStopOtr_onlyBy (libotr : Libotr) (arg : Str) (hconn : w.client.conn.conn = true) :
    OnlyBy w (inputStopOtr libotr w arg) (otrActs w.counted (disconnects libotr w arg)) := by
  rw [inputStopOtr, if_pos hconn]
  split
  · exact (clears_of_heap (crashes_heap w _)).onlyBy _
  · exact Clears.onlyBy (fun q hq => hq) _
  · next p hfind =>
    split
    · exact (clears_of_heap (crashes_heap w _)).onlyBy _
    · next buddy hb =>
      split
      · next hotr =>
        have hacts : disconnects libotr w arg = libotr.disconnect w.client buddy.sn := by
          simp [disconnects, hfind, hb, hotr]
        rw [hacts]
        exact (otrCall_onlyBy w _).trans_clears (alive_clears (updateBuddy_clears (by simp)))
      · exact Clears.onlyBy (fun q hq => hq) _

/-- **Only callbacks** set flags. -/
theorem otrStep_onlyBy (libotr : Libotr) (op : OtrOp) :
    OnlyBy w (otrStep libotr w op) (made libotr w op) := by
  cases op with
  | online who => exact (alive_clears (buddyOnline_clears libotr who)).onlyBy _
  | offline who =>
      rw [otrStep, made, World.alive]
      split
      · exact Clears.onlyBy (fun q hq => hq) _
      · exact buddyOffline_onlyBy libotr who
  | stopOtr arg =>
      rw [otrStep, made, World.alive]
      by_cases hcrash : w.client.crash.isSome = true
      · rw [if_pos hcrash]
        exact Clears.onlyBy (fun q hq => hq) _
      · rw [if_neg hcrash]
        by_cases hconn : w.client.conn.conn = true
        · rw [if_neg (by simp [hcrash, hconn])]
          exact inputStopOtr_onlyBy libotr arg hconn
        · rw [inputStopOtr, if_neg hconn]
          exact Clears.onlyBy (fun q hq => hq) _
  | act a => exact foldl_onlyBy w [a]

/-! ## strangers -/

/-- **A callback spares strangers** unless it is a successful authentication. -/
theorem sparesStranger_iff (w : World Client) (a : OtrAction) :
    SparesStranger w a ↔ Orderly w a := by
  constructor
  · rintro hspares k rfl hrunning hstranger
    have hcrash := (hspares k rfl hstranger).2.2
    have hfind : w.client.findBuddy (w.client.contexts k).username = some none := hstranger
    simp [World.otrAct, World.alive, hrunning, World.otrSmpEventCb, hfind, World.crashes] at hcrash
  · intro horderly k hcallback hstranger
    by_cases hcrash : w.client.crash.isSome = true
    · rw [otrAct_crashed hcrash]
      exact ⟨rfl, rfl, rfl⟩
    · have hrunning : w.client.crash = none := Option.not_isSome_iff_eq_none.mp hcrash
      have hwith (f : Buddy → Buddy) : w.withBuddy (w.client.contexts k).username f = w := by
        rw [World.withBuddy, hstranger]
      have hsame : w.otrAct none a = w := by
        rw [World.otrAct, World.alive_of_running hrunning]
        cases a with
        | context k' context => cases hcallback
        | store k' => cases hcallback
        | inject recipient message => cases hcallback
        | goneSecure k' =>
            obtain rfl := Option.some.inj hcallback
            simp only [World.otrSecureCb, hwith, ite_self]
        | goneInsecure k' =>
            obtain rfl := Option.some.inj hcallback
            exact hwith _
        | smpEvent event k' =>
            obtain rfl := Option.some.inj hcallback
            cases event with
            | askForSecret => exact hwith _
            | askForAnswer => exact hwith _
            | success => exact absurd hstranger (horderly k' rfl hrunning)
            | inProgress => rfl
            | abort => rfl
            | failure => rfl
            | cheated => rfl
            | error => rfl
      rw [hsame]
      exact ⟨rfl, rfl, rfl⟩

/-- The client followed a null pointer, or its list is well linked. -/
def Sane (w : World Client) : Prop := Settles (fun w => ∃ ns n online, Intact ns n online w) w

omit [Host] in
theorem Settles.sane {ns : List (Ptr × Buddy)} {n : Int} {online : List OnlineBuddy}
    (h : Settles (Intact ns n online) w) : Sane w :=
  h.imp_right fun h => ⟨ns, n, online, h⟩

theorem inputStopOtr_settles {ns : List (Ptr × Buddy)} {n : Int} {online : List OnlineBuddy}
    (h : Intact ns n online w) (libotr : Libotr) (arg : Str) :
    Settles (Intact ns n online) (inputStopOtr libotr w arg) := by
  rw [inputStopOtr]
  split
  · cases hfind : w.client.findBuddy arg with
    | none => simp [h.findBuddy_eq] at hfind
    | some r =>
        cases r with
        | none => exact Or.inr h
        | some p =>
            have hp := findBuddy_mem h.shows hfind
            obtain ⟨buddy, hb, -⟩ := buddyAt_isSome h.shows hp
            simp only [hb]
            split
            · exact (otrCall_settles h (by simp) _).alive fun w h =>
                Or.inr (updateBuddy_intact_otr h hp fun _ => rfl)
            · exact Or.inr h
  · exact Or.inr h

/-- A step keeps the list well linked. -/
theorem otrStep_sane (libotr : Libotr) (op : OtrOp) (h : Sane w) : Sane (otrStep libotr w op) := by
  rcases h with hnull | ⟨ns, n, online, h⟩
  · have hcrash : w.client.crash.isSome = true := by rw [hnull]; rfl
    have hsame : otrStep libotr w op = w := by
      cases op with
      | act a => exact otrAct_crashed hcrash none a
      | online who => simp [otrStep, World.alive, hcrash]
      | offline who => simp [otrStep, World.alive, hcrash]
      | stopOtr arg => simp [otrStep, World.alive, hcrash]
    rw [hsame]
    exact Or.inl hnull
  · cases op with
    | act a => exact (otrAct_settles h (by simp) a).sane
    | online who =>
        rw [otrStep, World.alive_of_running h.running]
        obtain ⟨p, idletime, hintact⟩ := buddyOnline_intact h libotr who
        exact Or.inr ⟨_, _, _, hintact⟩
    | offline who =>
        rw [otrStep, World.alive_of_running h.running]
        rcases first_named ns (simplifySn who) with habsent | ⟨as, p, b, bs, rfl, hname, hfirst⟩
        · exact Or.inr ⟨_, _, _, buddyOffline_absent h libotr habsent⟩
        · exact (buddyOffline_settles h libotr hname hfirst).sane
    | stopOtr arg =>
        rw [otrStep, World.alive_of_running h.running]
        exact (inputStopOtr_settles h libotr arg).sane

theorem otrSteps_sane (libotr : Libotr) (ops : List OtrOp) (h : Sane w) :
    ∀ s ∈ otrSteps libotr w ops, Sane s.1 := by
  induction ops generalizing w with
  | nil => simp [otrSteps]
  | cons op ops ih =>
      rw [otrSteps, List.forall_mem_cons]
      exact ⟨h, ih (otrStep_sane libotr op h)⟩

/-- A step is as it is meant to be exactly when its callbacks are orderly. -/
theorem meant_iff (libotr : Libotr) (w : World Client) (op : OtrOp) :
    Meant libotr w op ↔ ∀ c ∈ made libotr w op, Orderly c.1 c.2 := by
  constructor
  · exact fun h c hc => (sparesStranger_iff c.1 c.2).mp (h.spares c hc)
  · exact fun h => ⟨fun c hc => (sparesStranger_iff c.1 c.2).mpr (h c hc),
      fun c _ => otrAct_switches c.1 c.2, otrStep_onlyBy libotr op⟩

/-- **The state of OTR**: in a run that starts without buddies the list stays
well linked, and the steps are all as they are meant to be exactly when no
authentication with a stranger succeeds. -/
theorem otr_state_iff (libotr : Libotr) (w : World Client) (hrunning : w.client.crash = none)
    (hlist : w.client.buddylist = none) (ops : List OtrOp) :
    (∀ s ∈ otrSteps libotr w ops, Sane s.1) ∧
    ((∀ s ∈ otrSteps libotr w ops, Meant libotr s.1 s.2) ↔
      ∀ s ∈ otrSteps libotr w ops, ∀ c ∈ made libotr s.1 s.2, Orderly c.1 c.2) := by
  have hempty : IsList w.client.heap w.client.buddylist [] :=
    ⟨⟨none, rfl, hlist⟩, List.nodup_nil, by simp⟩
  have hstart : Sane w := Or.inr ⟨[], _, _, hrunning, ⟨[], hempty, rfl⟩, rfl, rfl⟩
  exact ⟨otrSteps_sane libotr ops hstart, forall₂_congr fun s _ => meant_iff libotr s.1 s.2⟩

end

end

/-- Bob signs on, a session with him begins, and his authentication succeeds. -/
def bobSession : List OtrOp :=
  [.online (ascii "bob"), .act (.context 0 ⟨ascii "bob", .encrypted, true⟩),
    .act (.goneSecure 0), .act (.smpEvent .success 0)]

/-- Every step is as it is meant to be; in front of the last one Bob's flag is
set, with the context of the session. -/
theorem otr_state_iff_bob :
    (∀ s ∈ @otrSteps littleEndianHost quietLibotr ⟨imcommCreateHandle zeroBlock, startClient, []⟩
        bobSession, Sane s.1 ∧ @Meant littleEndianHost quietLibotr s.1 s.2) ∧
      ∃ w, (@otrSteps littleEndianHost quietLibotr ⟨imcommCreateHandle zeroBlock, startClient, []⟩
          bobSession).getLast? = some (w, .act (.smpEvent .success 0)) ∧
        w.client.inSession 0 = true ∧
        (w.client.buddyAt 0).map Buddy.otrContext = some (some 0) := by
  obtain ⟨hsane, hmeant⟩ := @otr_state_iff littleEndianHost quietLibotr
    ⟨imcommCreateHandle zeroBlock, startClient, []⟩ rfl rfl bobSession
  have horderly : ∀ s ∈ @otrSteps littleEndianHost quietLibotr
      ⟨imcommCreateHandle zeroBlock, startClient, []⟩ bobSession,
      ∀ c ∈ @made littleEndianHost quietLibotr s.1 s.2, Orderly c.1 c.2 := by
    intro s hs c hc
    simp only [bobSession, otrSteps, List.mem_cons, List.not_mem_nil, or_false] at hs
    rcases hs with rfl | rfl | rfl | rfl
    · cases hc
    · obtain rfl := List.mem_singleton.mp hc
      rintro k ⟨⟩
    · obtain rfl := List.mem_singleton.mp hc
      rintro k ⟨⟩
    -- Bob is a buddy by now
    · obtain rfl := List.mem_singleton.mp hc
      rintro k ⟨⟩ - hstranger
      revert hstranger
      rw [Stranger]
      decide +kernel
  exact ⟨fun s hs => ⟨hsane s hs, hmeant.mpr horderly s hs⟩, _, rfl, rfl, rfl⟩

/-- Nobody is online, and an authentication succeeds: `buddy` is `NULL`. -/
theorem otr_state_stranger :
    ¬ ∀ s ∈ @otrSteps littleEndianHost quietLibotr ⟨imcommCreateHandle zeroBlock, startClient, []⟩
        [.act (.smpEvent .success 0)],
      @Meant littleEndianHost quietLibotr s.1 s.2 := by
  intro hall
  have hmeant := hall _ List.mem_cons_self
  have horderly := (@meant_iff littleEndianHost _ _ _).mp hmeant _ List.mem_cons_self
  exact horderly 0 rfl rfl rfl

end Bsflite
