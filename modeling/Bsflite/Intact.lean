import Bsflite.Input

/-!
# Bsflite.Intact

What the client keeps while libotr runs.  `Intact ns n online w` says that
`w` has not crashed, that `buddylist` is well linked with the nodes `ns`, and
that the client counts `n` buddies while the library has `online`.  The nodes
of `ns` leave out what belongs to OTR, so that libotr may do what it likes.

* `findBuddy_eq`, `updateBuddy_intact` — reading and writing a buddy.
* `otrAct_intact`, `otrAct_trips` — what libotr does keeps everything, unless
  it `Trips`: a null pointer is followed then.
* `otrCall_settles`, `getmessage_settles` — so do a call of libotr and an
  incoming message, unless a null pointer is followed.
* `buddyOnline_intact`, `buddyOffline_settles`, `removeFromList_intact` — the
  nodes that come and go.
-/

namespace Bsflite

open LinkedList

/-! ## buddies without OTR -/

/-- A buddy without what belongs to OTR. -/
def Buddy.shown (b : Buddy) : Buddy := { b with otr := 0, otrContext := none }

/-- The buddy list is well linked, and `ns` are its nodes. -/
def Client.Shows (c : Client) (ns : List (Ptr × Buddy)) : Prop :=
  ∃ xs, IsList c.heap c.buddylist xs ∧ xs.map (fun x => (x.1, x.2.shown)) = ns

/-- Is this the node of a buddy? -/
def isNamed (sn : Str) (x : Ptr × Buddy) : Bool := x.2.sn = sn

/-- Is this the node of a buddy with a greater name? -/
def isAfter (sn : Str) (x : Ptr × Buddy) : Bool := sn < x.2.sn

section
variable {c : Client} {ns as bs : List (Ptr × Buddy)} {p : Ptr} {b : Buddy}

/-- `find_buddy` finds the first node with the name. -/
theorem findBuddy_eq (hs : c.Shows ns) (who : Str) :
    c.findBuddy who = some ((ns.find? (isNamed (simplifySn who))).map Prod.fst) := by
  obtain ⟨xs, hl, rfl⟩ := hs
  rw [Client.findBuddy, find_eq hl, List.find?_map, Option.map_map]
  rfl

/-- A node of the list. -/
theorem findBuddy_mem (hs : c.Shows ns) {who : Str} (hp : c.findBuddy who = some (some p)) :
    p ∈ ns.map Prod.fst := by
  rw [findBuddy_eq hs, Option.some_inj] at hp
  obtain ⟨x, hx, rfl⟩ := Option.map_eq_some_iff.mp hp
  exact List.mem_map.mpr ⟨x, List.mem_of_find?_eq_some hx, rfl⟩

/-- The nodes around a node of the list. -/
theorem shows_split (hs : c.Shows (as ++ (p, b) :: bs)) :
    ∃ xs b' ys, IsList c.heap c.buddylist (xs ++ (p, b') :: ys) ∧ b'.shown = b ∧
      xs.map (fun x => (x.1, x.2.shown)) = as ∧ ys.map (fun x => (x.1, x.2.shown)) = bs := by
  obtain ⟨zs, hl, hmap⟩ := hs
  obtain ⟨xs, rest, rfl, rfl, hrest⟩ := List.map_eq_append_iff.mp hmap
  obtain ⟨⟨q, b'⟩, ys, rfl, hhead, rfl⟩ := List.map_eq_cons_iff.mp hrest
  obtain ⟨rfl, rfl⟩ := Prod.mk.inj hhead
  exact ⟨xs, b', ys, hl, rfl, rfl, rfl⟩

/-- A node of the list has a buddy. -/
theorem buddyAt_isSome (hs : c.Shows ns) (hp : p ∈ ns.map Prod.fst) :
    ∃ b, c.buddyAt p = some b ∧ (p, b.shown) ∈ ns := by
  obtain ⟨⟨q, b⟩, hmem, rfl⟩ := List.mem_map.mp hp
  obtain ⟨as, bs, rfl⟩ := List.append_of_mem hmem
  obtain ⟨xs, b', ys, hl, rfl, -, -⟩ := shows_split hs
  obtain ⟨next, prev, hcell⟩ := hl.cell_of_mem (List.mem_append_right xs List.mem_cons_self)
  exact ⟨b', by rw [Client.buddyAt, hcell]; rfl, hmem⟩

end

/-! ## worlds -/

/-- The client runs, its list has the nodes `ns`, it counts `n` buddies, and
the library has `online`. -/
structure Intact (ns : List (Ptr × Buddy)) (n : Int) (online : List OnlineBuddy)
    (w : World Client) : Prop where
  running : w.client.crash = none
  shows : w.client.Shows ns
  count : w.client.conn.buddiesonline = n
  lib : w.handle.buddiesOnline = online

/-- The client followed a null pointer, or a property holds. -/
def Settles (Q : World Client → Prop) (w : World Client) : Prop :=
  w.client.crash = some .null ∨ Q w

/-- The contact of a context is not in `buddylist`. -/
def Stranger (w : World Client) (k : Ctx) : Prop :=
  w.client.findBuddy (w.client.contexts k).username = some none

/-- What libotr does follows a null pointer: it sends without a connection, or
an authentication with a stranger succeeds. -/
inductive Trips (w : World Client) : OtrAction → Prop
  | inject (recipient message : Str) (h : w.client.conn.conn = false) :
      Trips w (.inject recipient message)
  | success (k : Ctx) (h : Stranger w k) : Trips w (.smpEvent .success k)

section
variable {w : World Client} {ns as bs : List (Ptr × Buddy)} {n : Int} {online : List OnlineBuddy}
  {p : Ptr} {b : Buddy}

/-- What only runs unless the client crashed. -/
theorem Settles.alive {Q : World Client → Prop} {f : World Client → World Client}
    (h : Settles (Intact ns n online) w) (hf : ∀ w, Intact ns n online w → Settles Q (f w)) :
    Settles Q (w.alive f) := by
  rw [World.alive]
  cases h with
  | inl hnull =>
      rw [if_pos (by rw [hnull]; rfl)]
      exact Or.inl hnull
  | inr hintact =>
      rw [if_neg (by rw [hintact.running]; simp)]
      exact hf w hintact

/-- A null pointer is followed. -/
theorem Intact.crashes_null (h : Intact ns n online w) {Q : World Client → Prop} :
    Settles Q (w.crashes .null) := by
  left
  rw [World.crashes, if_neg (by rw [h.running]; simp)]

/-- The trace says nothing about the list. -/
theorem Intact.traced (h : Intact ns n online w) (t : Traced) : Intact ns n online (w.traced t) :=
  ⟨h.running, h.shows, h.count, h.lib⟩

/-- `find_buddy` ends. -/
theorem Intact.findBuddy_eq (h : Intact ns n online w) (who : Str) :
    w.client.findBuddy who = some ((ns.find? (isNamed (simplifySn who))).map Prod.fst) :=
  Bsflite.findBuddy_eq h.shows who

/-- **A store into a node** changes this node. -/
theorem updateBuddy_intact (h : Intact (as ++ (p, b) :: bs) n online w) {f : Buddy → Buddy}
    {b' : Buddy} (hf : ∀ a : Buddy, a.shown = b → (f a).shown = b') :
    Intact (as ++ (p, b') :: bs) n online (w.updateBuddy p f) := by
  obtain ⟨xs, a, ys, hl, ha, rfl, rfl⟩ := shows_split h.shows
  obtain ⟨heap, hmodify, hl', -⟩ := modify_isList hl f
  rw [World.updateBuddy, hmodify]
  exact ⟨h.running, ⟨_, hl', by simp [hf a ha]⟩, h.count, h.lib⟩

/-- A store that only concerns OTR changes nothing. -/
theorem updateBuddy_intact_otr (h : Intact ns n online w) (hp : p ∈ ns.map Prod.fst)
    {f : Buddy → Buddy} (hf : ∀ a : Buddy, (f a).shown = a.shown) :
    Intact ns n online (w.updateBuddy p f) := by
  obtain ⟨⟨q, b⟩, hmem, rfl⟩ := List.mem_map.mp hp
  obtain ⟨as, bs, rfl⟩ := List.append_of_mem hmem
  exact updateBuddy_intact h fun a ha => (hf a).trans ha

/-- The same through `find_buddy`. -/
theorem withBuddy_intact_otr (h : Intact ns n online w) (who : Str) {f : Buddy → Buddy}
    (hf : ∀ a : Buddy, (f a).shown = a.shown) : Intact ns n online (w.withBuddy who f) := by
  rw [World.withBuddy]
  cases hfind : w.client.findBuddy who with
  | none => simp [h.findBuddy_eq] at hfind
  | some p =>
      cases p with
      | none => exact h
      | some p => exact updateBuddy_intact_otr h (findBuddy_mem h.shows hfind) hf

/-- A line in the log. -/
theorem logEvent_intact (h : Intact ns n online w) (event : LogEvent) (sn : Str)
    (msg : Option Str) : Intact ns n online (w.logEvent event sn msg) := by
  rw [World.logEvent]
  split
  · rw [h.findBuddy_eq]
    simp only
    split
    · exact h
    · exact h.traced _
  · exact h

section
variable [Host]

/-- A message goes out. -/
theorem imSend_intact (h : Intact ns n online w) (whom text : Str) (automsg : Bool) :
    Intact ns n online (w.imSend whom text automsg) := by
  obtain ⟨link, seqnum, snacreq, isidle, hsend⟩ : SendFrame w.handle
      (imcommImSendMessage w.handle whom text automsg) := snacSendpkt_frame _ _ _ _ _
  refine ⟨h.running, h.shows, h.count, ?_⟩
  rw [World.imSend, hsend]
  exact h.lib

/-! ## libotr -/

/-- A crashed client does nothing. -/
theorem otrAct_crashed (h : w.client.crash.isSome) (target : Option Ptr) (a : OtrAction) :
    w.otrAct target a = w := by
  simp [World.otrAct, World.alive, h]

/-- What libotr does keeps everything, unless it trips. -/
theorem otrAct_intact (h : Intact ns n online w) {target : Option Ptr}
    (htarget : ∀ p ∈ target, p ∈ ns.map Prod.fst) {a : OtrAction} (hno : ¬ Trips w a) :
    Intact ns n online (w.otrAct target a) := by
  rw [World.otrAct, World.alive_of_running h.running]
  cases a with
  | context k context => exact ⟨h.running, h.shows, h.count, h.lib⟩
  | store k =>
      cases target with
      | none => exact h
      | some p => exact updateBuddy_intact_otr h (htarget p rfl) fun _ => rfl
  | inject recipient message =>
      have hconn : w.client.conn.conn = true := by
        by_contra hconn
        exact hno (.inject recipient message (Bool.eq_false_of_not_eq_true hconn))
      simp only [World.otrInjectMsgCb, if_pos hconn]
      exact imSend_intact (h.traced _) _ _ _
  | goneSecure k =>
      simp only [World.otrSecureCb]
      split
      · exact withBuddy_intact_otr h _ fun _ => rfl
      · exact h
  | goneInsecure k => exact withBuddy_intact_otr h _ fun _ => rfl
  | smpEvent event k =>
      cases event with
      | askForSecret => exact withBuddy_intact_otr h _ fun _ => rfl
      | askForAnswer => exact withBuddy_intact_otr h _ fun _ => rfl
      | success =>
          have hset (context : ConnContext) : Intact ns n online (w.setContext k context) :=
            ⟨h.running, h.shows, h.count, h.lib⟩
          simp only [World.otrSmpEventCb]
          cases hfind : w.client.findBuddy (w.client.contexts k).username with
          | none => simp [h.findBuddy_eq] at hfind
          | some p =>
              cases p with
              | none => exact absurd (.success k hfind) hno
              | some p =>
                  exact updateBuddy_intact_otr (hset _) (findBuddy_mem h.shows hfind) fun _ => rfl
      | inProgress => exact h
      | abort => exact h
      | failure => exact h
      | cheated => exact h
      | error => exact h

/-- What trips ends the client. -/
theorem otrAct_trips (h : w.client.crash = none) (target : Option Ptr) {a : OtrAction}
    (htrips : Trips w a) : (w.otrAct target a).client.crash = some .null := by
  rw [World.otrAct, World.alive_of_running h]
  cases htrips with
  | inject recipient message hconn =>
      simp [World.otrInjectMsgCb, hconn, World.crashes, World.traced, h]
  | success k hstranger =>
      simp only [World.otrSmpEventCb]
      rw [show w.client.findBuddy (w.client.contexts k).username = some none from hstranger]
      simp [World.crashes, h]

/-- One thing that libotr does. -/
theorem otrAct_settles (h : Intact ns n online w) {target : Option Ptr}
    (htarget : ∀ p ∈ target, p ∈ ns.map Prod.fst) (a : OtrAction) :
    Settles (Intact ns n online) (w.otrAct target a) := by
  by_cases htrips : Trips w a
  · exact Or.inl (otrAct_trips h.running target htrips)
  · exact Or.inr (otrAct_intact h htarget htrips)

/-- **A call of libotr** keeps everything. -/
theorem otrCall_settles (h : Intact ns n online w) {target : Option Ptr}
    (htarget : ∀ p ∈ target, p ∈ ns.map Prod.fst) (actions : List OtrAction) :
    Settles (Intact ns n online) (w.otrCall target actions) := by
  have hfold : ∀ w, Settles (Intact ns n online) w →
      Settles (Intact ns n online) (actions.foldl (fun w a => w.otrAct target a) w) := by
    induction actions with
    | nil => exact fun w hw => hw
    | cons a actions ih =>
        intro w hw
        apply ih
        cases hw with
        | inl hnull =>
            have hsame : w.otrAct target a = w := otrAct_crashed (by rw [hnull]; rfl) target a
            left
            simp only [hsame, hnull]
        | inr hintact => exact otrAct_settles hintact htarget a
  exact hfold _ (Or.inr ⟨h.running, h.shows, h.count, h.lib⟩)

/-! ## incoming messages -/

/-- The first part of `getmessage`. -/
theorem receiveOtr_settles (h : Intact ns n online w) (libotr : Libotr) (who message : Str) :
    Settles (Intact ns n online) (receiveOtr libotr w who message).1 := by
  rw [receiveOtr]
  split
  · rw [h.findBuddy_eq]
    simp only
    split
    · next p buddy hp hbuddy =>
      split
      · have htarget : ∀ q ∈ some p, q ∈ ns.map Prod.fst := by
          intro q hq
          rw [Option.mem_some_iff] at hq
          rw [← hq]
          exact findBuddy_mem h.shows ((h.findBuddy_eq who).trans (congrArg some hp))
        have hcall := otrCall_settles h htarget
          (libotr.receiving w.client buddy.sn message).actions
        split
        · exact hcall
        · split
          · exact hcall
          · split
            · exact hcall
            · cases hcall with
              | inl hnull =>
                  left
                  rw [World.crashes, if_pos (by rw [hnull]; rfl)]
                  exact hnull
              | inr hintact => exact hintact.crashes_null
      · exact Or.inr h
    · exact Or.inr h
  · exact Or.inr h

/-- The list of those who wait for an answer says nothing about the buddies. -/
theorem awaitAnswer_settles (h : Intact ns n online w) (who : Str) (automessage : Bool) :
    Settles (Intact ns n online) (awaitAnswer w who automessage) := by
  rw [awaitAnswer]
  have hwait : Intact ns n online
      { w with client := { w.client with waiting := w.client.waiting ++ [who] } } :=
    ⟨h.running, h.shows, h.count, h.lib⟩
  split
  · exact Or.inr h
  · simp only
    split
    · split
      · exact Or.inr (imSend_intact hwait _ _ _)
      · exact hwait.crashes_null
    · exact Or.inr hwait

omit [Host] in
/-- Nor does the last correspondent. -/
theorem setLastsn_intact (h : Intact ns n online w) (sn : Str) :
    Intact ns n online (setLastsn w sn) := by
  rw [setLastsn]
  split
  · exact h
  · exact ⟨h.running, h.shows, h.count, h.lib⟩

/-- **An incoming message** keeps everything. -/
theorem getmessage_settles (h : Intact ns n online w) (libotr : Libotr) (who : Str)
    (automessage : Bool) (message : Str) :
    Settles (Intact ns n online) (getmessage libotr w who automessage message) := by
  rw [getmessage]
  refine Settles.alive (receiveOtr_settles h libotr who message) fun w h => ?_
  split
  · exact Or.inr h
  · exact Settles.alive (awaitAnswer_settles (setLastsn_intact h _) _ _) fun w h =>
      Or.inr (logEvent_intact h _ _ _)

/-! ## coming, going, changing -/

end

/-- No node has a name, or there is a first one. -/
theorem first_named (ns : List (Ptr × Buddy)) (sn : Str) :
    (∀ x ∈ ns, x.2.sn ≠ sn) ∨ ∃ as p b bs, ns = as ++ (p, b) :: bs ∧ b.sn = sn ∧
      ∀ x ∈ as, x.2.sn ≠ sn := by
  cases hfind : ns.find? (isNamed sn) with
  | none => exact Or.inl (by simpa [isNamed] using List.find?_eq_none.mp hfind)
  | some x =>
      obtain ⟨p, b⟩ := x
      obtain ⟨hname, as, bs, hns, hfirst⟩ := List.find?_eq_some_iff_append.mp hfind
      exact Or.inr ⟨as, p, b, bs, hns, by simpa [isNamed] using hname,
        by simpa [isNamed] using hfirst⟩

/-- The first node with a name is found. -/
theorem findBuddy_first (h : Intact (as ++ (p, b) :: bs) n online w) {who : Str}
    (hname : b.sn = simplifySn who) (hfirst : ∀ x ∈ as, x.2.sn ≠ simplifySn who) :
    w.client.findBuddy who = some (some p) := by
  have hnone : as.find? (isNamed (simplifySn who)) = none :=
    List.find?_eq_none.mpr fun x hx => by simpa [isNamed] using hfirst x hx
  rw [h.findBuddy_eq, List.find?_append, hnone, Option.none_or, List.find?_cons, isNamed,
    decide_eq_true hname]
  rfl

/-- No node has the name. -/
theorem findBuddy_absent (h : Intact ns n online w) {who : Str}
    (habsent : ∀ x ∈ ns, x.2.sn ≠ simplifySn who) : w.client.findBuddy who = some none := by
  have hnone : ns.find? (isNamed (simplifySn who)) = none :=
    List.find?_eq_none.mpr fun x hx => by simpa [isNamed] using habsent x hx
  rw [h.findBuddy_eq, hnone]
  rfl

/-- A store into the first node with a name. -/
theorem withBuddy_intact (h : Intact (as ++ (p, b) :: bs) n online w) {who : Str}
    (hname : b.sn = simplifySn who) (hfirst : ∀ x ∈ as, x.2.sn ≠ simplifySn who)
    {f : Buddy → Buddy} (hf : ∀ a : Buddy, (f a).shown = f a.shown) :
    Intact (as ++ (p, f b) :: bs) n online (w.withBuddy who f) := by
  rw [World.withBuddy, findBuddy_first h hname hfirst]
  exact updateBuddy_intact h fun a ha => by rw [hf, ha]

/-- The pointer work of `buddy_online`. -/
theorem insertBuddy_eq {c : Client} {xs : List (Ptr × Buddy)}
    (hl : IsList c.heap c.buddylist xs) (sname : Str) :
    ∃ heap head, c.insertBuddy sname =
        some ({ c with heap := heap, buddylist := head }, c.heap.brk) ∧
      IsList heap head (xs.takeWhile (fun x => !isAfter sname x) ++
        (c.heap.brk, (c.fresh c.heap.brk).val) :: xs.dropWhile fun x => !isAfter sname x) := by
  have hfind : c.heap.find (fun trav => sname < trav.sn) (c.heap.brk + 1) c.buddylist =
      some ((xs.dropWhile fun x => !isAfter sname x).head?.map Prod.fst) := by
    rw [find_eq hl, ← List.find?_eq_head?_dropWhile_not]
    rfl
  have hsplit : xs = xs.takeWhile (fun x => !isAfter sname x) ++
      xs.dropWhile fun x => !isAfter sname x := List.takeWhile_append_dropWhile.symm
  have halloc := alloc_isList hl (c.fresh c.heap.brk)
  have hnew := brk_notMem hl
  rw [hsplit] at halloc hnew
  obtain ⟨heap, head, hinsert, hl', -⟩ := insertAt_isList halloc
    (Function.update_self _ _ _) hnew (Nat.lt_succ_self _)
  refine ⟨heap, head, ?_, hl'⟩
  rw [Client.insertBuddy, hfind]
  have hptr : (c.heap.alloc (c.fresh c.heap.brk)).1 = c.heap.brk := rfl
  simp only [Option.bind_eq_bind, Option.bind_some, hptr, hinsert]
  rfl

/-- **`buddy_online`** puts a node in front of the first greater name; its
idle time is not written. -/
theorem buddyOnline_intact (h : Intact ns n online w) (libotr : Libotr) (who : Str) :
    ∃ p idletime, Intact (ns.takeWhile (fun x => !isAfter (simplifySn who) x) ++
        (p, ⟨simplifySn who, who, false, false, 0, none, idletime⟩) ::
        ns.dropWhile fun x => !isAfter (simplifySn who) x) (n + 1) online
        (buddyOnline libotr w who) := by
  obtain ⟨xs, hl, rfl⟩ := h.shows
  obtain ⟨heap, head, hinsert, hl'⟩ := insertBuddy_eq hl (simplifySn who)
  have hnode : Intact ((xs.map fun x => (x.1, x.2.shown)).takeWhile
      (fun x => !isAfter (simplifySn who) x) ++
        (w.client.heap.brk, (w.client.fresh w.client.heap.brk).val.shown) ::
      (xs.map fun x => (x.1, x.2.shown)).dropWhile fun x => !isAfter (simplifySn who) x) n online
      { w with client := { w.client with heap := heap, buddylist := head } } := by
    refine ⟨h.running, ⟨_, hl', ?_⟩, h.count, h.lib⟩
    rw [List.map_append, List.map_cons, List.takeWhile_map, List.dropWhile_map]
    rfl
  generalize (xs.map fun x => (x.1, x.2.shown)).takeWhile _ = as at hnode ⊢
  generalize (xs.map fun x => (x.1, x.2.shown)).dropWhile _ = bs at hnode ⊢
  generalize w.client.heap.brk = p at hnode hinsert
  generalize Buddy.shown (Cell.val _) = b at hnode
  refine ⟨p, b.idletime, ?_⟩
  generalize hnew : (⟨simplifySn who, who, false, false, 0, none, b.idletime⟩ : Buddy) = b'
  obtain ⟨w', hw', hnamed⟩ : ∃ w', World.updateBuddy
      { w with client := { w.client with heap := heap, buddylist := head } } p (fun b => { b with
        sn := simplifySn who, formattedsn := who, away := false, idle := false, otr := 0 }) = w' ∧
      Intact (as ++ (p, b') :: bs) n online w' :=
    ⟨_, rfl, updateBuddy_intact hnode fun a ha => by rw [← hnew, ← ha]; rfl⟩
  have hcontext : Intact (as ++ (p, b') :: bs) n online (w'.updateBuddy p fun b =>
      { b with otrContext := libotr.contextFind w'.client (simplifySn who) }) :=
    updateBuddy_intact_otr hnamed (by simp) fun _ => rfl
  rw [buddyOnline, hinsert]
  simp only [hw']
  generalize w'.updateBuddy p _ = w' at hcontext ⊢
  have hcount : Intact (as ++ (p, b') :: bs) (n + 1) online
      (w'.setConn { w'.client.conn with buddiesonline := w'.client.conn.buddiesonline + 1 }) :=
    ⟨hcontext.running, hcontext.shows, congrArg (· + 1) hcontext.count, hcontext.lib⟩
  split
  · exact hcount
  · exact logEvent_intact hcount _ _ _

/-- A node leaves the list. -/
theorem unlinkBuddy_intact (h : Intact (as ++ (p, b) :: bs) n online w) :
    Intact (as ++ bs) n online (w.unlinkBuddy p) := by
  obtain ⟨xs, a, ys, hl, rfl, rfl, rfl⟩ := shows_split h.shows
  obtain ⟨heap, head, hunlink, hl', -⟩ := unlink_isList hl
  rw [World.unlinkBuddy, hunlink]
  exact ⟨h.running, ⟨_, hl', List.map_append⟩, h.count, h.lib⟩

theorem countOff_intact (h : Intact ns n online w) : Intact ns (n - 1) online w.countOff :=
  ⟨h.running, h.shows, congrArg (· - 1) h.count, h.lib⟩

/-- **`remove_from_list`** takes out the first node with the name. -/
theorem removeFromList_intact (h : Intact (as ++ (p, b) :: bs) n online w) {who : Str}
    (hname : b.sn = simplifySn who) (hfirst : ∀ x ∈ as, x.2.sn ≠ simplifySn who) :
    Intact (as ++ bs) (n - 1) online (removeFromList w who) := by
  rw [removeFromList, findBuddy_first h hname hfirst]
  exact unlinkBuddy_intact (countOff_intact h)

theorem removeFromList_absent (h : Intact ns n online w) {who : Str}
    (habsent : ∀ x ∈ ns, x.2.sn ≠ simplifySn who) :
    Intact ns n online (removeFromList w who) := by
  rw [removeFromList, findBuddy_absent h habsent]
  exact h

section
variable [Host]

/-- The end of an OTR session. -/
theorem endOtr_settles (h : Intact ns n online w) (libotr : Libotr) (hp : p ∈ ns.map Prod.fst) :
    Settles (Intact ns n online) (endOtr libotr w p) := by
  obtain ⟨buddy, hbuddy, -⟩ := buddyAt_isSome h.shows hp
  rw [endOtr, hbuddy]
  simp only
  split
  · have htarget : ∀ q ∈ (none : Option Ptr), q ∈ ns.map Prod.fst := by simp
    have hcall := otrCall_settles h htarget (libotr.disconnect w.client buddy.sn)
    exact hcall.alive fun w h => Or.inr (updateBuddy_intact_otr h hp fun _ => rfl)
  · exact Or.inr h

/-- **`buddy_offline`** takes out the first node with the name. -/
theorem buddyOffline_settles (h : Intact (as ++ (p, b) :: bs) n online w) (libotr : Libotr)
    {who : Str} (hname : b.sn = simplifySn who) (hfirst : ∀ x ∈ as, x.2.sn ≠ simplifySn who) :
    Settles (Intact (as ++ bs) (n - 1) online) (buddyOffline libotr w who) := by
  rw [buddyOffline, findBuddy_first h hname hfirst]
  refine (endOtr_settles h libotr (by simp)).alive fun w h => ?_
  have hgone := countOff_intact (unlinkBuddy_intact h)
  right
  simp only
  split
  · exact hgone
  · exact logEvent_intact hgone _ _ _

theorem buddyOffline_absent (h : Intact ns n online w) (libotr : Libotr) {who : Str}
    (habsent : ∀ x ∈ ns, x.2.sn ≠ simplifySn who) :
    Intact ns n online (buddyOffline libotr w who) := by
  rw [buddyOffline, findBuddy_absent h habsent]
  exact h

end

end

end Bsflite
