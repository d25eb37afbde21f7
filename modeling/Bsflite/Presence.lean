import Bsflite.Inbound
import Bsflite.Intact
import Bsflite.Keyed
import Bsflite.Online

/-!
# Bsflite.Presence

The two lists of buddies online: `buddies_online` of the library and
`buddylist` of the client, which follows it through the callbacks.

* `Coupled` — the lists hold the same; `CoupledWith` says what they hold.
* `snacGetSignon_acts`, `snacGetSignoff_acts`, `snacGetIncomingIm_acts`,
  `inputDeleteBuddy_becomes` — what an event does to them, at one name only.
* `presence_mirrored` — they hold the same after every run of events.
-/

namespace Bsflite

open LinkedList Keyed

/-! ## packets -/

/-- `run` faults in every state, or acts on every state as `P` says: its data
decide. -/
def Acts {σ ι : Type} (P : (σ → σ) → ι → Prop) (run : σ → Except Fault (σ × ι)) : Prop :=
  (∃ fault, ∀ s, run s = .error fault) ∨ ∃ act out, P act out ∧ ∀ s, run s = .ok (act s, out)

namespace Acts

variable {σ ι τ α : Type}

theorem ok {P : (σ → σ) → ι → Prop} {act : σ → σ} {out : ι} (h : P act out) :
    Acts P fun s => .ok (act s, out) := Or.inr ⟨act, out, h, fun _ => rfl⟩

/-- Nothing is done. -/
theorem skip {P : (σ → σ) → ι → Prop} {out : ι} (h : P id out) : Acts P fun s => .ok (s, out) :=
  Or.inr ⟨id, out, h, fun _ => rfl⟩

/-- Something is read first. -/
theorem read {P : (σ → σ) → ι → Prop} {x : Except Fault α} {run : α → σ → Except Fault (σ × ι)}
    (h : ∀ a, x = .ok a → Acts P (run a)) : Acts P fun s => x >>= fun a => run a s := by
  cases hx : x with
  | error fault => exact Or.inl ⟨fault, fun _ => rfl⟩
  | ok a => exact h a hx

/-- One thing is done after the other. -/
theorem bind {Q : (σ → σ) → Prop} {P : (σ → σ) → τ → Prop} {run : σ → Except Fault (σ × ι)}
    {next : σ × ι → Except Fault (σ × τ)} (h : Acts (fun act _ => Q act) run)
    (hnext : ∀ act out, Q act → Acts P fun s => next (act s, out)) :
    Acts P fun s => run s >>= next := by
  rcases h with ⟨fault, hfault⟩ | ⟨act, out, hact, hrun⟩
  · left
    refine ⟨fault, fun s => ?_⟩
    simp only [hfault]
    rfl
  · simp only [hrun, ok_bind]
    exact hnext act out hact

/-- A loop over TLVs does what its steps do. -/
theorem foldlM {Q : (σ → σ) → Prop} (hid : Q id) (hcomp : ∀ f g, Q f → Q g → Q (g ∘ f))
    {step : σ × ι → Tlv → Except Fault (σ × ι)}
    (hstep : ∀ i t, Acts (fun act _ => Q act) fun s => step (s, i) t) (tlvlist : List Tlv) (i : ι) :
    Acts (fun act _ => Q act) fun s => tlvlist.foldlM step (s, i) := by
  induction tlvlist generalizing i with
  | nil => exact skip hid
  | cons t tlvlist ih =>
      simp only [List.foldlM_cons]
      refine bind (hstep i t) fun f out hf => ?_
      rcases ih out with ⟨fault, hfault⟩ | ⟨g, out', hg, hrun⟩
      · exact Or.inl ⟨fault, fun s => hfault (f s)⟩
      · exact Or.inr ⟨g ∘ f, out', hcomp f g hf hg, fun s => hrun (f s)⟩

end Acts

/-! ## the library -/

/-- `imcomm_im_remove_buddy` takes a buddy off the list of those online. -/
theorem imcommImRemoveBuddy_online [Host] (h : Imcomm) (sn : Str) :
    (imcommImRemoveBuddy h sn).buddiesOnline = (imcommInternalDeleteBuddy h sn).buddiesOnline := by
  simp only [imcommImRemoveBuddy]
  split
  · rfl
  · obtain ⟨link, seqnum, snacreq, isidle, hsend⟩ := sendBatch_frame
      (imcommInternalDeleteBuddy { h with
        buddylist := h.buddylist.eraseP fun trav => trav.sn = imcommSimplifySn sn } sn) _
    rw [ssiChange, hsend]
    rfl

/-! ## the coupling -/

/-- Away, the idle time, and whether it is one. -/
def Buddy.presence (b : Buddy) : Bool × Int × Bool := (b.away, b.idletime, b.idle)

/-- What the client has to say about a buddy online. -/
def OnlineBuddy.presence (t : OnlineBuddy) : Bool × Int × Bool :=
  (t.isaway, t.idletime, decide (10 ≤ t.idletime))

/-- The nodes of the client, by name, and the list of the library hold the
same. -/
structure Matches (ns : List (Ptr × Buddy)) (online : List OnlineBuddy) : Prop where
  couples : Couples (fun x => x.2.sn) (fun x => x.2.presence) OnlineBuddy.sn OnlineBuddy.presence
    ns online
  simplified : ∀ t ∈ online, imcommSimplifySn t.sn = t.sn

section
variable {ns as bs : List (Ptr × Buddy)} {p : Ptr} {b b' : Buddy} {online cs ds : List OnlineBuddy}
  {t t' : OnlineBuddy}

namespace Matches

/-- What is said about a buddy on both lists is the same. -/
theorem presence_eq (hm : Matches (as ++ (p, b) :: bs) (cs ++ t :: ds)) (hkey : b.sn = t.sn) :
    b.presence = t.presence :=
  hm.couples.value_eq (List.mem_append_right as List.mem_cons_self)
    (List.mem_append_right cs List.mem_cons_self) hkey

/-- What is said about a buddy on both lists changes. -/
theorem update (hm : Matches (as ++ (p, b) :: bs) (cs ++ t :: ds)) (hkey : b.sn = t.sn)
    (hb : b'.sn = b.sn) (ht : t'.sn = t.sn) (hpresence : b'.presence = t'.presence) :
    Matches (as ++ (p, b') :: bs) (cs ++ t' :: ds) := by
  constructor
  · exact hm.couples.update hkey hb ht hpresence
  · intro x hx
    rcases List.mem_append.mp hx with hx | hx
    · exact hm.simplified x (List.mem_append_left _ hx)
    · rcases List.mem_cons.mp hx with rfl | hx
      · rw [ht]
        exact hm.simplified t (by simp)
      · exact hm.simplified x (by simp [hx])

/-- A buddy who is on no list comes to both. -/
theorem insert (hm : Matches ns online) {sn : Str} (hnew : ∀ x ∈ ns, x.2.sn ≠ simplifySn sn)
    (hb : b.sn = simplifySn sn) (ht : t.sn = simplifySn sn) (hpresence : b.presence = t.presence) :
    Matches (ns.takeWhile (fun x => !isAfter (simplifySn sn) x) ++ (p, b) ::
      ns.dropWhile fun x => !isAfter (simplifySn sn) x) (online ++ [t]) := by
  have hsplit : ns.takeWhile (fun x => !isAfter (simplifySn sn) x) ++
      ns.dropWhile (fun x => !isAfter (simplifySn sn) x) = ns := List.takeWhile_append_dropWhile
  constructor
  · apply Couples.insert
    · rw [hsplit]
      exact hm.couples
    · exact hb.trans ht.symm
    · exact hpresence
    · rw [hsplit]
      intro hmem
      obtain ⟨x, hx, hxb⟩ := List.mem_map.mp hmem
      exact hnew x hx (hxb.trans hb)
    · intro x hx
      have hnot := List.mem_takeWhile_imp hx
      simpa [isAfter, hb] using hnot
    · intro x hx
      have hafter := List.head?_dropWhile_not (fun x => !isAfter (simplifySn sn) x) ns
      rw [Option.mem_def.mp hx] at hafter
      simpa [isAfter, hb] using hafter
  · intro x hx
    rcases List.mem_append.mp hx with hx | hx
    · exact hm.simplified x hx
    · rw [List.mem_singleton.mp hx, ht]
      exact imcommSimplifySn_idem sn

/-- A buddy leaves both lists. -/
theorem remove (hm : Matches (as ++ (p, b) :: bs) (cs ++ t :: ds)) (hkey : b.sn = t.sn) :
    Matches (as ++ bs) (cs ++ ds) := by
  constructor
  · exact hm.couples.remove hkey
  · intro x hx
    apply hm.simplified x
    simp only [List.mem_append, List.mem_cons] at hx ⊢
    tauto

/-- Only the names and what is said about them matter. -/
theorem congr_right (hm : Matches ns online) {online' : List OnlineBuddy}
    (hsame : online'.map (fun t => (t.sn, t.presence)) = online.map fun t => (t.sn, t.presence)) :
    Matches ns online' := by
  constructor
  · exact hm.couples.congr_right hsame
  · intro t ht
    have hmem : (t.sn, t.presence) ∈ online.map fun t => (t.sn, t.presence) :=
      hsame ▸ List.mem_map.mpr ⟨t, ht, rfl⟩
    obtain ⟨u, hu, heq⟩ := List.mem_map.mp hmem
    have hsn : u.sn = t.sn := congrArg Prod.fst heq
    rw [← hsn]
    exact hm.simplified u hu

end Matches

end

/-- The client runs, and its list matches that of the library. -/
def Coupled (w : World Client) : Prop :=
  ∃ ns online, Intact ns online.length online w ∧ Matches ns online

/-- The lists match, and the client's is that of the buddies `bs`. -/
def CoupledWith (bs : List Buddy) (w : World Client) : Prop :=
  ∃ ns online, Intact ns online.length online w ∧ Matches ns online ∧ ns.map Prod.snd = bs

/-- The buddies were `bs`; what `f` does to the one of the name `k` has been
done, and nothing else. -/
def Becomes (k : Str) (f : Option Buddy → Option Buddy) (bs : List Buddy) (w : World Client) :
    Prop := ∃ bs', CoupledWith bs' w ∧ Alters Buddy.sn k f bs bs'

theorem Coupled.exists_with {w : World Client} (h : Coupled w) : ∃ bs, CoupledWith bs w := by
  obtain ⟨ns, online, hintact, hm⟩ := h
  exact ⟨_, ns, online, hintact, hm, rfl⟩

theorem CoupledWith.coupled {bs : List Buddy} {w : World Client} (h : CoupledWith bs w) :
    Coupled w := by
  obtain ⟨ns, online, hintact, hm, -⟩ := h
  exact ⟨ns, online, hintact, hm⟩

theorem coupledWith_of_intact {w : World Client} {ns : List (Ptr × Buddy)} {n : Int}
    {online : List OnlineBuddy} (h : Intact ns n online w) (hn : n = online.length)
    (hm : Matches ns online) : CoupledWith (ns.map Prod.snd) w :=
  ⟨ns, online, hn ▸ h, hm, rfl⟩

section
variable {ns as bs : List (Ptr × Buddy)} {p : Ptr} {b b' : Buddy} {online : List OnlineBuddy}
  {k : Str} {f : Option Buddy → Option Buddy}

theorem Matches.ascends (hm : Matches ns online) : Ascends Buddy.sn (ns.map Prod.snd) := by
  have hsorted := hm.couples.sorted
  rwa [Ascends, List.map_map]

theorem ne_map_snd (h : ∀ x ∈ ns, x.2.sn ≠ k) : ∀ b ∈ ns.map Prod.snd, b.sn ≠ k := by
  intro b hb
  obtain ⟨x, hx, rfl⟩ := List.mem_map.mp hb
  exact h x hx

/-- A buddy of the name is changed. -/
theorem Matches.alters_update (hm : Matches (as ++ (p, b') :: bs) online)
    (has : ∀ x ∈ as, x.2.sn ≠ k) (hb : b.sn = k) (hb' : b'.sn = k) (hf : f (some b) = some b') :
    Alters Buddy.sn k f ((as ++ (p, b) :: bs).map Prod.snd)
      ((as ++ (p, b') :: bs).map Prod.snd) := by
  have hsorted := hm.ascends
  rw [List.map_append, List.map_cons] at hsorted ⊢
  rw [List.map_append, List.map_cons]
  exact Alters.update hsorted (ne_map_snd has) hb hb' hf

/-- A buddy of the name comes. -/
theorem Matches.alters_insert (hm : Matches (as ++ (p, b) :: bs) online)
    (hnew : ∀ x ∈ as ++ bs, x.2.sn ≠ k) (hb : b.sn = k) (hf : f none = some b) :
    Alters Buddy.sn k f ((as ++ bs).map Prod.snd) ((as ++ (p, b) :: bs).map Prod.snd) := by
  have hsorted := hm.ascends
  have hnew' := ne_map_snd hnew
  rw [List.map_append, List.map_cons] at hsorted
  rw [List.map_append] at hnew'
  rw [List.map_append, List.map_append, List.map_cons]
  exact Alters.insert hsorted hnew' hb hf

/-- The buddy of the name goes. -/
theorem Matches.alters_remove {online' : List OnlineBuddy}
    (hm : Matches (as ++ (p, b) :: bs) online) (hm' : Matches (as ++ bs) online') (hb : b.sn = k)
    (hf : f (some b) = none) :
    Alters Buddy.sn k f ((as ++ (p, b) :: bs).map Prod.snd) ((as ++ bs).map Prod.snd) := by
  have hsorted := hm'.ascends
  obtain ⟨has, hbs⟩ := ne_of_nodup hm.couples.nodup_left
  have has' := ne_map_snd has
  have hbs' := ne_map_snd hbs
  rw [List.map_append] at hsorted
  rw [List.map_append, List.map_cons, List.map_append]
  exact Alters.remove hsorted (hb ▸ has') (hb ▸ hbs') hb hf

end

/-- A buddy leaves the library's list; `gone` takes the buddy off the
client's. -/
theorem becomes_delete {bs : List Buddy} {w : World Client} (h : CoupledWith bs w) (sn : Str)
    (handle : Imcomm)
    (hhandle : handle.buddiesOnline = (imcommInternalDeleteBuddy w.handle sn).buddiesOnline)
    (gone : World Client → World Client)
    (hgone : ∀ {as bs p b n online} {w : World Client}, Intact (as ++ (p, b) :: bs) n online w →
      b.sn = simplifySn sn → (∀ x ∈ as, x.2.sn ≠ simplifySn sn) →
      Settles (Intact (as ++ bs) (n - 1) online) (gone w))
    (habsent : ∀ {ns n online} {w : World Client}, Intact ns n online w →
      (∀ x ∈ ns, x.2.sn ≠ simplifySn sn) → Settles (Intact ns n online) (gone w)) :
    Settles (Becomes (simplifySn sn) (fun _ => none) bs) (gone { w with handle := handle }) := by
  obtain ⟨ns, online, hintact, hm, rfl⟩ := h
  by_cases hmem : ∃ t ∈ online, t.sn = imcommSimplifySn sn
  · obtain ⟨t, ht, hsn⟩ := hmem
    obtain ⟨as, ⟨p, b⟩, bs, cs, ds, rfl, rfl, hkey, has, hcs, -⟩ := hm.couples.split ht
    rw [hsn] at has hcs
    rw [imcommInternalDeleteBuddy_found hintact.lib hsn hcs] at hhandle
    have hset : Intact (as ++ (p, b) :: bs) (cs ++ t :: ds).length (cs ++ ds)
        { w with handle := handle } :=
      ⟨hintact.running, hintact.shows, hintact.count, hhandle⟩
    have hlen : ((cs ++ t :: ds).length : Int) - 1 = (cs ++ ds).length := by
      simp only [List.length_append, List.length_cons]
      omega
    have hm' := hm.remove hkey
    cases hgone hset (hkey.trans hsn) has with
    | inl hnull => exact Or.inl hnull
    | inr hleft =>
        exact Or.inr ⟨_, coupledWith_of_intact hleft hlen hm',
          hm.alters_remove hm' (hkey.trans hsn) rfl⟩
  · have hne : ∀ t ∈ online, t.sn ≠ imcommSimplifySn sn := fun t ht hsn => hmem ⟨t, ht, hsn⟩
    rw [imcommInternalDeleteBuddy_absent (by rwa [hintact.lib]), hintact.lib] at hhandle
    have hset : Intact ns online.length online { w with handle := handle } :=
      ⟨hintact.running, hintact.shows, hintact.count, hhandle⟩
    have hnone := hm.couples.notMem_left hne
    cases habsent hset hnone with
    | inl hnull => exact Or.inl hnull
    | inr hleft =>
        exact Or.inr ⟨_, coupledWith_of_intact hleft rfl hm,
          Alters.refl hm.ascends (lookup_absent (ne_map_snd hnone)).symm⟩

section
variable [Host] (libotr : Libotr) (others : Callback → World Client → World Client)
  {w : World Client}

/-- `imcomm_idleinfo`, for a buddy on the list. -/
theorem fire_idleinfo_intact {as bs : List (Ptr × Buddy)} {p : Ptr} {b : Buddy} {n : Int}
    {online : List OnlineBuddy} {sn : Str} (h : Intact (as ++ (p, b) :: bs) n online w)
    (hname : b.sn = simplifySn sn) (hfirst : ∀ x ∈ as, x.2.sn ≠ simplifySn sn) (value : Nat) :
    Intact (as ++ (p, { b with idletime := value, idle := decide (10 ≤ value) }) :: bs) n online
      (w.fire (bsflite libotr others) (.imIdleinfo sn value)) := by
  have hidle (a : Buddy) :
      Buddy.shown { a with idletime := value, idle := decide (10 ≤ value) } =
        { a.shown with idletime := value, idle := decide (10 ≤ value) } := rfl
  rw [fire_bsflite libotr h.running]
  exact withBuddy_intact h hname hfirst hidle

/-- `imcomm_buddyaway` and `imcomm_buddyunaway`, for a buddy on the list. -/
theorem fire_away_intact {as bs : List (Ptr × Buddy)} {p : Ptr} {b : Buddy} {n : Int}
    {online : List OnlineBuddy} {sn : Str} (h : Intact (as ++ (p, b) :: bs) n online w)
    (hname : b.sn = simplifySn sn) (hfirst : ∀ x ∈ as, x.2.sn ≠ simplifySn sn) (isaway : Bool) :
    Intact (as ++ (p, { b with away := isaway }) :: bs) n online
      (w.fire (bsflite libotr others)
        (if isaway then .imBuddyaway sn else .imBuddyunaway sn)) := by
  have haway (v : Bool) (a : Buddy) :
      Buddy.shown { a with away := v } = { a.shown with away := v } := rfl
  rw [fire_bsflite libotr h.running]
  cases isaway with
  | true => exact withBuddy_intact h hname hfirst (haway true)
  | false => exact withBuddy_intact h hname hfirst (haway false)

omit [Host] in
/-- Nothing happens to a buddy who is not on the lists. -/
theorem becomes_absent {ns : List (Ptr × Buddy)} {online : List OnlineBuddy}
    (hintact : Intact ns online.length online w) (hm : Matches ns online) {sn : Str}
    (hne : ∀ t ∈ online, t.sn ≠ imcommSimplifySn sn) (f : Buddy → Buddy) :
    Becomes (simplifySn sn) (Option.map f) (ns.map Prod.snd) w := by
  have hnone : lookup Buddy.sn (ns.map Prod.snd) (simplifySn sn) = none :=
    lookup_absent (ne_map_snd (hm.couples.notMem_left hne))
  exact ⟨_, coupledWith_of_intact hintact rfl hm, Alters.refl hm.ascends (by rw [hnone]; rfl)⟩

/-- What `buddy_idle` stores. -/
def Buddy.idleFor (value : Nat) (b : Buddy) : Buddy :=
  { b with idletime := value, idle := decide (10 ≤ value) }

/-- The idle time of a buddy. -/
theorem updateIdletime_becomes {bs : List Buddy} (h : CoupledWith bs w) (sn : Str) (value : Nat) :
    Becomes (simplifySn sn) (Option.map (Buddy.idleFor value)) bs
      (imcommUpdateBuddyTimes (bsflite libotr others) w sn 1 value) := by
  obtain ⟨ns, online, hintact, hm, rfl⟩ := h
  by_cases hmem : ∃ t ∈ online, t.sn = imcommSimplifySn sn
  · obtain ⟨t, ht, hsn⟩ := hmem
    obtain ⟨as, ⟨p, b⟩, bs, cs, ds, rfl, rfl, hkey, has, hcs, hds⟩ := hm.couples.split ht
    rw [hsn] at has hcs hds
    have hset : Intact (as ++ (p, b) :: bs) (cs ++ t :: ds).length
        (cs ++ { t with idletime := value } :: ds)
        (w.withOnline (cs ++ { t with idletime := value } :: ds)) :=
      ⟨hintact.running, hintact.shows, hintact.count, rfl⟩
    have hcall := fire_idleinfo_intact libotr others hset (hkey.trans hsn) has value
    rw [imcommUpdateBuddyTimes_found _ value hintact.lib hsn hcs hds hcall.lib]
    have haway : b.away = t.isaway := congrArg Prod.fst (hm.presence_eq hkey)
    have hm' : Matches (as ++ (p, b.idleFor value) :: bs)
        (cs ++ { t with idletime := value } :: ds) := by
      apply hm.update hkey
      · rfl
      · rfl
      · simp [Buddy.idleFor, Buddy.presence, OnlineBuddy.presence, haway]
    exact ⟨_, coupledWith_of_intact hcall (by simp) hm',
      hm'.alters_update has (hkey.trans hsn) (hkey.trans hsn) rfl⟩
  · have hne : ∀ t ∈ online, t.sn ≠ imcommSimplifySn sn := fun t ht hsn => hmem ⟨t, ht, hsn⟩
    rw [imcommUpdateBuddyTimes_absent _ _ _ (by rwa [hintact.lib])]
    exact becomes_absent hintact hm hne _

/-- The online time of a buddy. -/
theorem updateOnlinetime_coupledWith {bs : List Buddy} (h : CoupledWith bs w) (sn : Str)
    (value : Nat) :
    CoupledWith bs (imcommUpdateBuddyTimes (bsflite libotr others) w sn 2 value) := by
  obtain ⟨ns, online, hintact, hm, rfl⟩ := h
  obtain ⟨online', hstep, hmap⟩ := imcommUpdateBuddyTimes_onlinetime (bsflite libotr others)
    (f := fun t => (t.sn, t.presence)) (fun _ _ => rfl) w sn value
  rw [hstep]
  rw [hintact.lib] at hmap
  have hlen : online'.length = online.length := by simpa using congrArg List.length hmap
  have hset : Intact ns online.length online' (w.withOnline online') :=
    ⟨hintact.running, hintact.shows, hintact.count, rfl⟩
  exact coupledWith_of_intact hset (by rw [hlen]) (hm.congr_right hmap)

/-- The away state of a buddy. -/
theorem updateAway_becomes {bs : List Buddy} (h : CoupledWith bs w) (sn : Str) (isaway : Bool) :
    Becomes (simplifySn sn) (Option.map fun b => { b with away := isaway }) bs
      (imcommUpdateBuddyAway (bsflite libotr others) w sn isaway) := by
  obtain ⟨ns, online, hintact, hm, rfl⟩ := h
  by_cases hmem : ∃ t ∈ online, t.sn = imcommSimplifySn sn
  · obtain ⟨t, ht, hsn⟩ := hmem
    obtain ⟨as, ⟨p, b⟩, bs, cs, ds, rfl, rfl, hkey, has, hcs, hds⟩ := hm.couples.split ht
    rw [hsn] at has hcs hds
    have haway : b.away = t.isaway := congrArg Prod.fst (hm.presence_eq hkey)
    have hname : b.sn = simplifySn sn := hkey.trans hsn
    by_cases hsame : t.isaway = isaway
    · rw [imcommUpdateBuddyAway_same]
      · have hb : { b with away := isaway } = b := by rw [← hsame, ← haway]
        exact ⟨_, coupledWith_of_intact hintact rfl hm,
          hm.alters_update has hname hname (by simp [hb])⟩
      · rw [hintact.lib]
        intro x hx hxsn
        rcases List.mem_append.mp hx with hx | hx
        · exact absurd hxsn (hcs x hx)
        · rcases List.mem_cons.mp hx with rfl | hx
          · exact hsame
          · exact absurd hxsn (hds x hx)
    · have hset : Intact (as ++ (p, b) :: bs) (cs ++ t :: ds).length
          (cs ++ { t with isaway := isaway } :: ds)
          (w.withOnline (cs ++ { t with isaway := isaway } :: ds)) :=
        ⟨hintact.running, hintact.shows, hintact.count, rfl⟩
      have hcall := fire_away_intact libotr others hset hname has isaway
      rw [imcommUpdateBuddyAway_found _ hintact.lib hsn hcs hsame]
      have hidle : b.presence.2 = t.presence.2 := congrArg Prod.snd (hm.presence_eq hkey)
      have hm' : Matches (as ++ (p, { b with away := isaway }) :: bs)
          (cs ++ { t with isaway := isaway } :: ds) :=
        hm.update hkey rfl rfl (Prod.ext rfl hidle)
      exact ⟨_, coupledWith_of_intact hcall (by simp) hm', hm'.alters_update has hname hname rfl⟩
  · have hne : ∀ t ∈ online, t.sn ≠ imcommSimplifySn sn := fun t ht hsn => hmem ⟨t, ht, hsn⟩
    rw [imcommUpdateBuddyAway_same]
    · exact becomes_absent hintact hm hne _
    · rw [hintact.lib]
      exact fun t ht hsn => absurd hsn (hne t ht)

/-! ## server events -/

/-- What `snac_get_signon` makes of the buddy of the name. -/
def signedOn (sn : Str) (info : SignonInfo) : Option Buddy → Option Buddy
  | some b => some { b.idleFor info.idletime with away := info.isaway }
  | none =>
    some ⟨simplifySn sn, sn, decide (10 ≤ info.idletime), info.isaway, 0, none, info.idletime⟩

/-- A buddy who is new on both lists. -/
theorem signonAnnounce_new {bs : List Buddy} (h : CoupledWith bs w) (sn : Str) (info : SignonInfo)
    (hnew : ∀ t ∈ w.handle.buddiesOnline, t.sn ≠ imcommSimplifySn sn) :
    Becomes (simplifySn sn) (signedOn sn info) bs
      (signonAnnounce (bsflite libotr others) w sn info) := by
  obtain ⟨ns, online, hintact, hm, rfl⟩ := h
  rw [hintact.lib] at hnew
  have habsent : ∀ x ∈ ns, x.2.sn ≠ simplifySn sn := hm.couples.notMem_left hnew
  obtain ⟨t, hadd, htsn, htpresence⟩ : ∃ t,
      imcommInternalAddBuddy w sn info.idletime info.onlinetime info.isaway =
        (w.withOnline (online ++ [t]), true) ∧ t.sn = simplifySn sn ∧
      t.presence = (info.isaway, (info.idletime : Int), decide (10 ≤ info.idletime)) := by
    have hany : online.any (fun trav => imcommSimplifySn sn = trav.sn) = false :=
      List.any_eq_false.mpr fun t ht => by simpa using Ne.symm (hnew t ht)
    refine ⟨⟨imcommSimplifySn sn, info.idletime, info.onlinetime, info.isaway⟩, ?_, rfl, rfl⟩
    rw [imcommInternalAddBuddy, hintact.lib, hany]
    rfl
  have hset : Intact ns online.length (online ++ [t]) (w.withOnline (online ++ [t])) :=
    ⟨hintact.running, hintact.shows, hintact.count, rfl⟩
  -- `imcomm_signon`, then `imcomm_idleinfo`, then `imcomm_buddyaway`
  obtain ⟨w1, hw1, p, idletime, hsignon⟩ : ∃ w1, (w.withOnline (online ++ [t])).fire
      (bsflite libotr others) (.imSignon sn) = w1 ∧ ∃ p idletime,
      Intact (ns.takeWhile (fun x => !isAfter (simplifySn sn) x) ++
        (p, ⟨simplifySn sn, sn, false, false, 0, none, idletime⟩) ::
        ns.dropWhile fun x => !isAfter (simplifySn sn) x)
        (online.length + 1) (online ++ [t]) w1 := by
    rw [fire_bsflite libotr hset.running]
    exact ⟨_, rfl, buddyOnline_intact hset libotr sn⟩
  have hfirst : ∀ x ∈ ns.takeWhile (fun x => !isAfter (simplifySn sn) x), x.2.sn ≠ simplifySn sn :=
    fun x hx => habsent x ((List.takeWhile_sublist _).subset hx)
  have hidle := fire_idleinfo_intact libotr others hsignon rfl hfirst info.idletime
  have hcall : Intact (ns.takeWhile (fun x => !isAfter (simplifySn sn) x) ++
      (p, ⟨simplifySn sn, sn, decide (10 ≤ info.idletime), info.isaway, 0, none, info.idletime⟩) ::
      ns.dropWhile fun x => !isAfter (simplifySn sn) x) (online.length + 1) (online ++ [t])
      (signonAnnounce (bsflite libotr others) w sn info) := by
    simp only [signonAnnounce, hadd, if_true, hw1]
    cases haway : info.isaway with
    | true => exact fire_away_intact libotr others hidle rfl hfirst true
    | false => exact hidle
  have hm' := hm.insert (p := p) (t := t) habsent (b := ⟨simplifySn sn, sn,
    decide (10 ≤ info.idletime), info.isaway, 0, none, info.idletime⟩) rfl htsn (by
      rw [htpresence]
      rfl)
  refine ⟨_, coupledWith_of_intact hcall (by simp) hm', ?_⟩
  have halters := hm'.alters_insert (k := simplifySn sn) (f := signedOn sn info)
    (by rwa [List.takeWhile_append_dropWhile]) rfl rfl
  rwa [List.takeWhile_append_dropWhile] at halters

/-- A buddy who comes, or is on both lists already. -/
theorem signonAnnounce_becomes {bs : List Buddy} (h : CoupledWith bs w) (sn : Str)
    (info : SignonInfo) :
    Becomes (simplifySn sn) (signedOn sn info) bs
      (signonAnnounce (bsflite libotr others) w sn info) := by
  by_cases hmem : ∃ t ∈ w.handle.buddiesOnline, t.sn = imcommSimplifySn sn
  · obtain ⟨t, ht, hsn⟩ := hmem
    have hany : w.handle.buddiesOnline.any (fun trav => imcommSimplifySn sn = trav.sn) = true :=
      List.any_eq_true.mpr ⟨t, ht, decide_eq_true hsn.symm⟩
    have hadd : imcommInternalAddBuddy w sn info.idletime info.onlinetime info.isaway =
        (w, false) := by
      rw [imcommInternalAddBuddy, if_pos hany]
    obtain ⟨bs', hidle, halters⟩ := updateIdletime_becomes libotr others h sn info.idletime
    obtain ⟨bs'', haway, halters'⟩ := updateAway_becomes libotr others hidle sn info.isaway
    have hknown : lookup Buddy.sn bs (simplifySn sn) ≠ none := by
      obtain ⟨ns, online, hintact, hm, rfl⟩ := h
      rw [hintact.lib] at ht
      obtain ⟨as, ⟨p, b⟩, cs, -, -, rfl, -, hkey, has, -⟩ := hm.couples.split ht
      rw [hsn] at has
      have hfound :
          lookup Buddy.sn ((as ++ (p, b) :: cs).map Prod.snd) (simplifySn sn) = some b := by
        rw [List.map_append, List.map_cons]
        exact lookup_middle (ne_map_snd has) (hkey.trans hsn)
      rw [hfound]
      exact Option.some_ne_none b
    simp only [signonAnnounce, hadd]
    refine ⟨bs'', haway, (halters.trans halters').congr ?_⟩
    cases hb : lookup Buddy.sn bs (simplifySn sn) with
    | none => exact absurd hb hknown
    | some b => rfl
  · exact signonAnnounce_new libotr others h sn info fun t ht hsn => hmem ⟨t, ht, hsn⟩

/-! ## what the library does while the client is stopped -/

/-- The client stopped at a null pointer, and stays as it is. -/
def Stays (act : World Client → World Client) : Prop :=
  ∀ w, w.client.crash = some .null → (act w).client.crash = some .null

theorem stays_fire (c : Callback) : Stays fun w => w.fire (bsflite libotr others) c := by
  intro w h
  simp [World.fire, bsflite, World.alive, h]

theorem stays_updateTimes (sn : Str) (type value : Nat) :
    Stays fun w => imcommUpdateBuddyTimes (bsflite libotr others) w sn type value := by
  intro w
  simp only [imcommUpdateBuddyTimes]
  generalize List.range _ = is
  induction is generalizing w with
  | nil => exact id
  | cons i is ih =>
      intro h
      refine ih _ ?_
      unfold imcommUpdateBuddyTimesAt
      split
      · split
        · split
          · exact stays_fire libotr others _ _ h
          · exact h
          · exact h
        · exact h
      · exact h

theorem stays_updateAway (sn : Str) (isaway : Bool) :
    Stays fun w => imcommUpdateBuddyAway (bsflite libotr others) w sn isaway := by
  intro w h
  simp only [imcommUpdateBuddyAway]
  split
  · split
    · exact stays_fire libotr others _ _ h
    · exact h
  · exact h

theorem stays_announce (sn : Str) (info : SignonInfo) :
    Stays fun w => signonAnnounce (bsflite libotr others) w sn info := by
  intro w h
  have hclient : (imcommInternalAddBuddy w sn info.idletime info.onlinetime
      info.isaway).1.client = w.client := by
    simp only [imcommInternalAddBuddy]
    split <;> rfl
  simp only [signonAnnounce]
  generalize imcommInternalAddBuddy w sn _ _ _ = added at hclient
  obtain ⟨w', new⟩ := added
  replace h : w'.client.crash = some .null := hclient ▸ h
  cases new with
  | true =>
      have hidle := stays_fire libotr others (.imIdleinfo sn info.idletime) _
        (stays_fire libotr others (.imSignon sn) w' h)
      simp only [if_true]
      split
      · exact stays_fire libotr others (.imBuddyaway sn) _ hidle
      · exact hidle
  | false =>
      exact stays_updateAway libotr others sn _ _ (stays_updateTimes libotr others sn _ _ w' h)

/-! ## packets and the lists -/

/-- A buddy is listed under the simplified form of the name shown. -/
structure Buddy.Named (b : Buddy) : Prop where
  no_nul : 0 ∉ b.formattedsn
  sn : b.sn = simplifySn b.formattedsn

/-- What `f` makes of a buddy is listed under the right name. -/
def KeepsNames (f : Option Buddy → Option Buddy) : Prop :=
  ∀ o : Option Buddy, (∀ b ∈ o, b.Named) → ∀ b ∈ f o, b.Named

omit [Host] in
theorem keepsNames_map {f : Buddy → Buddy} (hf : ∀ b : Buddy, b.Named → (f b).Named) :
    KeepsNames (Option.map f) := by
  intro o ho b hb
  obtain ⟨a, ha, rfl⟩ := Option.map_eq_some_iff.mp hb
  exact hf a (ho a ha)

omit [Host] in
theorem keepsNames_none : KeepsNames fun _ => none := by
  intro o ho b hb
  cases hb

omit [Host] in
theorem keepsNames_signedOn {sn : Str} (hnul : 0 ∉ sn) (info : SignonInfo) :
    KeepsNames (signedOn sn info) := by
  intro o ho b hb
  cases o with
  | none =>
      cases hb
      exact ⟨hnul, rfl⟩
  | some a =>
      cases hb
      exact ⟨(ho a rfl).no_nul, (ho a rfl).sn⟩

omit [Host] in
/-- The names on a list stay right. -/
theorem Becomes.named {k : Str} {f : Option Buddy → Option Buddy} {bs bs' : List Buddy}
    (hf : KeepsNames f) (halters : Alters Buddy.sn k f bs bs') (hbs : ∀ b ∈ bs, b.Named) :
    ∀ b ∈ bs', b.Named := by
  intro b hb
  have hfound := (mem_iff_lookup halters.ascends).mp hb
  by_cases hk : b.sn = k
  · rw [hk, halters.here] at hfound
    exact hf _ (fun a ha => hbs a (lookup_mem ha)) b hfound
  · rw [halters.elsewhere _ hk] at hfound
    exact hbs b (lookup_mem hfound)

/-- An event that concerns the buddy of the name `k` only. -/
structure Concerns (k : Str) (act : World Client → World Client) : Prop where
  becomes : ∃ f, KeepsNames f ∧ ∀ bs w, CoupledWith bs w → Settles (Becomes k f bs) (act w)
  stays : Stays act

omit [Host] in
/-- What does nothing to the list does nothing to the buddy of a name. -/
theorem Becomes.refl {bs : List Buddy} (h : CoupledWith bs w) (k : Str) : Becomes k id bs w := by
  obtain ⟨ns, online, hintact, hm, rfl⟩ := h
  exact ⟨_, coupledWith_of_intact hintact rfl hm, Alters.refl hm.ascends rfl⟩

/-- The name in a packet, behind its length. -/
def packetSn (i : Nat) (data : List UInt8) : Str :=
  cstr ((data.drop (i + 1)).take (data[i]?.getD 0).toNat)

omit [Host] in
theorem packetSn_eq {i : Nat} {data sn : List UInt8} {snLen : UInt8}
    (hlen : peek data i = .ok snLen) (hsn : peekN data (i + 1) snLen.toNat = .ok sn) :
    cstr sn = packetSn i data := by
  have hget : data[i]? = some snLen := by
    rw [peek] at hlen
    split at hlen
    · next b hb =>
      cases hlen
      exact hb
    · cases hlen
  rw [peekN] at hsn
  split at hsn
  · cases hsn
    rw [packetSn, hget]
    rfl
  · cases hsn

/-- What keeps the lists. -/
structure KeepsLists (act : World Client → World Client) : Prop where
  coupled : ∀ bs w, CoupledWith bs w → CoupledWith bs (act w)
  stays : Stays act

omit [Host] in
theorem keepsLists_id : KeepsLists id := ⟨fun _ _ h => h, fun _ h => h⟩

omit [Host] in
theorem KeepsLists.comp (f g : World Client → World Client) (hf : KeepsLists f)
    (hg : KeepsLists g) : KeepsLists (g ∘ f) :=
  ⟨fun bs w h => hg.coupled bs (f w) (hf.coupled bs w h), fun w h => hg.stays (f w) (hf.stays w h)⟩

theorem keepsLists_onlinetime (sn : Str) (value : Nat) :
    KeepsLists fun w => imcommUpdateBuddyTimes (bsflite libotr others) w sn 2 value :=
  ⟨fun _ _ h => updateOnlinetime_coupledWith libotr others h sn value,
    stays_updateTimes libotr others sn 2 value⟩

omit [Host] in
/-- A loop of such steps. -/
theorem foldlM_keepsLists {ι : Type}
    {step : World Client × ι → Tlv → Except Fault (World Client × ι)}
    (hstep : ∀ i t, Acts (fun act _ => KeepsLists act) fun w => step (w, i) t) (tlvlist : List Tlv)
    (i : ι) : Acts (fun act _ => KeepsLists act) fun w => tlvlist.foldlM step (w, i) :=
  Acts.foldlM keepsLists_id KeepsLists.comp hstep tlvlist i

/-- The loop of `snac_get_signon` sets online times only. -/
theorem signonTlv_acts (sn : Str) (info : SignonInfo) (temp : Tlv) :
    Acts (fun act _ => KeepsLists act)
      fun w => signonTlv (bsflite libotr others) sn (w, info) temp := by
  simp only [signonTlv]
  split
  · exact Acts.read fun v _ => Acts.skip keepsLists_id
  · split
    · refine Acts.read fun flags _ => ?_
      split
      · exact Acts.skip keepsLists_id
      · exact Acts.skip keepsLists_id
    · split
      · exact Acts.read fun v _ => Acts.ok (keepsLists_onlinetime libotr others sn _)
      · exact Acts.skip keepsLists_id

/-- **`snac_get_signon`** concerns the buddy who signs on. -/
theorem snacGetSignon_acts (data : List UInt8) (len : Nat) :
    Acts (fun act _ => Concerns (simplifySn (packetSn 10 data)) act)
      fun w => snacGetSignon (bsflite libotr others) w data len := by
  unfold snacGetSignon
  refine Acts.read fun snLen hlen => Acts.read fun numtlv _ => Acts.read fun sn hsn =>
    Acts.read fun tlvlist _ => ?_
  rw [← packetSn_eq hlen hsn]
  refine Acts.bind (foldlM_keepsLists (signonTlv_acts libotr others (cstr sn)) tlvlist _)
    fun act info hact => ?_
  refine Acts.ok ⟨⟨signedOn (cstr sn) info, keepsNames_signedOn (zero_notMem_cstr sn) info,
    fun bs w h => Or.inr ?_⟩, fun w h => ?_⟩
  · exact signonAnnounce_becomes libotr others (hact.coupled bs w h) (cstr sn) info
  · exact stays_announce libotr others (cstr sn) info (act w) (hact.stays w h)

/-- **`snac_get_signoff`** concerns the buddy who signs off. -/
theorem snacGetSignoff_acts (data : List UInt8) (len : Nat) :
    Acts (fun act _ => Concerns (simplifySn (packetSn 10 data)) act)
      fun w => snacGetSignoff (bsflite libotr others) w data len := by
  unfold snacGetSignoff
  refine Acts.read fun snLen hlen => Acts.read fun sn hsn => ?_
  rw [← packetSn_eq hlen hsn]
  refine Acts.ok ⟨⟨fun _ => none, keepsNames_none, fun bs w h => ?_⟩,
    fun w h => stays_fire libotr others (.imSignoff (cstr sn)) _ (by exact h)⟩
  refine becomes_delete h (cstr sn) (imcommInternalDeleteBuddy w.handle (cstr sn)) rfl
    (fun w => w.fire (bsflite libotr others) (.imSignoff (cstr sn))) ?_ ?_
  · intro as bs p b n online w hintact hname hfirst
    simp only [fire_bsflite libotr hintact.running]
    exact buddyOffline_settles hintact libotr hname hfirst
  · intro ns n online w hintact habsent
    simp only [fire_bsflite libotr hintact.running]
    exact Or.inr (buddyOffline_absent hintact libotr habsent)

/-- The loop of `snac_get_incoming_im` sets online times only. -/
theorem incomingTlv_acts (sn : Str) (autoResp : Bool) (trav : Tlv) :
    Acts (fun act _ => KeepsLists act)
      fun w => incomingTlv (bsflite libotr others) sn (w, autoResp) trav := by
  simp only [incomingTlv]
  split
  · exact Acts.read fun v _ => Acts.ok (keepsLists_onlinetime libotr others sn _)
  · exact Acts.skip keepsLists_id

/-- A message for the client changes nothing on the lists. -/
theorem fire_incoming_settles {bs : List Buddy} (h : CoupledWith bs w) (sn : Str) (autoResp : Bool)
    (msg : Str) :
    Settles (CoupledWith bs) (w.fire (bsflite libotr others) (.imIncoming sn autoResp msg)) := by
  obtain ⟨ns, online, hintact, hm, rfl⟩ := h
  rw [fire_bsflite libotr hintact.running]
  cases getmessage_settles hintact libotr sn autoResp msg with
  | inl hnull => exact Or.inl hnull
  | inr hleft => exact Or.inr (coupledWith_of_intact hleft rfl hm)

/-- The end of `snac_get_incoming_im` changes nothing on the lists. -/
theorem incomingDeliver_acts (sn : Str) (autoResp : Bool) (tlvlist : List Tlv) :
    Acts (fun act _ => (∀ bs w, CoupledWith bs w → Settles (CoupledWith bs) (act w)) ∧ Stays act)
      fun w => incomingDeliver (bsflite libotr others) w sn autoResp tlvlist := by
  unfold incomingDeliver
  split
  · exact Acts.skip ⟨fun _ _ h => Or.inr h, fun _ h => h⟩
  · refine Acts.read fun subtlv _ => ?_
    split
    · exact Acts.skip ⟨fun _ _ h => Or.inr h, fun _ h => h⟩
    · exact Acts.read fun msg _ =>
        Acts.ok ⟨fun _ _ h => fire_incoming_settles libotr others h sn autoResp (cstr msg),
          stays_fire libotr others _⟩

/-- **`snac_get_incoming_im`** concerns the sender. -/
theorem snacGetIncomingIm_acts (data : List UInt8) (len : Nat) :
    Acts (fun act _ => Concerns (simplifySn (packetSn 20 data)) act)
      fun w => snacGetIncomingIm (bsflite libotr others) w data len := by
  unfold snacGetIncomingIm
  refine Acts.read fun snLen hlen => Acts.read fun numtlv _ => Acts.read fun sn hsn =>
    Acts.read fun tlvlist _ => ?_
  rw [← packetSn_eq hlen hsn]
  refine Acts.bind (foldlM_keepsLists (incomingTlv_acts libotr others (cstr sn)) tlvlist false)
    fun act autoResp hact => ?_
  rcases incomingDeliver_acts libotr others (cstr sn) autoResp tlvlist with
    ⟨fault, hfault⟩ | ⟨deliver, ret, ⟨hdeliver, hstays⟩, hrun⟩
  · exact Or.inl ⟨fault, fun w => hfault _⟩
  · have hdone (w : World Client) (f : Option Buddy → Option Buddy) (bs : List Buddy)
        (h : Becomes (simplifySn (cstr sn)) f bs w) :
        Settles (Becomes (simplifySn (cstr sn)) f bs) (deliver w) := by
      obtain ⟨bs', hbs', halters⟩ := h
      rcases hdeliver bs' w hbs' with hnull | hleft
      · exact Or.inl hnull
      · exact Or.inr ⟨bs', hleft, halters⟩
    simp only [hrun]
    cases autoResp with
    | true =>
        exact Acts.ok ⟨⟨id, fun _ ho => ho,
          fun bs w h => hdone _ _ _ (Becomes.refl (hact.coupled bs w h) _)⟩,
          fun w h => hstays _ (hact.stays w h)⟩
    | false =>
        refine Acts.ok ⟨⟨Option.map (Buddy.idleFor 0),
          keepsNames_map fun b hb => ⟨hb.no_nul, hb.sn⟩, fun bs w h => hdone _ _ _ ?_⟩,
          fun w h => ?_⟩
        · exact updateIdletime_becomes libotr others (hact.coupled bs w h) (cstr sn) 0
        · exact hstays _ (stays_updateTimes libotr others _ 1 0 _ (hact.stays w h))

/-- **`input_delete_buddy`** takes the buddy of the name off the lists. -/
theorem inputDeleteBuddy_becomes {bs : List Buddy} (h : CoupledWith bs w) (arg : Str) :
    Settles (fun w' => ∃ f, KeepsNames f ∧ Becomes (simplifySn arg) f bs w')
      (inputDeleteBuddy w arg) := by
  rw [inputDeleteBuddy]
  split
  · rcases becomes_delete h arg _ (imcommImRemoveBuddy_online w.handle arg)
      (fun w => removeFromList w arg)
      (fun hintact hname hfirst => Or.inr (removeFromList_intact hintact hname hfirst))
      (fun hintact habsent => Or.inr (removeFromList_absent hintact habsent)) with hnull | hgone
    · exact Or.inl hnull
    · exact Or.inr ⟨_, keepsNames_none, hgone⟩
  · exact Or.inr ⟨id, fun _ ho => ho, Becomes.refl h _⟩

/-! ## runs -/

/-- What happens to the two lists: packets of the server whose reads stay
inside the packet, the user's command to delete a buddy, and between them
anything that does not concern the lists. -/
inductive PresenceStep : World Client → World Client → Prop
  | signon {w w' : World Client} {data : List UInt8} {len : Nat} {ret : ImcommRet}
      (hok : snacGetSignon (bsflite libotr others) w data len = .ok (w', ret)) : PresenceStep w w'
  | signoff {w w' : World Client} {data : List UInt8} {len : Nat} {ret : ImcommRet}
      (hok : snacGetSignoff (bsflite libotr others) w data len = .ok (w', ret)) : PresenceStep w w'
  | incomingIm {w w' : World Client} {data : List UInt8} {len : Nat} {ret : ImcommRet}
      (hok : snacGetIncomingIm (bsflite libotr others) w data len = .ok (w', ret)) :
      PresenceStep w w'
  | deleteBuddy {w : World Client} (arg : Str) : PresenceStep w (inputDeleteBuddy w arg)
  | between {w w' : World Client} (hcrash : w'.client.crash = w.client.crash)
      (hheap : w'.client.heap = w.client.heap) (hlist : w'.client.buddylist = w.client.buddylist)
      (hcount : w'.client.conn.buddiesonline = w.client.conn.buddiesonline)
      (honline : w'.handle.buddiesOnline = w.handle.buddiesOnline) : PresenceStep w w'

/-- A handle from `imcomm_create_handle`, and a client with no buddies. -/
structure NoBuddies (w : World Client) : Prop where
  handle : ∃ block, w.handle = imcommCreateHandle block
  running : w.client.crash = none
  buddylist : w.client.buddylist = none
  count : w.client.conn.buddiesonline = 0

/-- The worlds that a run from `w` reaches.  A client that crashed does
nothing more. -/
inductive PresenceRun (w : World Client) : World Client → Prop
  | start : PresenceRun w w
  | step {w' w'' : World Client} (h : PresenceRun w w') (hrunning : w'.client.crash = none)
      (hstep : PresenceStep libotr others w' w'') : PresenceRun w w''

omit [Host] in
/-- An event that went through. -/
theorem Acts.concerns {k : Str} {run : World Client → Except Fault (World Client × ImcommRet)}
    (hacts : Acts (fun act _ => Concerns k act) run) {w w' : World Client} {ret : ImcommRet}
    (hok : run w = .ok (w', ret)) {bs : List Buddy} (h : CoupledWith bs w) :
    Settles (fun w' => ∃ f, KeepsNames f ∧ Becomes k f bs w') w' := by
  rcases hacts with ⟨fault, hfault⟩ | ⟨act, out, ⟨⟨f, hnames, hf⟩, -⟩, hrun⟩
  · rw [hfault] at hok
    cases hok
  · rw [hrun] at hok
    cases hok
    rcases hf bs w h with hnull | hbecomes
    · exact Or.inl hnull
    · exact Or.inr ⟨f, hnames, hbecomes⟩

/-- A step does something to the buddy of one name. -/
theorem step_becomes {bs : List Buddy} (h : CoupledWith bs w) {w' : World Client}
    (hstep : PresenceStep libotr others w w') :
    ∃ k, Settles (fun w' => ∃ f, KeepsNames f ∧ Becomes k f bs w') w' := by
  cases hstep with
  | signon hok => exact ⟨_, (snacGetSignon_acts libotr others _ _).concerns hok h⟩
  | signoff hok => exact ⟨_, (snacGetSignoff_acts libotr others _ _).concerns hok h⟩
  | incomingIm hok => exact ⟨_, (snacGetIncomingIm_acts libotr others _ _).concerns hok h⟩
  | deleteBuddy arg => exact ⟨_, inputDeleteBuddy_becomes h arg⟩
  | between hcrash hheap hlist hcount honline =>
      obtain ⟨ns, online, hintact, hm, rfl⟩ := h
      have hshows : w'.client.Shows ns := by
        rw [Client.Shows, hheap, hlist]
        exact hintact.shows
      have hkept : Intact ns online.length online w' :=
        ⟨hcrash.trans hintact.running, hshows, hcount.trans hintact.count,
          honline.trans hintact.lib⟩
      exact ⟨[], Or.inr ⟨id, fun _ ho => ho, Becomes.refl (coupledWith_of_intact hkept rfl hm) _⟩⟩

/-- A run keeps the lists together, and the names on them right. -/
theorem run_named {w0 : World Client} (h0 : NoBuddies w0) (h : PresenceRun libotr others w0 w) :
    Settles (fun w => ∃ bs, CoupledWith bs w ∧ ∀ b ∈ bs, b.Named) w := by
  induction h with
  | start =>
      obtain ⟨block, hblock⟩ := h0.handle
      have hlist : IsList w0.client.heap w0.client.buddylist [] :=
        ⟨⟨none, rfl, h0.buddylist⟩, List.nodup_nil, by simp⟩
      have hintact : Intact [] 0 [] w0 :=
        ⟨h0.running, ⟨[], hlist, rfl⟩, h0.count, by rw [hblock]; rfl⟩
      exact Or.inr ⟨[], ⟨[], [], hintact, ⟨Couples.nil, by simp⟩, rfl⟩, by simp⟩
  | step _ hrunning hstep ih =>
      rcases ih with hnull | ⟨bs, hbs, hnamed⟩
      · rw [hrunning] at hnull
        cases hnull
      · obtain ⟨k, hnull | ⟨f, hf, bs', hbs', halters⟩⟩ := step_becomes libotr others hbs hstep
        · exact Or.inl hnull
        · exact Or.inr ⟨bs', hbs', Becomes.named hf halters hnamed⟩

/-- A run keeps the lists together. -/
theorem run_settles {w0 : World Client} (h0 : NoBuddies w0) (h : PresenceRun libotr others w0 w) :
    Settles Coupled w := by
  rcases run_named libotr others h0 h with hnull | ⟨bs, hbs, -⟩
  · exact Or.inl hnull
  · exact Or.inr hbs.coupled

end

/-- The buddy list of the client, with the nodes `xs`, mirrors that of the
library. -/
structure Mirrored (w : World Client) (xs : List (Ptr × Buddy)) : Prop where
  linked : IsList w.client.heap w.client.buddylist xs
  ascending : (xs.map fun x => x.2.sn).Pairwise (· < ·)
  names : ∀ sn, sn ∈ xs.map (fun x => x.2.sn) ↔ sn ∈ w.handle.buddiesOnline.map OnlineBuddy.sn
  simplified : ∀ x ∈ xs, simplifySn x.2.sn = x.2.sn
  nodup : (w.handle.buddiesOnline.map OnlineBuddy.sn).Nodup
  count : w.client.conn.buddiesonline = xs.length
  away : ∀ x ∈ xs, ∀ t ∈ w.handle.buddiesOnline, x.2.sn = t.sn → x.2.away = t.isaway
  idletime : ∀ x ∈ xs, ∀ t ∈ w.handle.buddiesOnline, x.2.sn = t.sn → x.2.idletime = t.idletime
  idle : ∀ x ∈ xs, ∀ t ∈ w.handle.buddiesOnline, x.2.sn = t.sn → (x.2.idle ↔ 10 ≤ t.idletime)

theorem mirrored_of_coupled {w : World Client} (h : Coupled w) : ∃ xs, Mirrored w xs := by
  obtain ⟨ns, online, hintact, hm⟩ := h
  obtain ⟨xs, hl, rfl⟩ := hintact.shows
  -- what belongs to OTR is no part of the coupling
  have hcouples : Couples (fun x => x.2.sn) (fun x => x.2.presence) OnlineBuddy.sn
      OnlineBuddy.presence xs online := by
    obtain ⟨hsorted, hentries⟩ := hm.couples
    rw [List.map_map] at hsorted hentries
    exact ⟨hsorted, hentries⟩
  have hpresence : ∀ x ∈ xs, ∀ t ∈ online, x.2.sn = t.sn → x.2.presence = t.presence :=
    fun x hx t ht hkey => hcouples.value_eq hx ht hkey
  refine ⟨xs, ?_⟩
  constructor
  · exact hl
  · exact hcouples.sorted
  · intro sn
    rw [hintact.lib]
    exact hcouples.keys_perm.mem_iff
  · intro x hx
    have hmem : x.2.sn ∈ online.map OnlineBuddy.sn :=
      hcouples.keys_perm.mem_iff.mp (List.mem_map.mpr ⟨x, hx, rfl⟩)
    obtain ⟨t, ht, hsn⟩ := List.mem_map.mp hmem
    rw [← hsn]
    exact hm.simplified t ht
  · rw [hintact.lib]
    exact hcouples.nodup_right
  · rw [hintact.count, hcouples.length_eq]
  · intro x hx t ht hkey
    rw [hintact.lib] at ht
    exact congrArg Prod.fst (hpresence x hx t ht hkey)
  · intro x hx t ht hkey
    rw [hintact.lib] at ht
    exact congrArg (fun v => v.2.1) (hpresence x hx t ht hkey)
  · intro x hx t ht hkey
    rw [hintact.lib] at ht
    have hidle : x.2.idle = decide (10 ≤ t.idletime) :=
      congrArg (fun v => v.2.2) (hpresence x hx t ht hkey)
    rw [hidle, decide_eq_true_iff]

/-- **The client's buddies mirror the library's** after every run. -/
theorem presence_mirrored [Host] (libotr : Libotr)
    (others : Callback → World Client → World Client) {w0 w : World Client} (h0 : NoBuddies w0)
    (h : PresenceRun libotr others w0 w) :
    w.client.crash ≠ some .wild ∧ (w.client.crash = none → ∃ xs, Mirrored w xs) := by
  have hsettled := run_settles libotr others h0 h
  constructor
  · intro hwild
    rcases hsettled with hnull | ⟨ns, online, hintact, -⟩
    · rw [hwild] at hnull
      cases hnull
    · rw [hintact.running] at hwild
      cases hwild
  · intro hrunning
    rcases hsettled with hnull | hcoupled
    · rw [hrunning] at hnull
      cases hnull
    · exact mirrored_of_coupled hcoupled

/-- A packet: Bob has been idle for 12 minutes. -/
def bobSignon : List UInt8 :=
  List.replicate 10 0 ++ [3] ++ ascii "Bob" ++ [0, 0, 0, 1, 0, 4, 0, 2, 0, 12]

/-- A packet: Al is away. -/
def alSignon : List UInt8 :=
  List.replicate 10 0 ++ [2] ++ ascii "Al" ++ [0, 0, 0, 1, 0, 1, 0, 2, 0, 0x30]

/-- Packets: Carol comes, and goes. -/
def carolSignon : List UInt8 := List.replicate 10 0 ++ [5] ++ ascii "Carol" ++ [0, 0, 0, 0]

def carolSignoff : List UInt8 := List.replicate 10 0 ++ [5] ++ ascii "Carol"

/-- A handle that receives a packet, for a client that nothing else calls. -/
def receivesSignon (w : World Client) (data : List UInt8) :
    Except Fault (World Client × ImcommRet) :=
  @snacGetSignon littleEndianHost _ (@bsflite littleEndianHost quietLibotr fun _ w => w) w data
    data.length

def receivesSignoff (w : World Client) (data : List UInt8) :
    Except Fault (World Client × ImcommRet) :=
  snacGetSignoff (@bsflite littleEndianHost quietLibotr fun _ w => w) w data data.length

/-- Carol, Bob and Al sign on, and Carol signs off. -/
def visits : Except Fault (World Client × ImcommRet) := do
  let (w, _) ← receivesSignon ⟨imcommCreateHandle zeroBlock, startClient, []⟩ carolSignon
  let (w, _) ← receivesSignon w bobSignon
  let (w, _) ← receivesSignon w alSignon
  receivesSignoff w carolSignoff

theorem visits_run :
    ∃ w, visits = .ok (w, .ok) ∧ w.client.crash = none ∧
      NoBuddies ⟨imcommCreateHandle zeroBlock, startClient, []⟩ ∧
      @PresenceRun littleEndianHost quietLibotr (fun _ w => w)
        ⟨imcommCreateHandle zeroBlock, startClient, []⟩ w := by
  obtain ⟨w1, w2, w3, w, hcarol, hbob, hal, hgone, h1, h2, h3, hvisits, hrunning⟩ :
      ∃ w1 w2 w3 w,
        receivesSignon ⟨imcommCreateHandle zeroBlock, startClient, []⟩ carolSignon =
          .ok (w1, .ok) ∧
        receivesSignon w1 bobSignon = .ok (w2, .ok) ∧
        receivesSignon w2 alSignon = .ok (w3, .ok) ∧
        receivesSignoff w3 carolSignoff = .ok (w, .ok) ∧ w1.client.crash = none ∧
        w2.client.crash = none ∧ w3.client.crash = none ∧ visits = .ok (w, .ok) ∧
        w.client.crash = none :=
    ⟨_, _, _, _, rfl, rfl, rfl, rfl, rfl, rfl, rfl, rfl, rfl⟩
  let host : Host := littleEndianHost
  exact ⟨w, hvisits, hrunning, ⟨⟨_, rfl⟩, rfl, rfl, rfl⟩,
    .step (.step (.step (.step .start rfl (.signon hcarol)) h1 (.signon hbob)) h2 (.signon hal)) h3
      (.signoff hgone)⟩

/-- Bob, who is idle, and Al, who is away, are left. -/
theorem presence_mirrored_bob :
    ∃ w, visits = .ok (w, .ok) ∧
      w.handle.buddiesOnline = [⟨ascii "bob", 12, 0, false⟩, ⟨ascii "al", 0, 0, true⟩] ∧
      w.client.conn.buddiesonline = 2 ∧ w.client.crash = none ∧ ∃ xs, Mirrored w xs := by
  obtain ⟨w, hvisits, hrunning, hstart, hrun⟩ := visits_run
  obtain ⟨w', hvisits', honline, hcount⟩ : ∃ w', visits = .ok (w', .ok) ∧
      w'.handle.buddiesOnline = [⟨ascii "bob", 12, 0, false⟩, ⟨ascii "al", 0, 0, true⟩] ∧
      w'.client.conn.buddiesonline = 2 := ⟨_, rfl, rfl, rfl⟩
  obtain rfl : w' = w := congrArg Prod.fst (Except.ok.inj (hvisits'.symm.trans hvisits))
  exact ⟨w', hvisits, honline, hcount, hrunning,
    (@presence_mirrored littleEndianHost quietLibotr (fun _ w => w) _ _ hstart hrun).2 hrunning⟩

end Bsflite
