import Bsflite.Presence

/-!
# Bsflite.Commute

Events about different buddies: the order in which the server's packets come
makes no difference to the buddies that the client lists.

* `process_acts` — a packet faults, or concerns the buddy of one name.
* `events_commute` — two packets about different names, in either order.
-/

namespace Bsflite

open LinkedList Keyed

/-- A packet about a buddy. -/
inductive ServerEvent where
  | signon (data : List UInt8) (len : Nat)
  | signoff (data : List UInt8) (len : Nat)
  | incomingIm (data : List UInt8) (len : Nat)
deriving DecidableEq, Repr

namespace ServerEvent

/-- The screen name in the packet. -/
def sn : ServerEvent → Str
  | signon data _ => packetSn 10 data
  | signoff data _ => packetSn 10 data
  | incomingIm data _ => packetSn 20 data

/-- What the library does with the packet. -/
def process [Host] {σ : Type} (cbs : Callbacks σ) (e : ServerEvent) (w : World σ) :
    Except Fault (World σ × ImcommRet) :=
  match e with
  | signon data len => snacGetSignon cbs w data len
  | signoff data len => snacGetSignoff cbs w data len
  | incomingIm data len => snacGetIncomingIm cbs w data len

end ServerEvent

/-- The same buddies, in the same order, and as many of them counted. -/
structure SameListing (w w' : World Client) : Prop where
  lists : ∃ xs xs', IsList w.client.heap w.client.buddylist xs ∧
    IsList w'.client.heap w'.client.buddylist xs' ∧
    xs.map (fun x => x.2.shown) = xs'.map fun x => x.2.shown
  count : w.client.conn.buddiesonline = w'.client.conn.buddiesonline

theorem sameListing_of_coupled {w w' : World Client} {bs : List Buddy} (h : CoupledWith bs w)
    (h' : CoupledWith bs w') : SameListing w w' := by
  obtain ⟨ns, online, hintact, hm, hbs⟩ := h
  obtain ⟨ns', online', hintact', hm', hbs'⟩ := h'
  obtain ⟨xs, hl, rfl⟩ := hintact.shows
  obtain ⟨xs', hl', rfl⟩ := hintact'.shows
  have hsame := hbs.trans hbs'.symm
  have hlen := congrArg List.length hsame
  simp only [List.length_map] at hlen
  rw [List.map_map, List.map_map] at hsame
  constructor
  · exact ⟨xs, xs', hl, hl', hsame⟩
  · rw [hintact.count, hintact'.count, ← hm.couples.length_eq, ← hm'.couples.length_eq]
    simp [hlen]

section
variable [Host] (libotr : Libotr) (others : Callback → World Client → World Client)

/-- A packet concerns the buddy whose name it has. -/
theorem process_acts (e : ServerEvent) :
    Acts (fun act _ => Concerns (simplifySn e.sn) act) (e.process (bsflite libotr others)) := by
  cases e with
  | signon data len => exact snacGetSignon_acts libotr others data len
  | signoff data len => exact snacGetSignoff_acts libotr others data len
  | incomingIm data len => exact snacGetIncomingIm_acts libotr others data len

end

/-- Two things that concern different buddies. -/
theorem Concerns.comm {k k' : Str} (hne : k ≠ k') {f g : World Client → World Client}
    (hf : Concerns k f) (hg : Concerns k' g) {bs : List Buddy} {w : World Client}
    (h : CoupledWith bs w) :
    (g (f w)).client.crash = some .null ∨ (f (g w)).client.crash = some .null ∨
      SameListing (g (f w)) (f (g w)) := by
  obtain ⟨⟨a, -, ha⟩, hfstays⟩ := hf
  obtain ⟨⟨b, -, hb⟩, hgstays⟩ := hg
  rcases ha bs w h with hnull | ⟨bsf, hbsf, hfa⟩
  · exact Or.inl (hgstays _ hnull)
  rcases hb bs w h with hnull | ⟨bsg, hbsg, hgb⟩
  · exact Or.inr (Or.inl (hfstays _ hnull))
  rcases hb bsf _ hbsf with hnull | ⟨bsfg, hbsfg, hfgb⟩
  · exact Or.inl hnull
  rcases ha bsg _ hbsg with hnull | ⟨bsgf, hbsgf, hgfa⟩
  · exact Or.inr (Or.inl hnull)
  -- all four changes went through
  have hsame : bsfg = bsgf := hfa.comm hne hfgb hgb hgfa
  exact Or.inr (Or.inr (sameListing_of_coupled hbsfg (hsame ▸ hbsgf)))

/-- **Events about different buddies commute**: two packets that are well
formed are so in either order, and leave the same buddies online, unless a
null pointer ends the client on the way. -/
theorem events_commute [Host] (libotr : Libotr) (others : Callback → World Client → World Client)
    {w0 w w1 w2 : World Client} {e e' : ServerEvent} {ret ret' : ImcommRet} (h0 : NoBuddies w0)
    (hrun : PresenceRun libotr others w0 w) (hrunning : w.client.crash = none)
    (hne : simplifySn e.sn ≠ simplifySn e'.sn)
    (he : e.process (bsflite libotr others) w = .ok (w1, ret))
    (he' : e'.process (bsflite libotr others) w = .ok (w2, ret')) :
    ∃ w12 w21, e'.process (bsflite libotr others) w1 = .ok (w12, ret') ∧
      e.process (bsflite libotr others) w2 = .ok (w21, ret) ∧
      (w12.client.crash = some .null ∨ w21.client.crash = some .null ∨ SameListing w12 w21) := by
  obtain ⟨bs, hbs⟩ : ∃ bs, CoupledWith bs w := by
    rcases run_settles libotr others h0 hrun with hnull | hcoupled
    · rw [hrunning] at hnull
      cases hnull
    · exact hcoupled.exists_with
  rcases process_acts libotr others e with ⟨fault, hfault⟩ | ⟨f, out, hf, hact⟩
  · rw [hfault] at he
    cases he
  rcases process_acts libotr others e' with ⟨fault, hfault⟩ | ⟨g, out', hg, hact'⟩
  · rw [hfault] at he'
    cases he'
  rw [hact] at he
  rw [hact'] at he'
  cases he
  cases he'
  exact ⟨_, _, hact' _, hact _, hf.comm hne hg hbs⟩

/-- Bob and Al sign on, in either order. -/
theorem events_commute_signons :
    ∃ w12 w21 : World Client, w12.client.conn.buddiesonline = 2 ∧ SameListing w12 w21 := by
  have hstart : NoBuddies ⟨imcommCreateHandle zeroBlock, startClient, []⟩ :=
    ⟨⟨_, rfl⟩, rfl, rfl, rfl⟩
  obtain ⟨w1, w12, hbob, hal, hrunning, hcount⟩ : ∃ w1 w12,
      receivesSignon ⟨imcommCreateHandle zeroBlock, startClient, []⟩ bobSignon = .ok (w1, .ok) ∧
      receivesSignon w1 alSignon = .ok (w12, .ok) ∧
      w12.client.crash = none ∧ w12.client.conn.buddiesonline = 2 :=
    ⟨_, _, rfl, rfl, rfl, rfl⟩
  obtain ⟨w2, w21, hal', hbob', hrunning'⟩ : ∃ w2 w21,
      receivesSignon ⟨imcommCreateHandle zeroBlock, startClient, []⟩ alSignon = .ok (w2, .ok) ∧
      receivesSignon w2 bobSignon = .ok (w21, .ok) ∧ w21.client.crash = none :=
    ⟨_, _, rfl, rfl, rfl⟩
  let host : Host := littleEndianHost
  let bob : ServerEvent := .signon bobSignon bobSignon.length
  let al : ServerEvent := .signon alSignon alSignon.length
  have hnames : simplifySn bob.sn ≠ simplifySn al.sn := by decide +kernel
  obtain ⟨v12, v21, h12, h21, hsame⟩ :=
    events_commute quietLibotr (fun _ w => w) hstart .start rfl hnames hbob hal'
  obtain rfl : v12 = w12 := congrArg Prod.fst (Except.ok.inj (h12.symm.trans hal))
  obtain rfl : v21 = w21 := congrArg Prod.fst (Except.ok.inj (h21.symm.trans hbob'))
  rw [hrunning, hrunning'] at hsame
  exact ⟨v12, v21, hcount, by simpa using hsame⟩

end Bsflite
