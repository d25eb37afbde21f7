import Bsflite.Fifo
import Bsflite.Hearing

/-!
# Bsflite.Conversation

Any number of clients that talk through a server.  A client types lines with
messages; the server reads what each client wrote, in order, and relays every
message to the client that it is addressed to, whenever it likes.

* `Chat` — the clients, and how far the server has read.
* `Open` — a client whose every word the server can read.
* `CarriedWith` — what goes from one client to another in some steps.
* `conversation` — whatever the order of the steps, what is heard is what was
  typed.
-/

namespace Bsflite

/-! ## the server -/

/-- The data of a SNAC (04,06). -/
def Received.message (r : Received) : Option (List UInt8) :=
  if r.snac.family = 0x04 ∧ r.snac.subtype = 0x06 then some r.snac.data else none

/-- The messages that a server reads from a wire. -/
def messagesOn (wire : List UInt8) : List (List UInt8) :=
  ((receive wire).getD []).filterMap Received.message

/-- The length of the recipient's name. -/
def recipientLen (data : List UInt8) : Nat := (data[10]?.getD 0).toNat

/-- The recipient, behind the cookie, the channel and the length. -/
def recipient (data : List UInt8) : Str := (data.drop 11).take (recipientLen data)

/-- The TLVs of a message. -/
def messageTail (data : List UInt8) : List UInt8 := data.drop (8 + 2 + 1 + recipientLen data)

/-- The clients, and how many messages of each the server has relayed. -/
structure Chat (ι : Type) where
  side : ι → Terminal
  taken : ι → Nat

/-- What happens: to a line that holds `m`, a name and a blank, the strokes are
typed, and it is entered; there was no key for some time; or the server relays
the next message of a client. -/
inductive ChatStep (ι : Type) where
  | types (i : ι) (k : Keyboard) (whom : Str) (strokes : List (Surroundings × UInt8))
  | idles (i : ι) (elapsed : Int)
  | relays (i : ι) (r : Relay)

section
variable [Host]

omit [Host] in
/-- The SNACs of a wire are those that were written. -/
theorem messagesOn_wrote {h₀ h : Imcomm} {out : List SnacBody} (hempty : h₀.link.wire = [])
    (hwrote : Wrote h₀ out h) :
    messagesOn h.link.wire = (out.filter SnacBody.isMessage).map SnacBody.data := by
  rw [messagesOn, hwrote.wire, hempty, List.nil_append, receive_numberBytes _ _ _ hwrote.small,
    Option.getD_some]
  generalize h₀.seqnum = seqnum
  generalize h₀.snacreq = reqid
  clear hwrote
  induction out generalizing seqnum reqid with
  | nil => rfl
  | cons b out ih =>
    rw [number]
    by_cases hb : b.isMessage = true
    · have hmessage : Received.message ⟨0x02, seqnum, ⟨b.family, b.subtype, 0, reqid, b.data⟩⟩ =
          some b.data := if_pos (by simpa [SnacBody.isMessage] using hb)
      rw [List.filterMap_cons_some hmessage, ih, List.filter_cons_of_pos hb, List.map_cons]
    · have hmessage : Received.message ⟨0x02, seqnum, ⟨b.family, b.subtype, 0, reqid, b.data⟩⟩ =
          none := if_neg (by simpa [SnacBody.isMessage] using hb)
      rw [List.filterMap_cons_none hmessage, ih, List.filter_cons_of_neg hb]

/-- A message is read as it was sent. -/
theorem Said.Fits.read {m : Said} (hm : m.Fits) (h : m.text.length < 65536 - 17) :
    recipient m.body.data = m.whom ∧
      messageTail m.body.data = tlvBytes (messageTlvs m.text m.automsg h) := by
  have hwhom := hm.whom
  have htext := hm.text
  have hdata : m.body.data = (imSendMessagePacket m.whom m.text m.automsg).data := by
    refine congrArg SnacBody.data (SnacBody.cut_of_le ?_)
    rw [imSendMessagePacket_data]
    cases m.automsg <;> simp <;> omega
  have hlen : recipientLen m.body.data = m.whom.length := by
    have hget : m.body.data[10]? = some (uint8 m.whom.length) := by
      rw [hdata, imSendMessagePacket_data]
      simp [be32, be16]
    rw [recipientLen, hget, Option.getD_some, uint8, UInt8.toNat_ofNat']
    omega
  constructor
  · rw [recipient, hlen, hdata, imSendMessagePacket_data]
    simp [be32, be16]
  · rw [messageTail, hlen, hdata, imSendMessagePacket_drop _ _ _ h]

end

/-! ## who says what to whom -/

/-- The keyboard shows the beginning of a message, and the strokes are that
message.  No more bytes than 505 leave room for every escape. -/
structure Writes (k : Keyboard) (whom : Str) (strokes : List (Surroundings × UInt8)) : Prop where
  shows : k.Shows ⟨ascii "m" ++ (whom ++ [32]), k.istyping, false⟩
  whom_ne : whom ≠ []
  no_blank : 32 ∉ whom
  whom_le : whom.length ≤ 255
  strokes_ne : strokes ≠ []
  types : ∀ stroke ∈ strokes, Types stroke.2
  room : ∀ before, before <+: strokes →
    (Line.presses ⟨ascii "m" ++ (whom ++ [32]), k.istyping, false⟩ before).text.length ≤ 505

section
variable {ι : Type} [DecidableEq ι] (directory : Str → Option ι)

/-- The server says who the message is from, in a SNAC (04,07) that is not too
long. -/
structure RelaysFor (i : ι) (r : Relay) : Prop where
  sender : directory (simplifySn r.sender) = some i
  header : ∃ flags reqid, r.header.toList =
    be16 0x04 ++ (be16 0x07 ++ (be16 flags ++ be32 reqid))
  info_le : (tlvBytes r.info).length ≤ 60000

def ChatStep.Fits : ChatStep ι → Prop
  | types _ k whom strokes => Writes k whom strokes
  | idles _ _ => True
  | relays i r => RelaysFor directory i r

/-- What a step says to `j`, if `i` types it. -/
def ChatStep.typedTo (i j : ι) : ChatStep ι → Option Str
  | types i' _ whom strokes =>
    if i' = i ∧ directory (simplifySn whom) = some j then
      some (strokes.map fun stroke => typed stroke.2)
    else none
  | idles _ _ => none
  | relays _ _ => none

/-- What `j` is to hear of a message: the text that is shown of it, and whether
it is an automatic response. -/
def Said.reaches (j : ι) (m : Said) : Option (Str × Bool) :=
  if directory (simplifySn m.whom) = some j ∧ stripHtml m.text ≠ [] then
    some (stripHtml m.text, m.automsg)
  else none

/-- What `i` is heard to say. -/
def Heard.fromSender (i : ι) (h : Heard) : Option (Str × Bool) :=
  if directory h.who = some i then some (h.text, h.automsg) else none

/-- A text that is no automatic response. -/
def byHand (m : Str × Bool) : Option Str := if m.2 then none else some m.1

/-- What is on its way from a client. -/
def Chat.pending (c : Chat ι) (i : ι) : List Said := (c.side i).world.client.said.drop (c.taken i)

/-- What `j` has logged of `i`. -/
def Chat.heardFrom (c : Chat ι) (i j : ι) : List (Str × Bool) :=
  (c.side j).world.client.heard.filterMap (Heard.fromSender directory i)

section
variable [Host] [Network] (libotr : Libotr) (respondSmp : Client → Ctx → Str → List OtrAction)
  (o : Outside)

/-- A step; `directory` knows the names of the clients, without blanks and in
lower case. -/
def chatStep (c : Chat ι) : ChatStep ι → Except Fault (Chat ι)
  | .types i k _ strokes => do
    -- the first key ends an idle period
    let t ← happens libotr respondSmp (c.side i) .key
    let k ← pressKeys k strokes
    let t ← happens libotr respondSmp t (.line o (cstr k.inputbuf))
    return { c with side := Function.update c.side i t }
  | .idles i elapsed => do
    let t ← happens libotr respondSmp (c.side i) (.idle elapsed)
    return { c with side := Function.update c.side i t }
  | .relays i r =>
    match (messagesOn (c.side i).world.handle.link.wire)[c.taken i]? with
    | none => return c
    | some data => do
      let taken := Function.update c.taken i (c.taken i + 1)
      match directory (simplifySn (recipient data)) with
      | none => return { c with taken := taken }
      | some j =>
        let t ← happens libotr respondSmp (c.side j) (.payload o (r.payload (messageTail data)))
        return ⟨Function.update c.side j t, taken⟩

def runChat (c : Chat ι) (as : List (ChatStep ι)) : Except Fault (Chat ι) :=
  as.foldlM (chatStep directory libotr respondSmp o) c

end

/-! ## the lines are open -/

section
variable [Host]

/-- The client talks, and the server can read every word of it. -/
structure Open (t : Terminal) : Prop where
  talks : Talks t.world
  wrote : ∃ h₀ out, h₀.link.wire = [] ∧ Wrote h₀ out t.world.handle ∧
    out.filter SnacBody.isMessage = t.world.client.said.map Said.body
  fits : ∀ m ∈ t.world.client.said, m.Fits

theorem Open.messagesOn {t : Terminal} (ht : Open t) :
    messagesOn t.world.handle.link.wire = t.world.client.said.map fun m => m.body.data := by
  obtain ⟨h₀, out, hempty, hwrote, hout⟩ := ht.wrote
  rw [messagesOn_wrote hempty hwrote, hout, List.map_map]
  rfl

theorem Open.talked {t t' : Terminal} (ht : Open t) {ms : List Said} {hs : List Heard}
    (htalked : Talked t.world ms hs t'.world) : Open t' := by
  obtain ⟨h₀, out, hempty, hwrote, hout⟩ := ht.wrote
  obtain ⟨out', hwrote', hout'⟩ := htalked.wrote
  refine ⟨htalked.talks, ⟨h₀, out ++ out', hempty, hwrote.trans hwrote', ?_⟩, ?_⟩
  · rw [List.filter_append, hout, hout', htalked.said, List.map_append]
  · rw [htalked.said]
    exact List.forall_mem_append.mpr ⟨ht.fits, htalked.fits⟩

/-- A fresh line. -/
theorem Open.of_silent {t : Terminal} (htalks : Talks t.world)
    (hwire : t.world.handle.link.wire = []) (hsaid : t.world.client.said = []) : Open t :=
  ⟨htalks, ⟨t.world.handle, [], hwire, .refl _, by rw [hsaid]; rfl⟩,
    by rw [hsaid]; exact List.forall_mem_nil _⟩

end

/-! ## what is carried -/

section

/-- In some steps `i` says `ms`, and `gone` leaves the queue and reaches `j`. -/
structure CarriedWith (as : List (ChatStep ι)) (c c' : Chat ι) (i j : ι) (ms gone : List Said) :
    Prop where
  said : (c'.side i).world.client.said = (c.side i).world.client.said ++ ms
  queue : Passes (c.pending i) ms gone (c'.pending i)
  heard : c'.heardFrom directory i j =
    c.heardFrom directory i j ++ gone.filterMap (Said.reaches directory j)
  typed : (ms.filterMap (Said.reaches directory j)).filterMap byHand =
    as.filterMap (ChatStep.typedTo directory i j)

variable {as as' : List (ChatStep ι)} {c c' c'' : Chat ι} {i j : ι} {ms ms' gone gone' : List Said}

theorem CarriedWith.refl (c : Chat ι) (i j : ι) :
    CarriedWith directory [] c c i j [] [] :=
  ⟨(List.append_nil _).symm, .refl _, (List.append_nil _).symm, rfl⟩

theorem CarriedWith.trans (h1 : CarriedWith directory as c c' i j ms gone)
    (h2 : CarriedWith directory as' c' c'' i j ms' gone') :
    CarriedWith directory (as ++ as') c c'' i j (ms ++ ms') (gone ++ gone') where
  said := by rw [h2.said, h1.said, List.append_assoc]
  queue := h1.queue.trans h2.queue
  heard := by rw [h2.heard, h1.heard, List.filterMap_append, List.append_assoc]
  typed := by simp only [List.filterMap_append, h1.typed, h2.typed]

end

/-! ## a message is typed -/

/-- **The strokes** make a line with a text that is shown as it was typed. -/
theorem Writes.press [Host] {k : Keyboard} {whom : Str} {strokes : List (Surroundings × UInt8)}
    (h : Writes k whom strokes) :
    ∃ k' text, pressKeys k strokes = .ok k' ∧
      cstr k'.inputbuf = ascii "m" ++ (whom ++ 32 :: text) ∧
      stripHtml text = strokes.map (fun stroke => typed stroke.2) ∧
      Said.Fits ⟨whom, text, false⟩ := by
  have hstart : ascii "m" ++ (whom ++ [32]) ≠ [] := List.cons_ne_nil _ _
  obtain ⟨k', hrun, hk'⟩ := pressKeys_line strokes h.shows fun before stroke k' hbefore hrun => by
    have hroom := h.room before ((List.prefix_append _ _).trans hbefore)
    rw [Keyboard.Overflows, (pressKeys_shows h.shows hrun).cstr_inputbuf]
    omega
  obtain ⟨doc, hmeaning, htext⟩ := presses_types
    (l := ⟨ascii "m" ++ (whom ++ [32]), k.istyping, false⟩)
    hstart rfl h.types fun before hbefore => (h.room before hbefore).trans (by decide)
  have hroom := h.room strokes (List.prefix_refl _)
  have hnul := hk'.no_nul
  rw [htext] at hroom hnul
  refine ⟨k', render doc, hrun, ?_, ?_, h.whom_le, ?_, ?_⟩
  · rw [hk'.cstr_inputbuf, htext]
    simp
  · rw [stripHtml_eq_strip, strip_render, hmeaning]
  · rw [List.length_append] at hroom
    show (render doc).length ≤ 1023
    omega
  · exact fun hmem => hnul (List.mem_append_right _ hmem)

section
variable [Host]

/-- What each client has said, when one of them has said something. -/
theorem said_update (side : ι → Terminal) {j : ι} {t : Terminal} {ms : List Said} {hs : List Heard}
    (h : Talked (side j).world ms hs t.world) (i : ι) :
    (Function.update side j t i).world.client.said =
      (side i).world.client.said ++ if i = j then ms else [] := by
  by_cases hij : i = j
  · subst hij
    rw [Function.update_self, h.said, if_pos rfl]
  · rw [Function.update_of_ne hij, if_neg hij, List.append_nil]

/-- What each client has heard. -/
theorem heard_update (side : ι → Terminal) {j : ι} {t : Terminal} {ms : List Said} {hs : List Heard}
    (h : Talked (side j).world ms hs t.world) (i : ι) :
    (Function.update side j t i).world.client.heard =
      (side i).world.client.heard ++ if i = j then hs else [] := by
  by_cases hij : i = j
  · subst hij
    rw [Function.update_self, h.heard, if_pos rfl]
  · rw [Function.update_of_ne hij, if_neg hij, List.append_nil]

/-- The server has relayed no more than what was said, and can read the rest. -/
structure Chat.Open (c : Chat ι) : Prop where
  side : ∀ i, Bsflite.Open (c.side i)
  taken_le : ∀ i, c.taken i ≤ (c.side i).world.client.said.length

theorem Chat.Open.update {c : Chat ι} (hc : c.Open) {j : ι} {t : Terminal} {ms : List Said}
    {hs : List Heard} (h : Talked (c.side j).world ms hs t.world) {taken : ι → Nat}
    (htaken : ∀ i, taken i ≤ (c.side i).world.client.said.length) :
    Chat.Open ⟨Function.update c.side j t, taken⟩ := by
  refine ⟨fun i => ?_, fun i => ?_⟩
  · show Bsflite.Open (Function.update c.side j t i)
    by_cases hij : i = j
    · subst hij
      rw [Function.update_self]
      exact (hc.side i).talked h
    · rw [Function.update_of_ne hij]
      exact hc.side i
  · show taken i ≤ (Function.update c.side j t i).world.client.said.length
    rw [said_update c.side h, List.length_append]
    exact (htaken i).trans (Nat.le_add_right _ _)

variable [Network] (libotr : Libotr) (respondSmp : Client → Ctx → Str → List OtrAction)
  (o : Outside)

/-- What a step does. -/
def Goes (a : ChatStep ι) (c c' : Chat ι) : Prop :=
  c'.Open ∧ ∀ i j, ∃ ms gone, CarriedWith directory [a] c c' i j ms gone

/-- **A line is typed.** -/
theorem types_goes {c : Chat ι} (hc : c.Open) (i : ι) {k : Keyboard} {whom : Str}
    {strokes : List (Surroundings × UInt8)} (h : Writes k whom strokes) :
    ∃ c', chatStep directory libotr respondSmp o c (.types i k whom strokes) = .ok c' ∧
      Goes directory (.types i k whom strokes) c c' := by
  obtain ⟨k', text, hrun, hline, hshown, hm⟩ := h.press
  have hne : strokes.map (fun stroke => typed stroke.2) ≠ [] := by
    rw [Ne, List.map_eq_nil_iff]
    exact h.strokes_ne
  have htext : text ≠ [] := by
    rintro rfl
    exact hne hshown.symm
  have hkey := (hc.side i).talks.endIdle
  have hrunning := (hc.side i).talks.running
  have hrunning' := hkey.talks.running
  have htalked := hkey.trans (Talks.enters libotr respondSmp o
    (t := { c.side i with world := endIdle (c.side i).world }) hkey.talks hm h.whom_ne h.no_blank
    htext)
  rw [List.nil_append, List.append_nil] at htalked
  generalize ht : enters libotr respondSmp o { c.side i with world := endIdle (c.side i).world }
    (ascii "m" ++ (whom ++ 32 :: text)) = t at htalked
  refine ⟨⟨Function.update c.side i t, c.taken⟩, ?_, hc.update htalked hc.taken_le, fun i' j => ?_⟩
  · rw [chatStep, happens, if_neg (by simp [hrunning])]
    simp only [pure_bind, hrun, ok_bind, hline]
    rw [happens, if_neg (by simp [hrunning']), ← ht]
    rfl
  have hsaid := said_update c.side htalked i'
  refine ⟨if i' = i then [⟨whom, text, false⟩] else [], [], hsaid, ?_, ?_, ?_⟩
  · rw [Chat.pending, Chat.pending, hsaid, List.drop_append_of_le_length (hc.taken_le i')]
    exact .push _ _
  · rw [Chat.heardFrom, Chat.heardFrom, heard_update c.side htalked]
    simp
  · by_cases hi : i' = i
    · subst hi
      by_cases hj : directory (simplifySn whom) = some j
      · simp [Said.reaches, byHand, ChatStep.typedTo, hj, hshown, hne]
      · simp [Said.reaches, ChatStep.typedTo, hj]
    · simp [ChatStep.typedTo, hi, Ne.symm hi]

/-- **There was no key**, and nothing is said. -/
theorem idles_goes {c : Chat ι} (hc : c.Open) (i : ι) (elapsed : Int) :
    ∃ c', chatStep directory libotr respondSmp o c (.idles i elapsed) = .ok c' ∧
      Goes directory (.idles i elapsed) c c' := by
  have hrunning := (hc.side i).talks.running
  have htalked : Talked (c.side i).world [] []
      ({ c.side i with world := beginIdle (c.side i).world elapsed } : Terminal).world :=
    (hc.side i).talks.beginIdle elapsed
  refine ⟨⟨Function.update c.side i _, c.taken⟩, ?_, hc.update htalked hc.taken_le, fun i' j => ?_⟩
  · rw [chatStep, happens, if_neg (by simp [hrunning])]
    rfl
  have hsaid := said_update c.side htalked i'
  rw [ite_self] at hsaid
  refine ⟨[], [], hsaid, ?_, ?_, rfl⟩
  · rw [Chat.pending, Chat.pending, hsaid, List.append_nil]
    exact .refl _
  · rw [Chat.heardFrom, Chat.heardFrom, heard_update c.side htalked]
    simp

omit [Host] [Network] in
/-- What `i` is heard to say in a delivery. -/
theorem heardOf_fromSender {i : ι} {r : Relay} (hr : RelaysFor directory i r) (m : Said) {j : ι}
    (hj : directory (simplifySn m.whom) = some j) (i' j' : ι) :
    (if j' = j then heardOf r.sender m.automsg m.text else []).filterMap
        (Heard.fromSender directory i') =
      (if i' = i then [m] else []).filterMap (Said.reaches directory j') := by
  by_cases hi : i' = i
  · subst hi
    by_cases hj' : j' = j
    · subst hj'
      rw [if_pos rfl, if_pos rfl, heardOf]
      by_cases hshown : stripHtml m.text = []
      · simp [Said.reaches, hshown]
      · simp [Said.reaches, Heard.fromSender, hshown, hj, hr.sender]
    · simp [Said.reaches, hj', hj, Ne.symm hj']
  · rw [if_neg hi, heardOf]
    split
    · split
      · rfl
      · simp [Heard.fromSender, hr.sender, Ne.symm hi]
    · rfl

omit [Network] in
/-- A message is relayed: what becomes of the clients. -/
theorem relayed_carries {c c' : Chat ι} (hc : c.Open) {i : ι} {m : Said}
    (hm : (c.side i).world.client.said[c.taken i]? = some m) {said : ι → List Said}
    (hsaid : ∀ i, (c'.side i).world.client.said = (c.side i).world.client.said ++ said i)
    (hauto : ∀ i, ∀ m ∈ said i, m.automsg = true)
    (htaken : c'.taken = Function.update c.taken i (c.taken i + 1))
    (hheard : ∀ i' j, c'.heardFrom directory i' j = c.heardFrom directory i' j ++
      (if i' = i then [m] else []).filterMap (Said.reaches directory j)) (r : Relay) (i' j : ι) :
    ∃ ms gone, CarriedWith directory [.relays i r] c c' i' j ms gone := by
  refine ⟨said i', _, hsaid i', ?_, hheard i' j, ?_⟩
  · rw [Chat.pending, Chat.pending, hsaid, htaken]
    obtain ⟨hlt, hget⟩ := List.getElem?_eq_some_iff.mp hm
    by_cases hi : i' = i
    · subst hi
      rw [Function.update_self, if_pos rfl, List.drop_eq_getElem_cons hlt, hget,
        List.drop_append_of_le_length hlt]
      exact .pop _ _ _
    · rw [Function.update_of_ne hi, if_neg hi, List.drop_append_of_le_length (hc.taken_le i')]
      exact .push _ _
  · have hnone : ((said i').filterMap (Said.reaches directory j)).filterMap byHand = [] := by
      refine List.filterMap_eq_nil_iff.mpr fun p hp => ?_
      obtain ⟨m', hm', hreach⟩ := List.mem_filterMap.mp hp
      rw [Said.reaches] at hreach
      split at hreach
      · rw [← Option.some.inj hreach, byHand, if_pos (hauto i' m' hm')]
      · cases hreach
    rw [hnone]
    rfl

omit [DecidableEq ι] [Host] [Network] in
/-- It fits into a frame. -/
theorem RelaysFor.payload_le {i : ι} {r : Relay} (hr : RelaysFor directory i r) {m : Said}
    (hfits : m.Fits) (hlen : m.text.length < 65536 - 17) :
    (r.payload (tlvBytes (messageTlvs m.text m.automsg hlen))).length ≤ 65535 := by
  have hsender := r.sender_length
  have hinfo := hr.info_le
  have htext := hfits.text
  have htlvs : (tlvBytes (messageTlvs m.text m.automsg hlen)).length ≤ m.text.length + 21 := by
    cases m.automsg <;> simp [messageTlvs, length_messageBlock] <;> omega
  rw [r.length_payload]
  omega

omit [Network] in
/-- The server has no more than what was said when it takes one of them. -/
theorem Chat.Open.taken_succ_le {c : Chat ι} (hc : c.Open) {i : ι} {m : Said}
    (hm : (c.side i).world.client.said[c.taken i]? = some m) (i' : ι) :
    Function.update c.taken i (c.taken i + 1) i' ≤ (c.side i').world.client.said.length := by
  by_cases hi : i' = i
  · subst hi
    rw [Function.update_self]
    exact (List.getElem?_eq_some_iff.mp hm).choose
  · rw [Function.update_of_ne hi]
    exact hc.taken_le i'

/-- **A message is relayed**, if there is one. -/
theorem relays_goes {c : Chat ι} (hc : c.Open) {i : ι} {r : Relay} (hr : RelaysFor directory i r) :
    ∃ c', chatStep directory libotr respondSmp o c (.relays i r) = .ok c' ∧
      Goes directory (.relays i r) c c' := by
  have hread : (messagesOn (c.side i).world.handle.link.wire)[c.taken i]? =
      ((c.side i).world.client.said[c.taken i]?).map fun m => m.body.data := by
    rw [(hc.side i).messagesOn, List.getElem?_map]
  simp only [chatStep, hread]
  cases hm : (c.side i).world.client.said[c.taken i]? with
  | none =>
    refine ⟨c, rfl, hc, fun i' j => ⟨[], [], ?_⟩⟩
    exact ⟨(List.append_nil _).symm, .refl _, (List.append_nil _).symm, rfl⟩
  | some m =>
    have hfits : m.Fits := (hc.side i).fits m (List.mem_of_getElem? hm)
    have hlen : m.text.length < 65536 - 17 := by
      have htext := hfits.text
      omega
    obtain ⟨hrecipient, htail⟩ := hfits.read hlen
    have htaken := hc.taken_succ_le hm
    simp only [Option.map_some, hrecipient, htail]
    cases hj : directory (simplifySn m.whom) with
    | none =>
      refine ⟨⟨c.side, Function.update c.taken i (c.taken i + 1)⟩, rfl, ⟨hc.side, htaken⟩,
        fun i' j => ?_⟩
      have hsaid (i' : ι) : (Chat.side ⟨c.side, Function.update c.taken i (c.taken i + 1)⟩
          i').world.client.said = (c.side i').world.client.said ++ [] := (List.append_nil _).symm
      refine relayed_carries directory hc hm hsaid (fun _ => List.forall_mem_nil _) rfl
        (fun i' j => ?_) r i' j
      have hnone : (if i' = i then [m] else []).filterMap (Said.reaches directory j) = [] := by
        split
        · simp [Said.reaches, hj]
        · rfl
      rw [hnone, List.append_nil]
      rfl
    | some j =>
      obtain ⟨flags, reqid, hheader⟩ := hr.header
      obtain ⟨w', ms, hdecode, htalked, hauto⟩ := (hc.side j).talks.snacDecode libotr
        (errorCallback o) r m.automsg hlen hfits.no_nul (hr.payload_le directory hfits hlen) hheader
      have hupdate : Talked (c.side j).world ms (heardOf r.sender m.automsg m.text)
          ({ c.side j with world := w' } : Terminal).world := htalked
      refine ⟨⟨Function.update c.side j { c.side j with world := w' },
        Function.update c.taken i (c.taken i + 1)⟩, ?_, hc.update hupdate htaken, ?_⟩
      · simp only [happens, (hc.side j).talks.running, hdecode]
        rfl
      · refine relayed_carries directory hc hm (said_update c.side hupdate) (fun i' => ?_) rfl
          (fun i' j' => ?_) r
        · split
          · exact hauto
          · exact List.forall_mem_nil _
        · rw [← heardOf_fromSender directory hr m hj, Chat.heardFrom, heard_update c.side hupdate,
            List.filterMap_append]
          rfl

/-- **A step.** -/
theorem chatStep_goes {c : Chat ι} (hc : c.Open) {a : ChatStep ι} (ha : a.Fits directory) :
    ∃ c', chatStep directory libotr respondSmp o c a = .ok c' ∧ Goes directory a c c' := by
  cases a with
  | types i k whom strokes => exact types_goes directory libotr respondSmp o hc i ha
  | idles i elapsed => exact idles_goes directory libotr respondSmp o hc i elapsed
  | relays i r => exact relays_goes directory libotr respondSmp o hc ha

/-- **What is heard is what was typed**: whatever is typed, and whenever the
server relays what it has read, every client goes on.  What `i` said to `j`
before is, in this order, what `j` logs of it now and what is still on its way;
it is shown as it was typed, and automatic responses are marked. -/
theorem conversation {c : Chat ι} (hc : c.Open) {as : List (ChatStep ι)}
    (has : ∀ a ∈ as, a.Fits directory) :
    ∃ c', runChat directory libotr respondSmp o c as = .ok c' ∧ c'.Open ∧
      ∀ i j, ∃ said heard,
        (c'.side i).world.client.said = (c.side i).world.client.said ++ said ∧
        c'.heardFrom directory i j = c.heardFrom directory i j ++ heard ∧
        (c.pending i ++ said).filterMap (Said.reaches directory j) =
          heard ++ (c'.pending i).filterMap (Said.reaches directory j) ∧
        (said.filterMap (Said.reaches directory j)).filterMap byHand =
          as.filterMap (ChatStep.typedTo directory i j) := by
  suffices h : ∃ c', runChat directory libotr respondSmp o c as = .ok c' ∧ c'.Open ∧
      ∀ i j, ∃ ms gone, CarriedWith directory as c c' i j ms gone by
    obtain ⟨c', hrun, hc', hcarried⟩ := h
    refine ⟨c', hrun, hc', fun i j => ?_⟩
    obtain ⟨ms, gone, hij⟩ := hcarried i j
    refine ⟨ms, _, hij.said, hij.heard, ?_, hij.typed⟩
    rw [List.filterMap_append]
    exact hij.queue.filterMap _
  induction as generalizing c with
  | nil => exact ⟨c, rfl, hc, fun i j => ⟨[], [], .refl directory c i j⟩⟩
  | cons a as ih =>
    rw [List.forall_mem_cons] at has
    obtain ⟨c₁, hstep, hc₁, hfirst⟩ := chatStep_goes directory libotr respondSmp o hc has.1
    obtain ⟨c', hrun, hc', hrest⟩ := ih hc₁ has.2
    refine ⟨c', ?_, hc', fun i j => ?_⟩
    · rw [runChat, List.foldlM_cons, hstep, ok_bind]
      exact hrun
    · obtain ⟨ms, gone, hcarried⟩ := hfirst i j
      obtain ⟨ms', gone', hcarried'⟩ := hrest i j
      exact ⟨_, _, hcarried.trans directory hcarried'⟩

end

end

/-- The names of two clients. -/
def aliceOrBob (sn : Str) : Option Bool :=
  if sn = ascii "alice" then some false else if sn = ascii "bob" then some true else none

/-- Bob is away, and Alice is not. -/
def aliceAndBob : Chat Bool where
  side := fun isbob =>
    { freshTerminal with
      world := { freshTerminal.world with
        client := { startClient with
          conn := { startClient.conn with
            otr := false
            isaway := isbob
            awaymsg := if isbob then some (ascii "gone") else none }
          logging := true } } }
  taken := fun _ => 0

/-- A relay that says who it is from. -/
def relayNamed (sender : Str) (hlen : sender.length ≤ 255) (hnul : 0 ∉ sender) : Relay where
  header := ⟨#[0, 4, 0, 7, 0, 0, 0, 0, 0, 3], rfl⟩
  cookie := ⟨#[8, 7, 6, 5, 4, 3, 2, 1], rfl⟩
  channel := 1
  sender := sender
  warning := 0
  count := 2
  info := []
  sender_length := hlen
  sender_no_nul := hnul
  info_type := List.forall_mem_nil _
  info_not_auto := List.forall_mem_nil _
  info_onlinetime := List.forall_mem_nil _

theorem aliceAndBob_open : @Chat.Open Bool littleEndianHost aliceAndBob := by
  have hcoupled (isbob : Bool) : Coupled (aliceAndBob.side isbob).world :=
    ⟨[], [], ⟨rfl, ⟨[], ⟨⟨none, rfl, rfl⟩, List.nodup_nil, by simp⟩, rfl⟩, rfl, rfl⟩,
      Keyed.Couples.nil, List.forall_mem_nil _⟩
  let host : Host := littleEndianHost
  refine ⟨fun isbob => Open.of_silent ?_ rfl rfl, fun _ => Nat.le_refl 0⟩
  refine ⟨hcoupled isbob, ⟨fun _ _ => rfl, rfl⟩, rfl, rfl, rfl, rfl, rfl,
    fun _ => MsgState.noConfusion, ?_⟩
  intro haway
  obtain rfl : isbob = true := haway
  exact ⟨ascii "gone", rfl, by decide, by decide⟩

/-- Alice, who has been idle, types `hi`, and the server relays that and what Bob's
client answers. -/
def greeting : List (ChatStep Bool) :=
  [.idles false 700, .types false ⟨padded (ascii "mbob "), true, false⟩ (ascii "bob")
      [(⟨[], none, false⟩, 104), (⟨[], none, false⟩, 105)],
    .relays false (relayNamed (ascii "Alice") (by decide) (by decide)),
    .relays true (relayNamed (ascii "Bob") (by decide) (by decide))]

theorem conversation_hi :
    ∃ c', @runChat Bool _ aliceOrBob littleEndianHost refusingNetwork quietLibotr
        (fun _ _ _ => []) emptyOutside aliceAndBob greeting = .ok c' ∧
      c'.heardFrom aliceOrBob false true = [(ascii "hi", false)] ∧
      c'.heardFrom aliceOrBob true false = [(ascii "gone", true)] := by
  have hwrites : Writes ⟨padded (ascii "mbob "), true, false⟩ (ascii "bob")
      [(⟨[], none, false⟩, 104), (⟨[], none, false⟩, 105)] := by
    refine ⟨⟨rfl, by decide, by decide, rfl, rfl⟩, by decide, by decide, by decide, by decide,
      by simp [Types], fun before hbefore => ?_⟩
    rw [← List.mem_inits] at hbefore
    revert before
    decide
  have hrelays {i : Bool} {sender : Str} (hlen : sender.length ≤ 255) (hnul : 0 ∉ sender)
      (hi : aliceOrBob (simplifySn sender) = some i) :
      RelaysFor aliceOrBob i (relayNamed sender hlen hnul) :=
    ⟨hi, ⟨0, 3, rfl⟩, Nat.zero_le _⟩
  obtain ⟨c', hrun, -, -⟩ := @conversation Bool _ aliceOrBob littleEndianHost refusingNetwork
    quietLibotr (fun _ _ _ => []) emptyOutside aliceAndBob aliceAndBob_open greeting
    (List.forall_mem_cons.mpr ⟨trivial, List.forall_mem_cons.mpr ⟨hwrites, List.forall_mem_cons.mpr
      ⟨hrelays (by decide) (by decide) (by decide),
        List.forall_mem_singleton.mpr (hrelays (by decide) (by decide) (by decide))⟩⟩⟩)
  have heval : (@runChat Bool _ aliceOrBob littleEndianHost refusingNetwork quietLibotr
      (fun _ _ _ => []) emptyOutside aliceAndBob greeting).toOption.map
        (fun c' => (c'.heardFrom aliceOrBob false true, c'.heardFrom aliceOrBob true false)) =
      some ([(ascii "hi", false)], [(ascii "gone", true)]) := by
    decide +kernel
  rw [hrun] at heval
  obtain ⟨hbob, halice⟩ := Prod.mk.inj (Option.some.inj heval)
  exact ⟨c', hrun, hbob, halice⟩

end Bsflite
