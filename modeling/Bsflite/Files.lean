import Bsflite.Lines
import Bsflite.RosterMap
import Bsflite.Turns

/-!
# Bsflite.Files

The files of the user, in `.bsflite`: the profile, the buddies, and the away
messages.

* `userProfile_eq` — the profile is the file, without its NUL bytes.
* `readAwayMessages_eq` — the away messages are the lines in front of the first
  empty one.
* `loadBuddylist_eq` — each line is a buddy, unless it is empty: then
  `load_buddylist` reads in front of its buffer.
-/

namespace Bsflite

/-- The name of a file, for the value of `HOME`. -/
def userFile (home : Option Str) (name : Str) : Str :=
  (home.getD (ascii ".") ++ ascii "/.bsflite/" ++ name).take 1023

/-! ## the profile -/

/-- The profile of a user who has none. -/
def profdef : Str := ascii "<a href=\"http://bsflite.sf.net/\">bsf</a>: ultralight AIM."

/-- `ID_STR` -/
def profileIdStr : Str := ascii ""

/-- The second loop of `set_profile`: a byte is stored at the end of the
string. -/
def profileLoop : List UInt8 → List UInt8 → Except Fault (List UInt8)
  | [], profile => return profile
  | ch :: prof, profile => do
    let n ← bufLen profile
    let profile ← storeN profile n [ch]
    profileLoop prof profile

section
variable [Host]

/-- The text that `set_profile` gives to `imcomm_set_profile`. -/
def userProfile (home : Option Str) (fopen : Files) : Except Fault Str :=
  match fopen (userFile home (ascii "profile")) with
  | none => do
    let profst ← strcpy (malloc (profdef.length + profileIdStr.length + 1)) profdef
    let profst ← strcat profst profileIdStr
    strAt profst 0
  | some prof => do
    let proflen := prof.length + profileIdStr.length + 1
    let profile ← storeN (malloc proflen) 0 (List.replicate proflen 0)
    let profile ← profileLoop prof profile
    let profile ← strcat profile profileIdStr
    strAt profile 0

/-- `set_profile` -/
def setProfile (home : Option Str) (fopen : Files) (h : Imcomm) : Except Fault Imcomm := do
  let profile ← userProfile home fopen
  return Session.imcommSetProfile h profile

end

/-! ## the buddies -/

/-- `if (buf[strlen(buf) - k] == c) buf[strlen(buf) - k] = 0;`: in front of the
buffer there is nothing to read. -/
def cutEnd (c : UInt8) (k : Nat) (buf : List UInt8) : Except Fault (List UInt8) := do
  let n ← bufLen buf
  if n < k then .error .oob
  else
    let b ← peek buf (n - k)
    if b = c then storeN buf (n - k) [0] else return buf

section
variable [Host]

/-- What `load_buddylist` does with a line; the new node of the list has
`garbage` in a field. -/
def loadBuddy (garbage : Nat → UInt16) (s : Imcomm × List UInt8) (line : List UInt8) :
    Except Fault (Imcomm × List UInt8) := do
  let buf ← storeN s.2 0 (terminated line)
  let buf ← cutEnd 13 2 buf
  let buf ← cutEnd 10 1 buf
  let sn ← strAt buf 0
  match imcommImAddBuddy (garbage s.1.buddylist.length) s.1 sn with
  | none => .error .hang
  | some h => return (h, buf)

/-- `load_buddylist` -/
def loadBuddylist (garbage : Nat → UInt16) (home : Option Str) (fopen : Files) (h : Imcomm) :
    Except Fault Imcomm := do
  let filename := userFile home (ascii "buddies")
  let buf ← storeN (malloc 1024) 0 (terminated filename)
  match fopen filename with
  | none => return h
  | some buddy => do
    let s ← forPieces (loadBuddy garbage) 1023 (buddy.length + 1) buddy (h, buf)
    return s.1

end

/-! ## the away messages -/

/-- `tptr = strchr(buf, '\n'); if (tptr != NULL) tptr[0] = 0;` -/
def cutNewline (buf : List UInt8) : Except Fault (List UInt8) := do
  let tptr ← strchr buf 0 10
  match tptr with
  | some i => storeN buf i [0]
  | none => return buf

/-- The loop of `read_away_messages`; at the end of the file nothing is stored
in `buf`. -/
def awayLoop : Nat → List UInt8 → List UInt8 → List Str → Except Fault (List Str)
  | 0, _, _, _ => .error .hang
  | fuel + 1, away, buf, awaymsgs => do
    let buf ← storeN buf 0 (List.replicate 1024 0)
    let (line, rest) := fgets 1023 away
    let buf ← (if away = [] then .ok buf else storeN buf 0 (terminated line))
    let buf ← cutNewline buf
    let n ← bufLen buf
    if n = 0 then return awaymsgs
    else
      let message ← strAt buf 0
      awayLoop fuel rest buf (awaymsgs ++ [message])

/-- `read_away_messages` -/
def readAwayMessages [Host] (home : Option Str) (fopen : Files) (awaymsgs : List Str) :
    Except Fault (List Str) := do
  let filename := userFile home (ascii "awaymessages")
  let buf ← storeN (malloc 1024) 0 (terminated filename)
  match fopen filename with
  | none => return awaymsgs
  | some away => awayLoop (away.length + 1) away buf []

/-- `input_reload_profile` -/
def inputReloadProfile [Host] (home : Option Str) (fopen : Files) (w : World Client) :
    World Client :=
  if w.client.conn.conn then
    match setProfile home fopen w.handle,
      readAwayMessages home fopen w.client.conn.awaymsgs with
    | .ok h, .ok awaymsgs =>
      { w with handle := h }.setConn { w.client.conn with awaymsgs := awaymsgs }
    | _, _ => w.crashes .wild
  else w

/-! ## the profile that is read -/

/-- The bytes that are read fill the zeros, and a NUL fills none. -/
theorem profileLoop_eq (prof : List UInt8) {s : Str} (hs : 0 ∉ s) {room : Nat}
    (hroom : prof.length < room) :
    ∃ left, profileLoop prof (s ++ List.replicate room 0) =
        .ok (s ++ prof.filter (· ≠ 0) ++ List.replicate left 0) ∧ 0 < left := by
  induction prof generalizing s room with
  | nil => exact ⟨room, by simp [profileLoop]; rfl, hroom⟩
  | cons ch prof ih =>
    obtain ⟨room, rfl⟩ := Nat.exists_eq_add_one_of_ne_zero (Nat.ne_zero_of_lt hroom)
    have hlen : bufLen (s ++ List.replicate (room + 1) 0) = .ok s.length := by
      refine HoldsStr.bufLen_eq ⟨hs, List.replicate room 0, ?_⟩
      rw [terminated, List.append_assoc]
      rfl
    have hstore : storeN (s ++ List.replicate (room + 1) 0) s.length [ch] =
        .ok ((s ++ [ch]) ++ List.replicate room 0) := by
      rw [storeN_of_le (by simp), poke_append rfl]
      rfl
    have hshort : prof.length < room := Nat.lt_of_succ_lt_succ hroom
    rw [profileLoop, hlen, ok_bind, hstore, ok_bind]
    by_cases hch : ch = 0
    · have hzero : s ++ [ch] ++ List.replicate room 0 = s ++ List.replicate (room + 1) 0 := by
        rw [hch, List.append_assoc]
        rfl
      have hfilter : (ch :: prof).filter (· ≠ 0) = prof.filter (· ≠ 0) := by simp [hch]
      obtain ⟨left, hloop, hleft⟩ := ih hs (Nat.lt_succ_of_lt hshort)
      exact ⟨left, by rw [hzero, hloop, hfilter], hleft⟩
    · obtain ⟨left, hloop, hleft⟩ := ih (s := s ++ [ch])
        (by simpa [hs] using Ne.symm hch) hshort
      exact ⟨left, by simpa [hch] using hloop, hleft⟩

section
variable [Host]

/-- **The profile**: what the file holds, without its NUL bytes. -/
theorem userProfile_eq (home : Option Str) (fopen : Files) :
    userProfile home fopen =
      .ok ((fopen (userFile home (ascii "profile"))).elim profdef fun prof =>
        prof.filter (· ≠ 0)) := by
  have hid : 0 ∉ profileIdStr := by decide
  have hidlen : profileIdStr.length = 0 := by decide
  have hnil : profileIdStr = [] := List.eq_nil_of_length_eq_zero hidlen
  rw [userProfile]
  cases fopen (userFile home (ascii "profile")) with
  | none =>
    obtain ⟨profst, hcopy, hheld, hlen⟩ :=
      @strcpy_eq (malloc (profdef.length + profileIdStr.length + 1)) profdef (by decide)
        (by rw [length_malloc]; omega)
    rw [length_malloc] at hlen
    obtain ⟨profst', hcat, hheld', -⟩ := hheld.strcat_eq hid (by omega)
    simp only [hcopy, hcat, ok_bind]
    rw [HoldsStr.strAt_eq (i := 0) (by rwa [List.drop_zero]), hnil, List.append_nil]
    rfl
  | some prof =>
    obtain ⟨left, hloop, hleft⟩ :=
      @profileLoop_eq prof [] (by simp) (prof.length + profileIdStr.length + 1) (by omega)
    rw [List.nil_append, List.nil_append] at hloop
    obtain ⟨left, rfl⟩ := Nat.exists_eq_add_one_of_ne_zero hleft.ne'
    have hheld : HoldsStr (prof.filter (· ≠ 0) ++ List.replicate (left + 1) 0)
        (prof.filter (· ≠ 0)) := by
      refine ⟨by simp, List.replicate left 0, ?_⟩
      rw [terminated, List.append_assoc]
      rfl
    obtain ⟨profile, hcat, hheld', -⟩ := hheld.strcat_eq hid (by simp [hidlen])
    simp only [storeN_zeros (length_malloc _), hloop, hcat, ok_bind]
    rw [HoldsStr.strAt_eq (i := 0) (by rwa [List.drop_zero]), hnil, List.append_nil]
    rfl

/-- **`set_profile`** sets it. -/
theorem setProfile_eq (home : Option Str) (fopen : Files) (h : Imcomm) :
    setProfile home fopen h = .ok (Session.imcommSetProfile h
      ((fopen (userFile home (ascii "profile"))).elim profdef fun prof =>
        prof.filter (· ≠ 0))) := by
  rw [setProfile, userProfile_eq]
  rfl

end

/-! ## the buddies that are read -/

/-- The string without its end, if that is the `k`th character from behind. -/
def chop (c : UInt8) (k : Nat) (s : Str) : Option Str :=
  if s.length < k then none
  else some (if s[s.length - k]? = some c then s.take (s.length - k) else s)

/-- The buddy of a line; `none` when there are too few characters. -/
def buddyName (line : List UInt8) : Option Str := chop 13 2 (cstr line) >>= chop 10 1

/-- What `fgets` or `snprintf` leaves in a block: the string ends at the first
NUL. -/
theorem storeN_line {buf line : List UInt8} (hfit : line.length < buf.length) :
    ∃ buf', storeN buf 0 (terminated line) = .ok buf' ∧ HoldsStr buf' (cstr line) ∧
      buf'.length = buf.length := by
  have hroom : 0 + (terminated line).length ≤ buf.length := by
    rw [length_terminated]
    omega
  obtain ⟨buf', hstore, hlen, htake⟩ := storeN_take (terminated line) List.take_zero hroom
  refine ⟨buf', hstore, ⟨zero_notMem_cstr line, (holdsStr_cstr line).front.trans ?_⟩, hlen⟩
  rw [List.nil_append] at htake
  rw [← htake]
  exact List.take_prefix _ _

theorem chop_append (c d : UInt8) (text last : Str) :
    chop c (last.length + 1) (text ++ d :: last) =
      some (if d = c then text else text ++ d :: last) := by
  have hpos : (text ++ d :: last).length - (last.length + 1) = text.length := by simp
  rw [chop, if_neg (by simp; omega), hpos, List.getElem?_append_right (Nat.le_refl _), Nat.sub_self,
    List.getElem?_cons_zero, List.take_left]
  simp only [Option.some_inj]

/-- A line with fewer than two characters, or with a carriage return and one
more. -/
def TooShort (line : List UInt8) : Prop := (cstr line).length < 2 ∨ ∃ c, cstr line = [13, c]

/-- Such a line names no buddy. -/
theorem buddyName_eq_none_iff (line : List UInt8) : buddyName line = none ↔ TooShort line := by
  rw [buddyName, TooShort]
  generalize cstr line = s
  rcases List.eq_nil_or_concat s with rfl | ⟨front, c, rfl⟩
  · exact ⟨fun _ => .inl (by decide), fun _ => rfl⟩
  rcases List.eq_nil_or_concat front with rfl | ⟨text, d, rfl⟩
  · exact ⟨fun _ => .inl (by simp), fun _ => rfl⟩
  have hcr := chop_append 13 d text [c]
  have hlen : ¬ (text ++ [d] ++ [c]).length < 2 := by simp
  rw [List.length_singleton] at hcr
  rw [List.concat_eq_append, List.concat_eq_append, or_iff_right hlen, List.append_assoc,
    List.singleton_append, hcr, Option.bind_eq_bind, Option.bind_some]
  by_cases hd : d = 13
  · -- the carriage return ends the text
    rw [if_pos hd, hd]
    rcases List.eq_nil_or_concat text with rfl | ⟨front, e, rfl⟩
    · exact ⟨fun _ => ⟨c, rfl⟩, fun _ => rfl⟩
    · have hlf := chop_append 10 e front []
      rw [List.length_nil] at hlf
      rw [List.concat_eq_append, hlf]
      refine ⟨fun h => absurd h (Option.some_ne_none _), fun ⟨c', h⟩ => ?_⟩
      have hlen := congrArg List.length h
      simp at hlen
  · have hlf := chop_append 10 c (text ++ [d]) []
    rw [List.length_nil, List.append_assoc, List.singleton_append] at hlf
    rw [if_neg hd, hlf]
    refine ⟨fun h => absurd h (Option.some_ne_none _), fun ⟨c', h⟩ => ?_⟩
    cases text with
    | nil => exact absurd (List.cons.inj h).1 hd
    | cons e text =>
      have hlen := congrArg List.length h
      simp at hlen

/-- A NUL ends the string. -/
theorem HoldsStr.storeN_nul {buf : List UInt8} {s : Str} (h : HoldsStr buf s) {n : Nat}
    (hn : n ≤ s.length) :
    ∃ buf', storeN buf n [0] = .ok buf' ∧ HoldsStr buf' (s.take n) ∧ buf'.length = buf.length := by
  have hpre : buf.take n = s.take n := by
    obtain ⟨tail, rfl⟩ := h.front
    rw [terminated, List.append_assoc, List.take_append_of_le_length hn]
  have hlt := h.length_lt
  obtain ⟨buf', hstore, hheld, hlen⟩ := @storeN_terminated buf _ [] _ hpre
    (by
      rw [List.append_nil]
      exact fun hmem => h.no_nul (List.mem_of_mem_take hmem))
    (by rw [List.length_nil]; omega)
  rw [List.append_nil] at hheld
  exact ⟨buf', hstore, hheld, hlen⟩

/-- A character of the string. -/
theorem HoldsStr.peek_eq {buf : List UInt8} {s : Str} (h : HoldsStr buf s) {i : Nat}
    (hi : i < s.length) : peek buf i = .ok s[i] := by
  obtain ⟨tail, rfl⟩ := h.front
  rw [peek, terminated, List.append_assoc, List.getElem?_append_left hi,
    List.getElem?_eq_getElem hi]

/-- `cutEnd` is `chop`. -/
theorem HoldsStr.cutEnd_some {buf : List UInt8} {s s' : Str} (h : HoldsStr buf s) {c : UInt8}
    {k : Nat} (hk : 0 < k) (hchop : chop c k s = some s') :
    ∃ buf', cutEnd c k buf = .ok buf' ∧ HoldsStr buf' s' ∧ buf'.length = buf.length := by
  rw [chop, Option.ite_none_left_eq_some] at hchop
  obtain ⟨hlong, hs'⟩ := hchop
  have hlt : s.length - k < s.length := by omega
  rw [cutEnd, h.bufLen_eq, ok_bind, if_neg hlong, h.peek_eq hlt, ok_bind]
  rw [List.getElem?_eq_getElem hlt] at hs'
  by_cases hend : s[s.length - k] = c
  · rw [if_pos (congrArg some hend), Option.some_inj] at hs'
    rw [if_pos hend, ← hs']
    exact h.storeN_nul hlt.le
  · rw [if_neg fun h => hend (Option.some.inj h), Option.some_inj] at hs'
    rw [if_neg hend, ← hs']
    exact ⟨buf, rfl, h, rfl⟩

theorem HoldsStr.cutEnd_none {buf : List UInt8} {s : Str} (h : HoldsStr buf s) {c : UInt8}
    {k : Nat} (hchop : chop c k s = none) : cutEnd c k buf = .error .oob := by
  have hshort : s.length < k := by
    by_contra hlong
    rw [chop, if_neg hlong] at hchop
    cases hchop
  rw [cutEnd, h.bufLen_eq, ok_bind, if_pos hshort]

section
variable [Host]

/-- The step of the loop, on the buddies alone. -/
def addLine (garbage : Nat → UInt16) (h : Imcomm) (line : List UInt8) : Except Fault Imcomm :=
  match buddyName line with
  | none => .error .oob
  | some sn => (imcommImAddBuddy (garbage h.buddylist.length) h sn).elim (.error .hang) .ok

theorem loadBuddy_eq (garbage : Nat → UInt16) (h : Imcomm) {buf line : List UInt8}
    (hbuf : buf.length = 1024) (hline : line.length ≤ 1023) :
    ∃ buf', loadBuddy garbage (h, buf) line = (addLine garbage h line).map (·, buf') ∧
      buf'.length = 1024 := by
  obtain ⟨buf₁, hstore, hheld, hlen₁⟩ := @storeN_line buf line (by omega)
  rw [loadBuddy, hstore, ok_bind, addLine, buddyName]
  cases hcr : chop 13 2 (cstr line) with
  | none =>
    rw [hheld.cutEnd_none hcr]
    exact ⟨buf, rfl, hbuf⟩
  | some text =>
    obtain ⟨buf₂, hcut₂, hheld₂, hlen₂⟩ := hheld.cutEnd_some (by decide) hcr
    rw [hcut₂, ok_bind, Option.bind_eq_bind, Option.bind_some]
    cases hlf : chop 10 1 text with
    | none =>
      rw [hheld₂.cutEnd_none hlf]
      exact ⟨buf, rfl, hbuf⟩
    | some sn =>
      obtain ⟨buf₃, hcut₃, hheld₃, hlen₃⟩ := hheld₂.cutEnd_some (by decide) hlf
      rw [hcut₃, ok_bind, HoldsStr.strAt_eq (i := 0) (by rwa [List.drop_zero]), ok_bind]
      refine ⟨buf₃, ?_, by rw [hlen₃, hlen₂, hlen₁, hbuf]⟩
      simp only
      cases imcommImAddBuddy (garbage h.buddylist.length) h sn <;> rfl

/-- **The buddies**: each line of the file is added. -/
theorem loadBuddylist_eq (garbage : Nat → UInt16) (home : Option Str) {fopen : Files}
    {buddy : List UInt8} (hfile : fopen (userFile home (ascii "buddies")) = some buddy)
    (h : Imcomm) :
    loadBuddylist garbage home fopen h = (pieces 1022 buddy).foldlM (addLine garbage) h := by
  have hname : (userFile home (ascii "buddies")).length ≤ 1023 := List.length_take_le _ _
  obtain ⟨buf, hstore, -, hbuf⟩ :=
    @storeN_line (malloc 1024) (userFile home (ascii "buddies")) (by rw [length_malloc]; omega)
  rw [length_malloc] at hbuf
  have hfold {lines : List (List UInt8)} (hlines : ∀ line ∈ lines, line.length ≤ 1023) :
      ∀ {h : Imcomm} {buf : List UInt8}, buf.length = 1024 →
        (lines.foldlM (loadBuddy garbage) (h, buf)).map Prod.fst =
          lines.foldlM (addLine garbage) h := by
    induction lines with
    | nil => exact fun _ => rfl
    | cons line lines ih =>
      intro h buf hbuf
      rw [List.forall_mem_cons] at hlines
      obtain ⟨buf', hline, hbuf'⟩ := loadBuddy_eq garbage h hbuf hlines.1
      rw [List.foldlM_cons, List.foldlM_cons, hline]
      cases addLine garbage h line with
      | error k => rfl
      | ok h' => exact ih hlines.2 hbuf'
  rw [loadBuddylist, hstore, ok_bind, hfile]
  simp only
  rw [forPieces_eq _ 1022 (Nat.lt_succ_self _),
    ← hfold (fun line hline => (length_of_mem_pieces hline).2) hbuf]
  cases (pieces 1022 buddy).foldlM (loadBuddy garbage) (h, buf) <;> rfl

end

/-! ## the list after it -/

/-- What the server is told of a new buddy. -/
def addBodies (b : RosterBuddy) : List SnacBody :=
  changeBodies 0x08 ⟨b.sn, 0x0001, b.ssiId, 0x0000, []⟩

/-- Sends leave the list alone. -/
theorem Sent.withList {h h' : Imcomm} {out : List SnacBody} {idle : Bool} (hs : Sent h out idle h')
    (buddylist : List RosterBuddy) :
    Sent { h with buddylist := buddylist } out idle { h' with buddylist := buddylist } := by
  obtain ⟨writes, rfl⟩ := hs
  exact ⟨writes, rfl⟩

/-- No two of the new buddies have the same `f`, and none has that of an old
one. -/
def NewBy {β : Type} (f : RosterBuddy → β) (old new : List RosterBuddy) : Prop :=
  (new.map f).Nodup ∧ (old.map f).Disjoint (new.map f)

theorem NewBy.nil {β : Type} (f : RosterBuddy → β) (old : List RosterBuddy) : NewBy f old [] :=
  ⟨List.nodup_nil, List.disjoint_nil_right _⟩

theorem NewBy.singleton {β : Type} {f : RosterBuddy → β} {old : List RosterBuddy} {b : RosterBuddy}
    (h : f b ∉ old.map f) : NewBy f old [b] :=
  ⟨List.nodup_singleton _, List.disjoint_singleton.mpr h⟩

theorem NewBy.append {β : Type} {f : RosterBuddy → β} {old new new' : List RosterBuddy}
    (h : NewBy f old new) (h' : NewBy f (old ++ new) new') : NewBy f old (new ++ new') := by
  obtain ⟨hnodup', hdisjoint'⟩ := h'
  rw [List.map_append, List.disjoint_append_left] at hdisjoint'
  rw [NewBy, List.map_append]
  exact ⟨h.1.append hnodup' hdisjoint'.2,
    List.disjoint_append_right.mpr ⟨h.2, hdisjoint'.1⟩⟩

/-- `h'` is `h` after the buddies `new` were added, and the server told. -/
structure Added (h : Imcomm) (new : List RosterBuddy) (h' : Imcomm) : Prop where
  buddylist : h'.buddylist = h.buddylist ++ new
  names : NewBy RosterBuddy.sn h.buddylist new
  ids : NewBy RosterBuddy.ssiId h.buddylist new
  sent : h.Flowing →
    Sent { h with buddylist := h.buddylist ++ new } (new.flatMap addBodies) h.isidle h'

theorem Added.refl (h : Imcomm) : Added h [] h := by
  refine ⟨(List.append_nil _).symm, .nil _ _, .nil _ _, fun _ => ?_⟩
  rw [List.append_nil]
  exact Sent.refl h

theorem Added.trans {h h' h'' : Imcomm} {new new' : List RosterBuddy} (h1 : Added h new h')
    (h2 : Added h' new' h'') : Added h (new ++ new') h'' := by
  refine ⟨by rw [h2.buddylist, h1.buddylist, List.append_assoc],
    h1.names.append (h1.buddylist ▸ h2.names), h1.ids.append (h1.buddylist ▸ h2.ids), fun hf => ?_⟩
  have hs := h1.sent hf
  have hs' := h2.sent ⟨hs.accepting hf.accepting, hs.srvPause.trans hf.srvPause⟩
  rw [h1.buddylist, List.append_assoc, hs.isidle] at hs'
  rw [List.flatMap_append]
  exact (hs.withList (h.buddylist ++ (new ++ new'))).trans hs'

section
variable [Host]

/-- One buddy: nothing happens when he is on the list. -/
theorem imcommImAddBuddy_added (garbage : UInt16) {h : Imcomm} {sn : Str}
    (hlen : (imcommSimplifySn sn).length ≤ 65515) (hroom : h.buddylist.length < 65536) :
    ∃ h' new, imcommImAddBuddy garbage h sn = some h' ∧ Added h new h' ∧
      new.map RosterBuddy.sn =
        if imcommSimplifySn sn ∈ h.buddylist.map RosterBuddy.sn then []
        else [imcommSimplifySn sn] := by
  by_cases hmem : imcommSimplifySn sn ∈ h.buddylist.map RosterBuddy.sn
  · exact ⟨h, [], imcommImAddBuddy_known garbage hmem, .refl h, by rw [if_pos hmem]; rfl⟩
  · obtain ⟨id, hid⟩ : ∃ id, imcommGetNextId h = some id := by
      refine Option.ne_none_iff_exists'.mp fun hnone => ?_
      -- as many ids as there are
      have hall := imcommGetNextId_eq_none_iff.mp hnone
      have hsub : List.range 65536 ⊆ (h.buddylist.map RosterBuddy.ssiId).map UInt16.toNat := by
        intro i hi
        have hlt := List.mem_range.mp hi
        exact List.mem_map.mpr ⟨UInt16.ofNat i, hall _, UInt16.toNat_ofNat_of_lt' hlt⟩
      have hle := (List.subperm_of_subset List.nodup_range hsub).length_le
      rw [List.length_range, List.length_map, List.length_map] at hle
      omega
    let new : RosterBuddy := ⟨imcommSimplifySn sn, imcommSimplifySn sn, id, garbage⟩
    have hrun : imcommImAddBuddy garbage h sn = some (ssiChange
        { h with buddylist := h.buddylist ++ [new] } 0x08
        (ssiPacket (imcommSimplifySn sn) 0x0001 id)) := by
      rw [imcommImAddBuddy_new garbage hmem, hid]
      rfl
    have hlist : (ssiChange { h with buddylist := h.buddylist ++ [new] } 0x08
        (ssiPacket (imcommSimplifySn sn) 0x0001 id)).buddylist = h.buddylist ++ [new] := by
      rw [ssiChange_eq _ _ hlen]
      rfl
    refine ⟨_, [new], hrun, ⟨hlist, .singleton hmem, .singleton (nextIdLoop_some hid),
      fun hf => ?_⟩, by rw [if_neg hmem]; rfl⟩
    rw [List.flatMap_singleton]
    exact @ssiChange_sent _ { h with buddylist := h.buddylist ++ [new] } hf.accepting hf.srvPause
      0x08 _ hlen 0x0001 id

omit [Host] in
theorem length_chop_le {c : UInt8} {k : Nat} {s s' : Str} (h : chop c k s = some s') :
    s'.length ≤ s.length := by
  rw [chop, Option.ite_none_left_eq_some, Option.some_inj] at h
  rw [← h.2]
  split
  · exact List.length_take_le' _ _
  · exact Nat.le_refl _

omit [Host] in
/-- A line of the file names a buddy that fits into a frame. -/
theorem length_of_buddyName {line : List UInt8} {sn : Str} (h : buddyName line = some sn)
    (hfit : line.length ≤ 1023) : (imcommSimplifySn sn).length ≤ 65515 := by
  obtain ⟨text, htext, hsn⟩ := Option.bind_eq_some_iff.mp h
  have hcstr : (cstr line).length ≤ line.length := (List.takeWhile_prefix _).length_le
  have h1 := length_chop_le htext
  have h2 := length_chop_le hsn
  have h3 : (imcommSimplifySn sn).length ≤ sn.length := by
    rw [imcommSimplifySn, List.length_map]
    exact List.length_filter_le _ _
  omega

/-- The lines of a file, in order. -/
theorem addLines_added (garbage : Nat → UInt16) {lines : List (List UInt8)}
    (hfit : ∀ line ∈ lines, line.length ≤ 1023) {h : Imcomm}
    (hroom : h.buddylist.length + lines.length ≤ 65536) :
    (∃ line ∈ lines, buddyName line = none) ∧
        lines.foldlM (addLine garbage) h = .error .oob ∨
      (∀ line ∈ lines, (buddyName line).isSome) ∧ ∃ h' new,
        lines.foldlM (addLine garbage) h = .ok h' ∧ Added h new h' ∧
          ∀ sn, sn ∈ h'.buddylist.map RosterBuddy.sn ↔ sn ∈ h.buddylist.map RosterBuddy.sn ∨
            ∃ line ∈ lines, ∃ name ∈ buddyName line, imcommSimplifySn name = sn := by
  induction lines generalizing h with
  | nil => exact .inr ⟨nofun, h, [], rfl, .refl h, by simp⟩
  | cons line lines ih =>
    rw [List.forall_mem_cons] at hfit
    rw [List.length_cons] at hroom
    rw [List.foldlM_cons, addLine]
    cases hname : buddyName line with
    | none => exact .inl ⟨⟨line, List.mem_cons_self, hname⟩, rfl⟩
    | some sn =>
      obtain ⟨h₁, new, hadd, hadded, hnew⟩ := imcommImAddBuddy_added
        (garbage h.buddylist.length) (length_of_buddyName hname hfit.1) (h := h) (by omega)
      have hcount : new.length ≤ 1 := by
        have hlen := congrArg List.length hnew
        rw [List.length_map] at hlen
        rw [hlen]
        split <;> simp
      have hroom₁ : h₁.buddylist.length + lines.length ≤ 65536 := by
        rw [hadded.buddylist, List.length_append]
        omega
      simp only [hadd, Option.elim_some, ok_bind]
      rcases ih hfit.2 hroom₁ with
        ⟨⟨bad, hbad, hnone⟩, hrun⟩ | ⟨hall, h', new', hrun, hadded', hkeys⟩
      · exact .inl ⟨⟨bad, List.mem_cons_of_mem _ hbad, hnone⟩, hrun⟩
      · refine .inr ⟨List.forall_mem_cons.mpr ⟨by rw [hname]; rfl, hall⟩, h', new ++ new', hrun,
          hadded.trans hadded', fun k => ?_⟩
        have hfirst : k ∈ h₁.buddylist.map RosterBuddy.sn ↔
            k ∈ h.buddylist.map RosterBuddy.sn ∨ imcommSimplifySn sn = k := by
          rw [hadded.buddylist, List.map_append, List.mem_append, hnew]
          split
          · next hmem => grind
          · rw [List.mem_singleton, eq_comm]
        rw [hkeys, hfirst, or_assoc]
        simp [hname]

/-- Buddies that are on the list are not added. -/
theorem addLines_known (garbage : Nat → UInt16) (h : Imcomm) {lines : List (List UInt8)}
    (hknown : ∀ line ∈ lines, ∃ name ∈ buddyName line,
      imcommSimplifySn name ∈ h.buddylist.map RosterBuddy.sn) :
    lines.foldlM (addLine garbage) h = .ok h := by
  induction lines with
  | nil => rfl
  | cons line lines ih =>
    rw [List.forall_mem_cons] at hknown
    obtain ⟨⟨name, hname, hmem⟩, hlines⟩ := hknown
    rw [List.foldlM_cons, addLine, Option.mem_def.mp hname]
    simp only [imcommImAddBuddy_known _ hmem, Option.elim_some, ok_bind]
    exact ih hlines

/-- **The buddies of a file**: `load_buddylist` reads in front of its buffer
exactly when a line is too short.  Otherwise the list has its old buddies, and
behind them those that the file names and the list did not have, once each and
under ids of their own; the server is told of these only; and loading the file
again does nothing. -/
theorem buddies_loaded (garbage : Nat → UInt16) (home : Option Str) {fopen : Files}
    {buddy : List UInt8} (hfile : fopen (userFile home (ascii "buddies")) = some buddy) {h : Imcomm}
    (hroom : h.buddylist.length + (pieces 1022 buddy).length ≤ 65536) :
    (loadBuddylist garbage home fopen h = .error .oob ↔
      ∃ line ∈ pieces 1022 buddy, TooShort line) ∧
    ((∀ line ∈ pieces 1022 buddy, ¬ TooShort line) → ∃ h' new,
      loadBuddylist garbage home fopen h = .ok h' ∧ Added h new h' ∧
      (∀ sn, sn ∈ new.map RosterBuddy.sn ↔ sn ∉ h.buddylist.map RosterBuddy.sn ∧
        ∃ line ∈ pieces 1022 buddy, ∃ name ∈ buddyName line, imcommSimplifySn name = sn) ∧
      loadBuddylist garbage home fopen h' = .ok h') := by
  have hfit : ∀ line ∈ pieces 1022 buddy, line.length ≤ 1023 :=
    fun line hline => (length_of_mem_pieces hline).2
  rw [loadBuddylist_eq garbage home hfile]
  simp only [← buddyName_eq_none_iff, ← ne_eq, Option.ne_none_iff_isSome]
  rcases addLines_added garbage hfit hroom with ⟨hbad, hrun⟩ | ⟨hall, h', new, hrun, hadded, hkeys⟩
  · refine ⟨⟨fun _ => hbad, fun _ => hrun⟩, fun hall => ?_⟩
    obtain ⟨line, hline, hnone⟩ := hbad
    exact absurd (hall line hline) (by rw [hnone]; exact Bool.false_ne_true)
  · refine ⟨⟨fun herror => ?_, fun ⟨line, hline, hnone⟩ => ?_⟩, fun _ => ⟨h', new, hrun, hadded,
      fun sn => ?_, ?_⟩⟩
    · rw [hrun] at herror
      cases herror
    · exact absurd (hall line hline) (by rw [hnone]; exact Bool.false_ne_true)
    · -- a buddy of the new list is an old one or a new one, and not both
      have hkey := hkeys sn
      have hapart : sn ∈ h.buddylist.map RosterBuddy.sn → sn ∉ new.map RosterBuddy.sn :=
        fun hold hnew => hadded.names.2 hold hnew
      rw [hadded.buddylist, List.map_append, List.mem_append] at hkey
      constructor
      · intro hnew
        have hold := fun hold => hapart hold hnew
        exact ⟨hold, (hkey.mp (.inr hnew)).resolve_left hold⟩
      · rintro ⟨hold, hnamed⟩
        exact (hkey.mpr (.inr hnamed)).resolve_left hold
    · rw [loadBuddylist_eq garbage home hfile]
      refine addLines_known garbage h' fun line hline => ?_
      obtain ⟨name, hname⟩ := Option.isSome_iff_exists.mp (hall line hline)
      exact ⟨name, hname, (hkeys _).mpr (.inr ⟨line, hline, name, hname, rfl⟩)⟩

end

/-- Bob, with a carriage return, Ann, who is on the list, and Bob once more. -/
theorem buddies_loaded_bob :
    ∃ h' new, @loadBuddylist littleEndianHost (fun _ => 7) none
        (fun _ => some (ascii "Bob\r\nann\nBOB\n"))
        { imcommCreateHandle zeroBlock with buddylist := [⟨ascii "ann", ascii "ann", 1, 1⟩] } =
          .ok h' ∧
      h'.buddylist = ⟨ascii "ann", ascii "ann", 1, 1⟩ :: new ∧
      new.map RosterBuddy.sn = [ascii "bob"] := by
  have hpieces : pieces 1022 (ascii "Bob\r\nann\nBOB\n") =
      [ascii "Bob\r\n", ascii "ann\n", ascii "BOB\n"] := by
    have hlines := @pieces_flatMap [ascii "Bob\r", ascii "ann", ascii "BOB"] (by decide) 1022
      (by decide) []
    rw [pieces_nil, List.append_nil, List.append_nil] at hlines
    exact hlines
  have hlong : ∀ line ∈ [ascii "Bob\r\n", ascii "ann\n", ascii "BOB\n"], ¬ TooShort line := by
    intro line hline
    rw [← buddyName_eq_none_iff]
    revert line
    decide
  obtain ⟨h', new, hrun, hadded, hnames, -⟩ := (@buddies_loaded littleEndianHost (fun _ => 7) none
    (fun _ => some (ascii "Bob\r\nann\nBOB\n")) _ rfl
    { imcommCreateHandle zeroBlock with buddylist := [⟨ascii "ann", ascii "ann", 1, 1⟩] }
    (by rw [hpieces]; decide)).2 (by rw [hpieces]; exact hlong)
  refine ⟨h', new, hrun, hadded.buddylist, List.perm_singleton.mp
    ((List.perm_ext_iff_of_nodup hadded.names.1 (List.nodup_singleton _)).mpr fun sn => ?_)⟩
  rw [hnames, hpieces]
  simp only [List.mem_cons, List.not_mem_nil, or_false, exists_eq_or_imp, exists_eq_left,
    List.map_cons, List.map_nil]
  constructor
  · rintro ⟨hann, ⟨name, hname, rfl⟩ | ⟨name, hname, rfl⟩ | ⟨name, hname, rfl⟩⟩ <;>
      cases hname
    · rfl
    · exact absurd rfl hann
    · rfl
  · rintro rfl
    exact ⟨by decide, .inl ⟨ascii "Bob", rfl, rfl⟩⟩

/-! ## the away messages that are read -/

/-- The message of a line. -/
def awayLine (line : List UInt8) : Str := (cstr line).takeWhile (· ≠ 10)

/-- A newline ends the string. -/
theorem HoldsStr.cutNewline_eq {buf : List UInt8} {s : Str} (h : HoldsStr buf s) :
    ∃ buf', cutNewline buf = .ok buf' ∧ HoldsStr buf' (s.takeWhile (· ≠ 10)) ∧
      buf'.length = buf.length := by
  rw [cutNewline, h.strchr_eq (by decide), ok_bind]
  by_cases hmem : 10 ∈ s
  · have hprefix := List.takeWhile_prefix (l := s) fun b => decide (b ≠ 10)
    obtain ⟨buf', hstore, hheld, hlen⟩ := h.storeN_nul hprefix.length_le
    rw [← List.prefix_iff_eq_take.mp hprefix] at hheld
    rw [if_pos hmem]
    exact ⟨buf', hstore, hheld, hlen⟩
  · rw [if_neg hmem, takeWhile_ne_of_notMem hmem]
    exact ⟨buf, rfl, h, rfl⟩

theorem awayLoop_eq {fuel : Nat} {away buf : List UInt8} (hfuel : away.length < fuel)
    (hbuf : buf.length = 1024) (awaymsgs : List Str) :
    awayLoop fuel away buf awaymsgs =
      .ok (awaymsgs ++ ((pieces 1022 away).map awayLine).takeWhile (· ≠ [])) := by
  induction fuel generalizing away buf awaymsgs with
  | zero => exact absurd hfuel (Nat.not_lt_zero _)
  | succ fuel ih =>
    have hzeros : HoldsStr (List.replicate 1024 0) [] := ⟨by simp, List.replicate 1023 0, rfl⟩
    -- what `buf` holds when the newline is looked for
    obtain ⟨buf₁, hfilled, hheld₁, hlen₁⟩ : ∃ buf₁, (if away = [] then .ok (List.replicate 1024 0)
        else storeN (List.replicate 1024 0) 0 (terminated (fgets 1023 away).1)) = .ok buf₁ ∧
          HoldsStr buf₁ (if away = [] then [] else cstr (fgets 1023 away).1) ∧
            buf₁.length = 1024 := by
      by_cases hend : away = []
      · rw [if_pos hend, if_pos hend]
        exact ⟨_, rfl, hzeros, List.length_replicate⟩
      · rw [if_neg hend, if_neg hend]
        have hfit := length_fgets_le 1023 away
        obtain ⟨buf₁, hstore, hheld, hlen⟩ :=
          @storeN_line (List.replicate 1024 0) (fgets 1023 away).1
            (by rw [List.length_replicate]; omega)
        exact ⟨buf₁, hstore, hheld, by rw [hlen, List.length_replicate]⟩
    obtain ⟨buf₂, hcut, hheld₂, hlen₂⟩ := hheld₁.cutNewline_eq
    have hpieces (hne : away ≠ []) := pieces_eq 1022 hne
    have hshorter (hne : away ≠ []) := length_fgets_lt 1022 hne
    rw [awayLoop, storeN_zeros hbuf, ok_bind]
    generalize fgets 1023 away = r at hfilled hheld₂ hpieces hshorter ⊢
    simp only
    rw [hfilled, ok_bind, hcut, ok_bind, hheld₂.bufLen_eq, ok_bind]
    by_cases hend : away = []
    · rw [if_pos hend, List.takeWhile_nil, if_pos List.length_nil, hend, pieces_nil, List.map_nil,
        List.takeWhile_nil, List.append_nil]
      rfl
    · rw [if_neg hend] at hheld₂ ⊢
      rw [hpieces hend, List.map_cons, List.takeWhile_cons, ← awayLine]
      rw [← awayLine] at hheld₂
      by_cases htext : awayLine r.1 = []
      · rw [htext, if_pos List.length_nil, if_neg (by simp), List.append_nil]
        rfl
      · have hmore := ih (Nat.lt_of_lt_of_le (hshorter hend) (Nat.le_of_lt_succ hfuel))
          (hlen₂.trans hlen₁) (awaymsgs ++ [awayLine r.1])
        rw [if_neg fun h => htext (List.eq_nil_of_length_eq_zero h),
          HoldsStr.strAt_eq (i := 0) (by rwa [List.drop_zero]), ok_bind, hmore,
          if_pos (by simpa using htext), List.append_assoc, List.singleton_append]

/-- **The away messages**: the lines in front of the first empty one. -/
theorem readAwayMessages_eq [Host] (home : Option Str) (fopen : Files) (awaymsgs : List Str) :
    readAwayMessages home fopen awaymsgs =
      .ok ((fopen (userFile home (ascii "awaymessages"))).elim awaymsgs fun away =>
        ((pieces 1022 away).map awayLine).takeWhile (· ≠ [])) := by
  have hname : (userFile home (ascii "awaymessages")).length ≤ 1023 := List.length_take_le _ _
  obtain ⟨buf, hstore, -, hbuf⟩ :=
    @storeN_line (malloc 1024) (userFile home (ascii "awaymessages"))
      (by rw [length_malloc]; omega)
  rw [length_malloc] at hbuf
  rw [readAwayMessages, hstore, ok_bind]
  cases fopen (userFile home (ascii "awaymessages")) with
  | none => rfl
  | some away => exact awayLoop_eq (Nat.lt_succ_self _) hbuf []

/-! ## reading them again -/

section
variable [Host]

/-- **Reload**: the new profile goes out at once, and the command for a
predefined away message takes its text from the new file. -/
theorem reload_told (home : Option Str) {fopen : Files} {prof away : List UInt8}
    (hprof : fopen (userFile home (ascii "profile")) = some prof)
    (haway : fopen (userFile home (ascii "awaymessages")) = some away) {w : World Client}
    (hconn : w.client.conn.conn = true) (hf : w.handle.Flowing) (hsocket : w.handle.socket ≠ 0)
    {arg : Str} {n : Nat} (harg : arg ≠ []) (hn : atoi arg = n) {message : Str}
    (hmessage : (((pieces 1022 away).map awayLine).takeWhile (· ≠ []))[n]? = some message) :
    let told : Imcomm := { w.handle with profileStr := some (prof.filter (· ≠ 0)) }
    let away : Imcomm := { told with isaway := true, awayMsg := some message }
    let w₁ := inputReloadProfile home fopen w
    let w₂ := inputSetPredefaway w₁ arg
    w₂.handle.link.wire = w.handle.link.wire ++ numberBytes w.handle.seqnum w.handle.snacreq
        (locationBodies told ++ locationBodies away) ∧
      w₂.handle.profileStr = some (prof.filter (· ≠ 0)) ∧ w₂.handle.isaway = true ∧
      w₂.handle.awayMsg = some message ∧ ServerView.of w₂.handle = ServerView.of away ∧
      w₂.client.conn.isaway = true ∧ w₂.client.conn.awaymsg = some message := by
  intro told away' w₁ w₂
  generalize hmessages : ((pieces 1022 away).map awayLine).takeWhile (· ≠ []) = messages
    at hmessage
  have hw₁ : w₁ =
      { w with handle := Session.imcommSetProfile w.handle (prof.filter (· ≠ 0)) }.setConn
        { w.client.conn with awaymsgs := messages } := by
    have hread := readAwayMessages_eq home fopen w.client.conn.awaymsgs
    rw [haway, Option.elim_some, hmessages] at hread
    show inputReloadProfile home fopen w = _
    rw [inputReloadProfile, if_pos hconn, setProfile_eq, hread, hprof]
    rfl
  have hw₂ : w₂ = { w₁ with handle := imcommSetAway w₁.handle message }.setConn
      { w₁.client.conn with isaway := true, awaymsg := some message } := by
    show inputSetPredefaway w₁ arg = _
    have hconn₁ : w₁.client.conn.conn = true := by rw [hw₁]; exact hconn
    have hmsgs : w₁.client.conn.awaymsgs = messages := by rw [hw₁]; rfl
    rw [inputSetPredefaway, if_pos hconn₁, if_neg harg, hmsgs, hn, Int.toNat_natCast, hmessage,
      decide_eq_true (Int.natCast_nonneg n)]
  have hprofile : Sent told (locationBodies told) told.isidle w₁.handle := by
    have hsent := (Setting.setProfile (prof.filter (· ≠ 0))).run_sent w.handle
      ⟨hf.accepting, hf.srvPause⟩
    rw [Setting.bodies, if_pos hsocket] at hsent
    rw [hw₁]
    exact hsent
  have hsocket₁ : w₁.handle.socket ≠ 0 := by
    obtain ⟨writes, heq⟩ := hprofile
    rw [heq]
    exact hsocket
  have haway' := (Setting.setAway message).run_sent w₁.handle
    ⟨hprofile.accepting hf.accepting, hprofile.srvPause.trans hf.srvPause⟩
  rw [Setting.bodies, if_pos hsocket₁] at haway'
  have hhandle : w₂.handle = Setting.run w₁.handle (.setAway message) := by
    rw [hw₂]
    rfl
  have hclient : w₂.client.conn.isaway = true ∧ w₂.client.conn.awaymsg = some message := by
    rw [hw₂]
    exact ⟨rfl, rfl⟩
  obtain ⟨writes, heq⟩ := hprofile
  rw [heq] at haway' hhandle
  obtain ⟨writes', heq'⟩ := haway'
  rw [heq'] at hhandle
  rw [hhandle, numberBytes_append, ← List.append_assoc]
  exact ⟨rfl, rfl, rfl, rfl, rfl, hclient⟩

end

/-- The handle of a terminal without messages. -/
def idleHandle : Imcomm := { imcommCreateHandle zeroBlock with socket := 3 }

/-- A profile, and two away messages. -/
def lunchFiles (name : Str) : Option (List UInt8) :=
  some (if name = userFile none (ascii "profile") then ascii "hi" else ascii "brb\nlunch\n")

/-- The second message is set. -/
theorem reload_told_lunch :
    ∃ w : World Client, w = @inputSetPredefaway littleEndianHost
        (@inputReloadProfile littleEndianHost none lunchFiles ⟨idleHandle, startClient, []⟩)
        (ascii "1") ∧
      w.handle.link.wire = numberBytes 0x1000 0
        (@locationBodies littleEndianHost { idleHandle with profileStr := some (ascii "hi") } ++
          @locationBodies littleEndianHost { idleHandle with
            profileStr := some (ascii "hi")
            isaway := true
            awayMsg := some (ascii "lunch") }) ∧
      w.handle.profileStr = some (ascii "hi") ∧ w.handle.awayMsg = some (ascii "lunch") ∧
      w.client.conn.awaymsg = some (ascii "lunch") := by
  have hpieces : pieces 1022 (ascii "brb\nlunch\n") = [ascii "brb\n", ascii "lunch\n"] := by
    have hlines := @pieces_flatMap [ascii "brb", ascii "lunch"] (by decide) 1022 (by decide) []
    rw [pieces_nil, List.append_nil, List.append_nil] at hlines
    exact hlines
  have hmessage : (((pieces 1022 (ascii "brb\nlunch\n")).map awayLine).takeWhile (· ≠ []))[1]? =
      some (ascii "lunch") := by
    rw [hpieces]
    rfl
  obtain ⟨hwire, hprofile, -, haway, -, -, hshown⟩ := @reload_told littleEndianHost none
    lunchFiles (ascii "hi") (ascii "brb\nlunch\n") rfl rfl ⟨idleHandle, startClient, []⟩ rfl
    ⟨fun _ _ => rfl, rfl⟩ (by decide) (ascii "1") 1 (by decide) (by decide) (ascii "lunch") hmessage
  exact ⟨_, rfl, hwire, hprofile, haway, hshown⟩

end Bsflite
