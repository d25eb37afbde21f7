import Bsflite.CString
import Bsflite.Input

/-!
# Bsflite.Paste

`input_paste` and `bsf_getline` with their memory: the block that a line is
typed into, and the block in which lines are collected until they would be
too long for one message.

* `bsfGetlineBlock_line` — a line is typed into its block.
* `joined` — lines as one message.
* `pasteLine_holds` — what a line does to the block.
* `paste_messages` — what a whole paste sends.
-/

namespace Bsflite

/-! ## in memory -/

/-- `bsf_getline`, with `count` bytes stored in `str`: the block and what is
returned, and the keys left; `none` while there are no keys to read. -/
def bsfGetlineBlock (size : Int) : List UInt8 → Nat → List UInt8 →
    Except Fault (Option (List UInt8 × Int) × List UInt8)
  | str, count, [] =>
    if count < sizeT (size - 1) then return (none, [])
    else do
      let str ← storeN str count [0]
      return (some (str, count), [])
  | str, count, ch :: keys =>
    if count < sizeT (size - 1) then
      if ch = 10 ∨ ch = 13 then do
        let str ← storeN str count [0]
        return (some (str, count), keys)
      else if ch = 24 then return (some (str, -1), keys)
      -- at the start of a line the unsigned count wraps
      else if ch = 8 ∨ ch = 127 ∨ ch = 4 then bsfGetlineBlock size str (sizeT (count - 1)) keys
      else do
        let str ← storeN str count [ch]
        bsfGetlineBlock size str (count + 1) keys
    else do
      let str ← storeN str count [0]
      return (some (str, count), ch :: keys)

/-- `sendbuf` and `sendbuflen` -/
structure PasteBuf where
  sendbuf : List UInt8
  sendbuflen : Nat
deriving DecidableEq

/-- The loop of `input_paste` for a line in `pbuf`: the buffer, and the
message that is sent. -/
def pasteLine (maxmsgsize : Nat) (p : PasteBuf) (pbuf : List UInt8) (pbuflen : Int) :
    Except Fault (PasteBuf × List Str) :=
  -- the 4 is for "<br>", also when none will be written
  if maxmsgsize < sizeT (p.sendbuflen + pbuflen + 4) then do
    let msg ← strAt p.sendbuf 0
    let sendbuf ← storeN p.sendbuf 0 (List.replicate (maxmsgsize + 1) 0)
    let bs ← peekN pbuf 0 (sizeT pbuflen)
    let sendbuf ← storeN sendbuf 0 bs
    return (⟨sendbuf, sizeT pbuflen⟩, [msg])
  else if p.sendbuflen ≠ 0 then do
    let sendbuf ← strcat p.sendbuf (ascii "<br>")
    let text ← strAt pbuf 0
    let sendbuf ← strcat sendbuf text
    return (⟨sendbuf, sizeT (p.sendbuflen + (pbuflen + 4))⟩, [])
  else do
    let text ← strAt pbuf 0
    let sendbuf ← strcat p.sendbuf text
    return (⟨sendbuf, sizeT (p.sendbuflen + pbuflen)⟩, [])

/-- `pbuflen == 1 && pbuf[0] == '.'` -/
def isDot (pbuf : List UInt8) (pbuflen : Int) : Except Fault Bool := do
  if pbuflen = 1 then
    let c ← peek pbuf 0
    return c = 46
  else return false

/-- A paste: the buffer at each prompt, and the messages. -/
structure Pasted where
  prompts : List PasteBuf
  messages : List Str
deriving DecidableEq

/-- The loop of `input_paste`. -/
def pasteLoop (maxmsgsize : Nat) : Nat → List UInt8 → PasteBuf → List UInt8 → Except Fault Pasted
  | 0, _, _, _ => .error .hang
  | fuel + 1, pbuf, p, keys => do
    let (typed, keys) ← bsfGetlineBlock (maxmsgsize - 5) pbuf 0 keys
    match typed with
    | none => return ⟨[p], []⟩
    | some (pbuf, pbuflen) =>
      if pbuflen = -1 then return ⟨[p], []⟩
      else
        if ← isDot pbuf pbuflen then
          if 0 < p.sendbuflen then
            let msg ← strAt p.sendbuf 0
            return ⟨[p], [msg]⟩
          else return ⟨[p], []⟩
        else
          let (p', sent) ← pasteLine maxmsgsize p pbuf pbuflen
          let rest ← pasteLoop maxmsgsize fuel pbuf p' keys
          return ⟨p :: rest.prompts, sent ++ rest.messages⟩

/-- `input_paste`, with what `malloc` gives for a size. -/
def inputPasteBlock (malloc : (n : Nat) → Vector UInt8 n) (maxmsgsize : Nat) (keys : List UInt8) :
    Except Fault Pasted := do
  let sendbuf ← storeN (malloc (maxmsgsize + 1)).toList 0 (List.replicate (maxmsgsize + 1) 0)
  pasteLoop maxmsgsize (keys.length + 1) (malloc (maxmsgsize + 1)).toList ⟨sendbuf, 0⟩ keys

/-! ## a line is typed -/

/-- An erasing key behind at least one character. -/
theorem sizeT_dropLast {line : Str} (hne : line ≠ []) :
    sizeT ((line.length : Int) - 1) = line.dropLast.length := by
  have hpos := List.length_pos_of_ne_nil hne
  rw [sizeT_of_nonneg (by omega), List.length_dropLast]
  omega

/-- What is in front of the character that is erased. -/
theorem take_dropLast {str line : List UInt8} (hstr : str.take line.length = line) :
    str.take line.dropLast.length = line.dropLast := by
  rw [List.length_dropLast, List.dropLast_eq_take, ← hstr, List.take_take, hstr,
    Nat.min_eq_left (by omega)]

/-- The end of a line: the terminator is stored behind what is typed. -/
theorem bsfGetlineBlock_end {str line l keys rest : List UInt8}
    (hstr : str.take line.length = line)
    (h : ((if line.length < str.length then GetLine.line line else .overflow), keys) =
      (.line l, rest)) :
    l = line ∧ ∃ str', (do
        let str ← storeN str line.length [0]
        return (some (str, (line.length : Int)), keys)) =
          .ok (some (str', (l.length : Int)), rest) ∧
      terminated l <+: str' ∧ str'.length = str.length := by
  split at h
  · next hfit =>
    cases h
    obtain ⟨str', hstore, hlen, htake⟩ :=
      storeN_take [0] hstr (by rw [List.length_singleton]; omega)
    refine ⟨rfl, str', by rw [hstore]; rfl, ?_, hlen⟩
    rw [terminated, ← htake]
    exact List.take_prefix _ str'
  · cases h

/-- A line that is returned is in the block, with its terminator. -/
theorem bsfGetlineBlock_line {size : Int} {limit : Nat} (hlimit : sizeT (size - 1) = limit)
    (keys : List UInt8) :
    ∀ {str line l rest : List UInt8}, str.take line.length = line → line.length ≤ limit →
      bsfGetline str.length limit line keys = (.line l, rest) →
      l.length ≤ limit ∧ ∃ str', bsfGetlineBlock size str line.length keys =
          .ok (some (str', (l.length : Int)), rest) ∧ terminated l <+: str' ∧
        str'.length = str.length := by
  subst hlimit
  induction keys with
  | nil =>
      intro str line l rest hstr hline h
      rw [bsfGetline] at h
      rw [bsfGetlineBlock]
      by_cases hroom : line.length < sizeT (size - 1)
      · rw [if_pos hroom] at h
        cases h
      · rw [if_neg hroom] at h ⊢
        obtain ⟨rfl, hend⟩ := bsfGetlineBlock_end hstr h
        exact ⟨hline, hend⟩
  | cons ch keys ih =>
      intro str line l rest hstr hline h
      rw [bsfGetline] at h
      rw [bsfGetlineBlock]
      by_cases hroom : line.length < sizeT (size - 1)
      · rw [if_pos hroom] at h ⊢
        by_cases hreturn : ch = 10 ∨ ch = 13
        · rw [if_pos hreturn] at h ⊢
          obtain ⟨rfl, hend⟩ := bsfGetlineBlock_end hstr h
          exact ⟨hline, hend⟩
        · rw [if_neg hreturn] at h ⊢
          by_cases hcancel : ch = 24
          · rw [if_pos hcancel] at h
            cases h
          · rw [if_neg hcancel] at h ⊢
            by_cases hback : ch = 8 ∨ ch = 127 ∨ ch = 4
            · rw [if_pos hback] at h ⊢
              by_cases hnil : line = []
              · rw [if_pos hnil] at h
                cases h
              · rw [if_neg hnil] at h
                rw [sizeT_dropLast hnil]
                exact ih (take_dropLast hstr) (by rw [List.length_dropLast]; omega) h
            · rw [if_neg hback] at h ⊢
              by_cases hfit : line.length < str.length
              · rw [if_pos hfit] at h
                obtain ⟨str', hstore, hlen, htake⟩ :=
                  storeN_take [ch] hstr (by rw [List.length_singleton]; omega)
                rw [← List.length_append] at htake
                rw [← hlen] at h ⊢
                have hnext := ih htake (by rw [List.length_append, List.length_singleton]; omega) h
                rw [List.length_append, List.length_singleton] at hnext
                rw [hstore]
                exact hnext
              · rw [if_neg hfit] at h
                cases h
      · rw [if_neg hroom] at h ⊢
        obtain ⟨rfl, hend⟩ := bsfGetlineBlock_end hstr h
        exact ⟨hline, hend⟩

/-- A line takes keys, unless there is no room for any. -/
theorem bsfGetline_keys {block limit : Nat} (keys : List UInt8) :
    ∀ {line l rest : List UInt8}, bsfGetline block limit line keys = (.line l, rest) →
      rest.length ≤ keys.length ∧ (line.length < limit → rest.length < keys.length) := by
  induction keys with
  | nil =>
      intro line l rest h
      rw [bsfGetline] at h
      split at h
      · cases h
      · next hfull =>
        split at h <;> cases h
        exact ⟨Nat.le_refl _, fun hroom => absurd hroom hfull⟩
  | cons ch keys ih =>
      intro line l rest h
      rw [bsfGetline] at h
      rw [List.length_cons]
      split at h
      · have hless : rest.length ≤ keys.length := by
          split at h
          · split at h <;> cases h
            exact Nat.le_refl _
          · split at h
            · cases h
            · split at h
              · split at h
                · cases h
                · exact (ih h).1
              · split at h
                · exact (ih h).1
                · cases h
        exact ⟨by omega, fun _ => by omega⟩
      · next hfull =>
        split at h <;> cases h
        exact ⟨Nat.le_refl _, fun hroom => absurd hroom hfull⟩

/-! ## messages -/

/-- Lines as one message; empty lines in front of it disappear. -/
def joined (group : List Str) : Str :=
  (ascii "<br>").intercalate (group.dropWhile fun l => l = [])

/-- The lines are grouped into the messages: each message has the next lines,
and only empty lines are left over at the end. -/
structure Delivered (maxmsgsize : Nat) (lines messages : List Str) : Prop where
  grouped : ∃ groups tail : List _, lines = groups.flatten ++ tail ∧ (∀ l ∈ tail, l = []) ∧
    messages = groups.map joined
  sized : ∀ m ∈ messages, m ≠ [] ∧ m.length ≤ maxmsgsize

theorem intercalate_concat {sep : Str} {ls : List Str} (hne : ls ≠ []) (l : Str) :
    sep.intercalate (ls ++ [l]) = sep.intercalate ls ++ sep ++ l := by
  induction ls with
  | nil => exact absurd rfl hne
  | cons first ls ih =>
      cases ls with
      | nil =>
          rw [List.singleton_append, List.intercalate_cons_cons, List.intercalate_singleton,
            List.intercalate_singleton]
      | cons second ls =>
          rw [List.cons_append, List.intercalate_cons_of_ne_nil (List.concat_ne_nil l _),
            ih (List.cons_ne_nil second ls), List.intercalate_cons_cons]
          simp only [List.append_assoc]

/-- An empty line in front is nothing. -/
theorem joined_nil_cons (group : List Str) : joined ([] :: group) = joined group := rfl

/-- Any other line in front begins the message. -/
theorem joined_cons {first : Str} (h : first ≠ []) (group : List Str) :
    joined (first :: group) = (ascii "<br>").intercalate (first :: group) := by
  rw [joined, List.dropWhile_cons_of_neg]
  rwa [decide_eq_true_eq]

theorem joined_singleton (l : Str) : joined [l] = l := by
  by_cases hl : l = []
  · rw [hl]
    rfl
  · rw [joined_cons hl, List.intercalate_singleton]

/-- There is no message without a line in it. -/
theorem joined_eq_nil {group : List Str} : joined group = [] ↔ ∀ l ∈ group, l = [] := by
  induction group with
  | nil => exact ⟨fun _ l hl => absurd hl List.not_mem_nil, fun _ => rfl⟩
  | cons first group ih =>
      by_cases hfirst : first = []
      · rw [hfirst, joined_nil_cons, ih, List.forall_mem_cons]
        exact ⟨fun h => ⟨rfl, h⟩, fun h => h.2⟩
      · refine ⟨fun h => absurd ?_ hfirst, fun h => absurd (h first List.mem_cons_self) hfirst⟩
        rw [joined_cons hfirst] at h
        cases group with
        | nil => rwa [List.intercalate_singleton] at h
        | cons second group =>
            rw [List.intercalate_cons_cons, List.append_assoc] at h
            exact (List.append_eq_nil_iff.mp h).1

/-- A line is added to the message. -/
theorem joined_concat (group : List Str) (l : Str) :
    joined (group ++ [l]) = if joined group = [] then l else joined group ++ ascii "<br>" ++ l := by
  induction group with
  | nil => exact joined_singleton l
  | cons first group ih =>
      by_cases hfirst : first = []
      · rw [hfirst]
        exact ih
      · have hne : joined (first :: group) ≠ [] := fun h =>
          hfirst (joined_eq_nil.mp h first List.mem_cons_self)
        rw [if_neg hne, List.cons_append, joined_cons hfirst, joined_cons hfirst,
          ← List.cons_append, intercalate_concat (List.cons_ne_nil first group)]

namespace Delivered

variable {maxmsgsize : Nat} {group lines messages : List Str}

/-- Nothing is sent for empty lines. -/
theorem none (h : joined group = []) : Delivered maxmsgsize group [] where
  grouped := ⟨[], group, rfl, joined_eq_nil.mp h, rfl⟩
  sized _ hm := absurd hm List.not_mem_nil

/-- The last message. -/
theorem last (hne : joined group ≠ []) (hlen : (joined group).length ≤ maxmsgsize) :
    Delivered maxmsgsize group [joined group] where
  grouped := by
    refine ⟨[group], [], ?_, fun l hl => absurd hl List.not_mem_nil, rfl⟩
    rw [List.flatten_singleton, List.append_nil]
  sized m hm := by
    rw [List.mem_singleton.mp hm]
    exact ⟨hne, hlen⟩

/-- A message, and what the lines behind it become. -/
theorem flush (hne : joined group ≠ []) (hlen : (joined group).length ≤ maxmsgsize)
    (h : Delivered maxmsgsize lines messages) :
    Delivered maxmsgsize (group ++ lines) (joined group :: messages) where
  grouped := by
    obtain ⟨groups, tail, hlines, htail, hmessages⟩ := h.grouped
    refine ⟨group :: groups, tail, ?_, htail, ?_⟩
    · rw [hlines, List.flatten_cons, List.append_assoc]
    · rw [hmessages, List.map_cons]
  sized m hm := by
    rcases List.mem_cons.mp hm with rfl | hm
    · exact ⟨hne, hlen⟩
    · exact h.sized m hm

end Delivered

/-! ## the buffer -/

/-- The lines since the last message are in the buffer, and its length is
counted. -/
structure Pending (maxmsgsize : Nat) (p : PasteBuf) (group : List Str) : Prop where
  held : HoldsStr p.sendbuf (joined group)
  counted : p.sendbuflen = (joined group).length
  size : p.sendbuf.length = maxmsgsize + 1

theorem Pending.fits {maxmsgsize : Nat} {p : PasteBuf} {group : List Str}
    (h : Pending maxmsgsize p group) : (joined group).length ≤ maxmsgsize := by
  have hlt := h.held.length_lt
  rw [h.size] at hlt
  omega

/-- What `input_paste` compares with the maximal size. -/
theorem PasteBuf.sizeT_eq (p : PasteBuf) (l : Str) :
    sizeT (p.sendbuflen + (l.length : Int) + 4) = p.sendbuflen + l.length + 4 := by
  rw [sizeT_of_nonneg (by omega)]
  omega

section
variable {maxmsgsize : Nat} {p : PasteBuf} {group : List Str} {pbuf : List UInt8} {l : Str}
  (h : Pending maxmsgsize p group) (hl : HoldsStr pbuf l)
include h hl

/-- A line that does not fit: the others are sent, and the buffer is cleared
for it. -/
theorem pasteLine_sends (hfit : l.length + 6 ≤ maxmsgsize)
    (hlong : maxmsgsize < p.sendbuflen + l.length + 4) :
    joined group ≠ [] ∧ ∃ p', pasteLine maxmsgsize p pbuf l.length = .ok (p', [joined group]) ∧
      Pending maxmsgsize p' [l] := by
  have hmsg : strAt p.sendbuf 0 = .ok (joined group) := HoldsStr.strAt_eq h.held
  have hne : joined group ≠ [] := by
    intro hnil
    have hcount := h.counted
    rw [hnil, List.length_nil] at hcount
    omega
  have hcopy : peekN pbuf 0 l.length = .ok l := by
    obtain ⟨tail, rfl⟩ := hl.front
    have hlen := length_terminated l
    rw [peekN, if_pos (.inr (by rw [List.length_append]; omega)), List.drop_zero, terminated,
      List.append_assoc, List.take_left]
  obtain ⟨sendbuf, hstore, hheld, hsize⟩ :=
    storeN_cleared hl.no_nul (n := maxmsgsize + 1) (by omega)
  refine ⟨hne, ⟨sendbuf, l.length⟩, ?_, ?_, ?_, hsize⟩
  · rw [pasteLine, p.sizeT_eq, if_pos hlong, hmsg, ok_bind, storeN_zeros h.size, ok_bind,
      sizeT_of_nonneg (by omega), Int.toNat_natCast, hcopy, ok_bind, hstore]
    rfl
  · rwa [joined_singleton]
  · rw [joined_singleton]

/-- The first line that is not empty. -/
theorem pasteLine_first (hfit : l.length + 6 ≤ maxmsgsize)
    (hshort : ¬ maxmsgsize < p.sendbuflen + l.length + 4) (hempty : joined group = []) :
    ∃ p', pasteLine maxmsgsize p pbuf l.length = .ok (p', []) ∧
      Pending maxmsgsize p' (group ++ [l]) := by
  have htext : strAt pbuf 0 = .ok l := HoldsStr.strAt_eq hl
  have hzero : p.sendbuflen = 0 := by rw [h.counted, hempty, List.length_nil]
  have hconcat := joined_concat group l
  have hheld := h.held
  rw [hempty] at hheld
  obtain ⟨sendbuf, hcat, hheld', hsize⟩ := hheld.strcat_eq hl.no_nul
    (by rw [h.size, List.length_nil]; omega)
  rw [if_pos hempty] at hconcat
  refine ⟨⟨sendbuf, l.length⟩, ?_, ?_, ?_, hsize.trans h.size⟩
  · rw [pasteLine, p.sizeT_eq, if_neg hshort, if_neg (not_not_intro hzero), htext, ok_bind, hcat,
      ok_bind, sizeT_of_nonneg (by omega), hzero]
    simp only [Nat.cast_zero, zero_add, Int.toNat_natCast]
    rfl
  · rwa [hconcat]
  · rw [hconcat]

/-- A line behind others. -/
theorem pasteLine_behind (hshort : ¬ maxmsgsize < p.sendbuflen + l.length + 4)
    (hne : joined group ≠ []) :
    ∃ p', pasteLine maxmsgsize p pbuf l.length = .ok (p', []) ∧
      Pending maxmsgsize p' (group ++ [l]) := by
  have htext : strAt pbuf 0 = .ok l := HoldsStr.strAt_eq hl
  have hpos : p.sendbuflen ≠ 0 := by
    rw [h.counted]
    exact mt List.length_eq_zero_iff.mp hne
  have hroom := h.counted
  have hconcat := joined_concat group l
  obtain ⟨sendbuf, hcat, hheld, hsize⟩ := h.held.strcat_eq
    (show 0 ∉ ascii "<br>" by decide +kernel) (by rw [h.size]; simp [ascii]; omega)
  obtain ⟨sendbuf', hcat', hheld', hsize'⟩ := hheld.strcat_eq hl.no_nul
    (by rw [hsize, h.size, List.length_append]; simp [ascii]; omega)
  rw [if_neg hne] at hconcat
  refine ⟨⟨sendbuf', p.sendbuflen + (l.length + 4)⟩, ?_, ?_, ?_, ?_⟩
  · rw [pasteLine, p.sizeT_eq, if_neg hshort, if_pos hpos, hcat, ok_bind, htext, ok_bind, hcat',
      ok_bind, sizeT_of_nonneg (by omega)]
    rfl
  · rwa [hconcat]
  · rw [hconcat, h.counted, List.length_append, List.length_append]
    simp [ascii]
    omega
  · exact hsize'.trans (hsize.trans h.size)

/-- A line goes behind the others, or is the first one behind a message. -/
theorem pasteLine_holds (hfit : l.length + 6 ≤ maxmsgsize) :
    if maxmsgsize < p.sendbuflen + l.length + 4 then
      joined group ≠ [] ∧ ∃ p', pasteLine maxmsgsize p pbuf l.length = .ok (p', [joined group]) ∧
        Pending maxmsgsize p' [l]
    else ∃ p', pasteLine maxmsgsize p pbuf l.length = .ok (p', []) ∧
        Pending maxmsgsize p' (group ++ [l]) := by
  split
  · next hlong => exact pasteLine_sends h hl hfit hlong
  · next hshort =>
    by_cases hempty : joined group = []
    · exact pasteLine_first h hl hfit hshort hempty
    · exact pasteLine_behind h hl hshort hempty

end

/-! ## a whole paste -/

/-- The lines that `bsf_getline` returns for the keys, up to a single dot. -/
inductive Entered (maxmsgsize : Nat) : List UInt8 → List Str → Prop where
  | dot {keys rest : List UInt8} :
    bsfGetline (maxmsgsize + 1) (sizeT (maxmsgsize - 6)) [] keys = (.line [46], rest) →
    Entered maxmsgsize keys []
  | line {keys rest : List UInt8} {l : Str} {lines : List Str} :
    bsfGetline (maxmsgsize + 1) (sizeT (maxmsgsize - 6)) [] keys = (.line l, rest) → l ≠ [46] →
    Entered maxmsgsize rest lines → Entered maxmsgsize keys (l :: lines)

/-- The messages are sent one by one, for as long as the client runs. -/
def sendAll [Host] (libotr : Libotr) (sn : Str) (w : World Client) : List Str → World Client
  | [] => w
  | msg :: rest =>
    let w := (otrImcommImSendMessage libotr w sn msg).1
    if w.client.crash.isSome then w else sendAll libotr sn w rest

/-- What goes to a name does not go through libotr: OTR is off, or no buddy of
the name is listed, or one who is exempt. -/
def Client.Bypasses (c : Client) (sn : Str) : Prop :=
  c.conn.otr = false ∨ ∃ p, c.findBuddy sn = some p ∧ ∀ b ∈ p.bind c.buddyAt, b.otr = -1

/-- One message is handed on as it is. -/
theorem otrImcommImSendMessage_bypasses [Host] (libotr : Libotr) {w : World Client} {sn : Str}
    (h : w.client.Bypasses sn) (msg : Str) :
    otrImcommImSendMessage libotr w sn msg = (w.imSend sn msg false, 1) := by
  by_cases hotr : w.client.conn.otr = true
  · obtain ⟨p, hfind, hexempt⟩ := h.resolve_left (by simp [hotr])
    simp only [otrImcommImSendMessage, if_pos hotr, hfind]
    split
    · next q buddy hbuddy =>
      rw [if_neg (not_not_intro (hexempt buddy hbuddy))]
    · rfl
  · rw [otrImcommImSendMessage, if_neg hotr]

/-- So are all of them, in order: the trace has the newest first. -/
theorem sendAll_bypasses [Host] (libotr : Libotr) {w : World Client} {sn : Str}
    (h : w.client.Bypasses sn) (hrunning : w.client.crash = none) (msgs : List Str) :
    (sendAll libotr sn w msgs).client = { w.client with
      trace := (msgs.map fun msg => Traced.imSend sn msg false (w.client.secret sn)).reverse ++
        w.client.trace } := by
  induction msgs generalizing w with
  | nil => rfl
  | cons msg rest ih =>
      have hrest := ih (w := w.imSend sn msg false) h hrunning
      have hstep : sendAll libotr sn w (msg :: rest) =
          sendAll libotr sn (w.imSend sn msg false) rest := by
        rw [sendAll, otrImcommImSendMessage_bypasses libotr h]
        exact if_neg (by simp [World.imSend, World.traced, hrunning])
      rw [hstep, hrest, List.map_cons, List.reverse_cons, List.append_assoc]
      rfl

section
variable {maxmsgsize : Nat} {keys rest : List UInt8} {l : Str}

/-- A line is typed into `pbuf`. -/
theorem bsfGetlineBlock_pbuf (hmax : 7 ≤ maxmsgsize)
    (h : bsfGetline (maxmsgsize + 1) (sizeT (maxmsgsize - 6)) [] keys = (.line l, rest))
    {pbuf : List UInt8} (hpbuf : pbuf.length = maxmsgsize + 1) :
    l.length + 6 ≤ maxmsgsize ∧ rest.length < keys.length ∧
      ∃ pbuf', bsfGetlineBlock (maxmsgsize - 5) pbuf 0 keys =
          .ok (some (pbuf', (l.length : Int)), rest) ∧ terminated l <+: pbuf' ∧
        pbuf'.length = maxmsgsize + 1 := by
  have hlimit : sizeT ((maxmsgsize : Int) - 5 - 1) = sizeT (maxmsgsize - 6) := by
    congr 1
    omega
  have hroom : sizeT ((maxmsgsize : Int) - 6) = maxmsgsize - 6 := by
    rw [sizeT_of_nonneg (by omega)]
    omega
  have hkeys := (bsfGetline_keys keys h).2 (by rw [hroom, List.length_nil]; omega)
  rw [← hpbuf] at h ⊢
  obtain ⟨hfit, htyped⟩ :=
    bsfGetlineBlock_line hlimit keys (show pbuf.take ([] : Str).length = [] from List.take_zero)
      (Nat.zero_le _) h
  exact ⟨by omega, hkeys, htyped⟩

/-- The loop at the dot. -/
theorem pasteLoop_dot (hmax : 7 ≤ maxmsgsize)
    (h : bsfGetline (maxmsgsize + 1) (sizeT (maxmsgsize - 6)) [] keys = (.line [46], rest))
    {pbuf : List UInt8} (hpbuf : pbuf.length = maxmsgsize + 1) (fuel : Nat) (p : PasteBuf) :
    pasteLoop maxmsgsize (fuel + 1) pbuf p keys =
      if 0 < p.sendbuflen then do
        let msg ← strAt p.sendbuf 0
        return ⟨[p], [msg]⟩
      else return ⟨[p], []⟩ := by
  obtain ⟨-, -, pbuf', htyped, ⟨tail, htail⟩, -⟩ := bsfGetlineBlock_pbuf hmax h hpbuf
  have hisdot : isDot pbuf' (([46] : Str).length : Int) = .ok true := by
    rw [← htail]
    rfl
  rw [pasteLoop, htyped, ok_bind]
  dsimp only
  rw [if_neg (by decide), hisdot, ok_bind, if_pos rfl]

/-- The loop at another line. -/
theorem pasteLoop_line (hmax : 7 ≤ maxmsgsize)
    (h : bsfGetline (maxmsgsize + 1) (sizeT (maxmsgsize - 6)) [] keys = (.line l, rest))
    (hdot : l ≠ [46]) {pbuf : List UInt8} (hpbuf : pbuf.length = maxmsgsize + 1) (fuel : Nat)
    (p : PasteBuf) :
    ∃ pbuf', terminated l <+: pbuf' ∧ pbuf'.length = maxmsgsize + 1 ∧
      pasteLoop maxmsgsize (fuel + 1) pbuf p keys = do
        let (p', sent) ← pasteLine maxmsgsize p pbuf' l.length
        let pasted ← pasteLoop maxmsgsize fuel pbuf' p' rest
        return ⟨p :: pasted.prompts, sent ++ pasted.messages⟩ := by
  obtain ⟨-, -, pbuf', htyped, hend, hsize⟩ := bsfGetlineBlock_pbuf hmax h hpbuf
  have hisdot : isDot pbuf' (l.length : Int) = .ok false := by
    rw [isDot]
    by_cases hone : (l.length : Int) = 1
    · obtain ⟨c, rfl⟩ := List.length_eq_one_iff.mp (by omega : l.length = 1)
      obtain ⟨tail, rfl⟩ := hend
      have hc : c ≠ 46 := fun heq => hdot (congrArg (fun c => [c]) heq)
      rw [if_pos hone]
      exact congrArg Except.ok (decide_eq_false hc)
    · rw [if_neg hone]
      rfl
  refine ⟨pbuf', hend, hsize, ?_⟩
  rw [pasteLoop, htyped, ok_bind]
  dsimp only
  rw [if_neg (by omega), hisdot, ok_bind, if_neg Bool.false_ne_true]

/-- The client at another line. -/
theorem inputPasteLoop_line [Host] (libotr : Libotr) (sn : Str)
    (h : bsfGetline (maxmsgsize + 1) (sizeT (maxmsgsize - 6)) [] keys = (.line l, rest))
    (hdot : l ≠ [46]) (hnul : 0 ∉ l) {p : PasteBuf} {group : List Str}
    (hp : Pending maxmsgsize p group) (fuel : Nat) (w : World Client) :
    inputPasteLoop libotr sn maxmsgsize (fuel + 1) w (joined group) p.sendbuflen keys =
      if maxmsgsize < p.sendbuflen + l.length + 4 then
        let w := (otrImcommImSendMessage libotr w sn (joined group)).1
        if w.client.crash.isSome then w
        else inputPasteLoop libotr sn maxmsgsize fuel w (joined [l]) (joined [l]).length rest
      else inputPasteLoop libotr sn maxmsgsize fuel w (joined (group ++ [l]))
        (joined (group ++ [l])).length rest := by
  rw [inputPasteLoop, h]
  dsimp only
  rw [if_neg hdot, joined_singleton, cstr_of_no_nul hnul, joined_concat, hp.counted]
  split
  · rfl
  · by_cases hempty : joined group = []
    · rw [hempty]
      rfl
    · have hne : (joined group).length ≠ 0 := mt List.length_eq_zero_iff.mp hempty
      rw [if_neg hne, if_neg hempty, List.length_append, List.length_append]
      congr 1
      simp [ascii]
      omega

end

/-- What the loop does with the lines, and with those that are pending. -/
theorem pasteLoop_holds [Host] (libotr : Libotr) (sn : Str) {maxmsgsize : Nat}
    (hmax : 7 ≤ maxmsgsize) {keys : List UInt8} {lines : List Str}
    (h : Entered maxmsgsize keys lines) (hnul : ∀ l ∈ lines, 0 ∉ l) :
    ∀ {fuel : Nat} {pbuf : List UInt8} {p : PasteBuf} {group : List Str},
      keys.length < fuel → pbuf.length = maxmsgsize + 1 → Pending maxmsgsize p group →
      ∃ pasted, pasteLoop maxmsgsize fuel pbuf p keys = .ok pasted ∧
        (∀ q ∈ pasted.prompts, ∃ pending, Pending maxmsgsize q pending) ∧
        Delivered maxmsgsize (group ++ lines) pasted.messages ∧
        ∀ w, inputPasteLoop libotr sn maxmsgsize fuel w (joined group) p.sendbuflen keys =
          sendAll libotr sn w pasted.messages := by
  induction h with
  | @dot keys rest hdot =>
      intro fuel pbuf p group hfuel hpbuf hp
      obtain ⟨fuel, rfl⟩ := Nat.exists_eq_add_one_of_ne_zero (Nat.ne_zero_of_lt hfuel)
      rw [pasteLoop_dot hmax hdot hpbuf, List.append_nil]
      by_cases hempty : joined group = []
      · have hzero : p.sendbuflen = 0 := by rw [hp.counted, hempty, List.length_nil]
        rw [if_neg (by omega)]
        refine ⟨⟨[p], []⟩, rfl, ?_, Delivered.none hempty, fun w => ?_⟩
        · exact fun q hq => ⟨group, List.mem_singleton.mp hq ▸ hp⟩
        · rw [inputPasteLoop, hdot]
          simp [hzero, sendAll]
      · have hpos : 0 < p.sendbuflen := by
          rw [hp.counted]
          exact List.length_pos_of_ne_nil hempty
        have hmsg : strAt p.sendbuf 0 = .ok (joined group) := HoldsStr.strAt_eq hp.held
        rw [if_pos hpos, hmsg, ok_bind]
        refine ⟨⟨[p], [joined group]⟩, rfl, ?_, Delivered.last hempty hp.fits, fun w => ?_⟩
        · exact fun q hq => ⟨group, List.mem_singleton.mp hq ▸ hp⟩
        · rw [inputPasteLoop, hdot]
          simp [hpos, sendAll]
  | @line keys rest l lines hline hdot _ ih =>
      intro fuel pbuf p group hfuel hpbuf hp
      obtain ⟨fuel, rfl⟩ := Nat.exists_eq_add_one_of_ne_zero (Nat.ne_zero_of_lt hfuel)
      obtain ⟨hfit, hkeys, -⟩ := bsfGetlineBlock_pbuf hmax hline hpbuf
      obtain ⟨pbuf', hend, hpbuf', hloop⟩ := pasteLoop_line hmax hline hdot hpbuf fuel p
      rw [List.forall_mem_cons] at hnul
      have hstep := pasteLine_holds hp ⟨hnul.1, hend⟩ hfit
      have hworld := inputPasteLoop_line libotr sn hline hdot hnul.1 hp fuel
      have hrest : rest.length < fuel := by omega
      rw [hloop]
      split at hstep
      -- the pending lines are sent, and this one is now pending
      · next hlong =>
        obtain ⟨hne, p', hrun, hp'⟩ := hstep
        obtain ⟨pasted, hpasted, hprompts, hdelivered, hsent⟩ := ih hnul.2 hrest hpbuf' hp'
        rw [hrun, ok_bind]
        dsimp only
        rw [hpasted, ok_bind]
        refine ⟨_, rfl, ?_, hdelivered.flush hne hp.fits, fun w => ?_⟩
        · exact List.forall_mem_cons.mpr ⟨⟨group, hp⟩, hprompts⟩
        · rw [hworld w, if_pos hlong, ← hp'.counted]
          simp only [hsent]
          rfl
      -- this line is pending with the others
      · next hshort =>
        obtain ⟨p', hrun, hp'⟩ := hstep
        obtain ⟨pasted, hpasted, hprompts, hdelivered, hsent⟩ := ih hnul.2 hrest hpbuf' hp'
        rw [hrun, ok_bind]
        dsimp only
        rw [hpasted, ok_bind]
        rw [List.append_assoc] at hdelivered
        refine ⟨_, rfl, ?_, hdelivered, fun w => ?_⟩
        · exact List.forall_mem_cons.mpr ⟨⟨group, hp⟩, hprompts⟩
        · rw [hworld w, if_neg hshort, ← hp'.counted, hsent]
          rfl

/-- A paste that is ended by a dot: at every prompt the buffer is a string of
the counted length, which fits; the messages are the lines, grouped; and they
are what the client sends.  Where libotr has no part in it, they are the texts
that `imcomm_im_send_message` is called with, and nothing else is done. -/
theorem paste_messages [Host] (libotr : Libotr) (malloc : (n : Nat) → Vector UInt8 n)
    (w : World Client) (hconn : w.client.conn.conn = true) {sn : Str} (hsn : sn ≠ [])
    (hmax : 7 ≤ w.handle.maxMessageSize.toNat) {keys : List UInt8} {lines : List Str}
    (hentered : Entered w.handle.maxMessageSize.toNat keys lines) (hnul : ∀ l ∈ lines, 0 ∉ l) :
    ∃ pasted, inputPasteBlock malloc w.handle.maxMessageSize.toNat keys = .ok pasted ∧
      (∀ p ∈ pasted.prompts, bufLen p.sendbuf = .ok p.sendbuflen ∧
        p.sendbuflen ≤ w.handle.maxMessageSize.toNat) ∧
      Delivered w.handle.maxMessageSize.toNat lines pasted.messages ∧
      inputPaste libotr w sn keys = sendAll libotr sn w pasted.messages ∧
      (w.client.crash = none → w.client.Bypasses sn →
        (inputPaste libotr w sn keys).client = { w.client with
          trace := (pasted.messages.map fun msg =>
            Traced.imSend sn msg false (w.client.secret sn)).reverse ++ w.client.trace }) := by
  generalize hsize : w.handle.maxMessageSize.toNat = maxmsgsize at hmax hentered ⊢
  have hblock : (malloc (maxmsgsize + 1)).toList.length = maxmsgsize + 1 :=
    Vector.length_toList
  have hstart : Pending maxmsgsize ⟨List.replicate (maxmsgsize + 1) 0, 0⟩ [] := by
    refine ⟨⟨List.not_mem_nil, List.replicate maxmsgsize 0, rfl⟩, rfl, List.length_replicate⟩
  obtain ⟨pasted, hrun, hprompts, hdelivered, hsent⟩ :=
    pasteLoop_holds libotr sn hmax hentered hnul (Nat.lt_succ_self _) hblock hstart
  have hinput : inputPaste libotr w sn keys = sendAll libotr sn w pasted.messages := by
    rw [inputPaste, if_pos hconn, if_neg hsn, hsize]
    exact hsent w
  refine ⟨pasted, ?_, fun p hp => ?_, hdelivered, hinput, fun hrunning hbypasses => ?_⟩
  · rw [inputPasteBlock, storeN_zeros hblock, ok_bind, hrun]
  · obtain ⟨pending, h⟩ := hprompts p hp
    have hfits := h.fits
    rw [h.held.bufLen_eq, h.counted]
    exact ⟨rfl, hfits⟩
  · rw [hinput]
    exact sendAll_bypasses libotr hbypasses hrunning pasted.messages

/-- Alice may send messages of 16 bytes. -/
def shortMessages : World Client where
  handle := { imcommCreateHandle zeroBlock with maxMessageSize := 16 }
  client := startClient
  children := []

/-- The first line is empty, and the last one does not fit any more: two
messages go out. -/
theorem paste_messages_short :
    ∃ pasted, inputPasteBlock (fun n => Vector.replicate n 255) 16
        (ascii "\nhi\n\nthe\nend\n.\n") = .ok pasted ∧
      pasted.messages = [ascii "hi<br><br>the", ascii "end"] ∧
      (∀ p ∈ pasted.prompts, bufLen p.sendbuf = .ok p.sendbuflen ∧ p.sendbuflen ≤ 16) ∧
      Delivered 16 [[], ascii "hi", [], ascii "the", ascii "end"] pasted.messages ∧
      (@inputPaste littleEndianHost quietLibotr shortMessages (ascii "bob")
          (ascii "\nhi\n\nthe\nend\n.\n")).client.trace =
        [.imSend (ascii "bob") (ascii "end") false false,
          .imSend (ascii "bob") (ascii "hi<br><br>the") false false] := by
  have hentered : Entered 16 (ascii "\nhi\n\nthe\nend\n.\n")
      [[], ascii "hi", [], ascii "the", ascii "end"] :=
    .line rfl (by decide) <| .line rfl (by decide) <| .line rfl (by decide) <|
      .line rfl (by decide) <| .line rfl (by decide) <| .dot rfl
  have hbypasses : shortMessages.client.Bypasses (ascii "bob") := .inr ⟨none, rfl, by simp⟩
  obtain ⟨pasted, hrun, hprompts, hdelivered, -, hbob⟩ :=
    @paste_messages littleEndianHost quietLibotr (fun n => Vector.replicate n 255) shortMessages rfl
      (ascii "bob") (by decide) (by decide) _ _ hentered (by decide +kernel)
  have hmessages : (inputPasteBlock (fun n => Vector.replicate n 255) 16
      (ascii "\nhi\n\nthe\nend\n.\n")).map Pasted.messages =
        .ok [ascii "hi<br><br>the", ascii "end"] := by decide +kernel
  have hsecret : shortMessages.client.secret (ascii "bob") = false := by decide +kernel
  have hrun' : inputPasteBlock (fun n => Vector.replicate n 255) 16
      (ascii "\nhi\n\nthe\nend\n.\n") = .ok pasted := hrun
  rw [hrun'] at hmessages
  have hsent : pasted.messages = [ascii "hi<br><br>the", ascii "end"] := Except.ok.inj hmessages
  refine ⟨pasted, hrun', hsent, hprompts, hdelivered, ?_⟩
  rw [hbob rfl hbypasses, hsent, hsecret]
  rfl

end Bsflite
