import Bsflite.Strip

/-!
# Bsflite.Keyboard

The key handling of `main` in `bsf.c`: what each key does to `inputbuf`, the
512 bytes in which a line is typed.  A store outside them, or a `strlen` that
finds no terminator, is a `Fault`.

`Line` is the line that the buffer is meant to hold, and `Line.press` what a
key is meant to do to it.  `pressKey_line` connects the two: a key does that
to the buffer, unless what it appends runs over the end (`Overflows`), and
then it stores outside.
-/

namespace Bsflite

/-! ## the buffer -/

/-- `sizeof(inputbuf)` -/
def inputSize : Nat := 512

/-- `snprintf(inputbuf, sizeof(inputbuf), …)` -/
def snprintfBuf (buf : List UInt8) (text : Str) : Except Fault (List UInt8) :=
  storeN buf 0 (terminated (text.take (inputSize - 1)))

/-- The buffer, `conn->istyping` and `conn->rawinput`. -/
structure Keyboard where
  inputbuf : List UInt8
  istyping : Bool
  rawinput : Bool
deriving DecidableEq

/-- What the keys read besides: the names in the buddy list, `conn->lastsn`
and `conn->single_log`. -/
structure Surroundings where
  names : List { sn : Str // 0 ∉ sn ∧ sn.length ≤ 255 }
  lastsn : Option { sn : Str // 0 ∉ sn }
  singleLog : Bool

namespace Keyboard

/-- `memset(inputbuf, 0, sizeof(inputbuf))`, and the flags with it. -/
def clear (k : Keyboard) : Keyboard :=
  { k with inputbuf := List.replicate inputSize 0, istyping := false, rawinput := false }

/-- `addtoinputbuf`: it stores no terminator. -/
def addtoinputbuf (k : Keyboard) (inchr : UInt8) : Except Fault Keyboard := do
  let k := { k with istyping := true }
  let n ← bufLen k.inputbuf
  if n = 511 then return k
  else
    let buf ← storeN k.inputbuf n [inchr]
    return { k with inputbuf := buf }

/-- A key that appends a text, unless more than `limit` bytes are there. -/
def append (k : Keyboard) (limit : Nat) (text : Str) : Except Fault Keyboard := do
  let n ← bufLen k.inputbuf
  if limit < n then return k
  else
    let buf ← strcat k.inputbuf text
    return { k with inputbuf := buf }

/-- A key that is escaped, unless the input is raw. -/
def escape (k : Keyboard) (inchr : UInt8) (limit : Nat) (text : Str) : Except Fault Keyboard :=
  if k.rawinput then k.addtoinputbuf inchr else k.append limit text

/-- Backspace. -/
def backspace (k : Keyboard) : Except Fault Keyboard := do
  let c ← peek k.inputbuf 0
  if c = 0 then return { k with istyping := false }
  else
    let n ← bufLen k.inputbuf
    let buf ← storeN k.inputbuf (n - 1) [0]
    return { k with inputbuf := buf }

/-- The commands whose first argument the tab key completes. -/
def completed : Str := ascii "milAPpsOSMo"

/-- The tab key: complete a name, if there is exactly one that begins so. -/
def complete (k : Keyboard) (names : List Str) : Except Fault Keyboard := do
  let c ← peek k.inputbuf 0
  if c ∉ completed then return k
  else
    let n ← bufLen k.inputbuf
    let line := k.inputbuf.take n
    if 32 ∈ line then return k
    else
      match names.filter fun sn => (line.drop 1).isPrefixOf sn with
      | [sn] =>
        let buf ← storeN k.inputbuf 1 sn
        if c = 109 then
          let n ← bufLen buf
          let buf ← storeN buf n [32]
          return { k with inputbuf := buf }
        else return { k with inputbuf := buf }
      | _ => return k

/-- The command that `r`, `I` or `L` stands for. -/
def expansion (inchr : UInt8) (lastsn : Str) : Str :=
  if inchr = 114 then ascii "m" ++ lastsn ++ ascii " "
  else if inchr = 73 then ascii "i" ++ lastsn
  else ascii "l" ++ lastsn

/-- `r`, `I` or `L`: at the start of a line a command for the last
correspondent. -/
def expand (k : Keyboard) (env : Surroundings) (inchr : UInt8) : Except Fault Keyboard := do
  let c ← peek k.inputbuf 0
  if c = 0 then
    match env.lastsn with
    | some lastsn =>
      let buf ← snprintfBuf k.inputbuf (expansion inchr lastsn)
      return { k with inputbuf := buf, istyping := true }
    | none =>
      if env.singleLog ∧ inchr = 76 then
        let buf ← snprintfBuf k.inputbuf (ascii "lg")
        return { k with inputbuf := buf }
      else return k
  else k.addtoinputbuf inchr

end Keyboard

/-- The `switch` over a key, as far as it concerns the keyboard. -/
def pressKey (env : Surroundings) (k : Keyboard) (inchr : UInt8) : Except Fault Keyboard :=
  if inchr = 10 ∨ inchr = 13 then .ok k.clear
  else if inchr = 18 then .ok { k with rawinput := !k.rawinput }
  else if inchr = 21 then .ok k.clear
  else if inchr = 12 then .ok k
  else if inchr = 9 then k.complete (env.names.map Subtype.val)
  else if inchr = 8 ∨ inchr = 127 ∨ inchr = 4 then k.backspace
  else if inchr = 2 then k.append 509 (ascii "<br>")
  else if inchr = 34 then k.escape inchr 507 (ascii "&quot;")
  else if inchr = 60 then k.escape inchr 509 (ascii "&lt;")
  else if inchr = 62 then k.escape inchr 509 (ascii "&gt;")
  else if inchr = 38 then k.escape inchr 508 (ascii "&amp;")
  else if inchr = 114 ∨ inchr = 73 ∨ inchr = 76 then k.expand env inchr
  else if inchr < 32 then .ok k
  else k.addtoinputbuf inchr

/-- Keys one after the other, each in its surroundings. -/
def pressKeys (k : Keyboard) (strokes : List (Surroundings × UInt8)) : Except Fault Keyboard :=
  strokes.foldlM (fun k stroke => pressKey stroke.1 k stroke.2) k

/-- The keyboard when `main` starts. -/
def startKeyboard : Keyboard := ⟨List.replicate inputSize 0, false, false⟩

/-! ## the line -/

/-- The line that the buffer is meant to hold. -/
structure Line where
  text : Str
  istyping : Bool
  rawinput : Bool
deriving DecidableEq

namespace Line

/-- A typed character; a full line takes no more. -/
def add (l : Line) (inchr : UInt8) : Line :=
  if l.text.length = 511 then { l with istyping := true }
  else { l with text := l.text ++ [inchr], istyping := true }

/-- A text is appended, unless more than `limit` bytes are there. -/
def append (l : Line) (limit : Nat) (text : Str) : Line :=
  if limit < l.text.length then l else { l with text := l.text ++ text }

def escape (l : Line) (inchr : UInt8) (limit : Nat) (text : Str) : Line :=
  if l.rawinput then l.add inchr else l.append limit text

def backspace (l : Line) : Line :=
  if l.text = [] then { l with istyping := false } else { l with text := l.text.dropLast }

def complete (l : Line) (names : List Str) : Line :=
  match l.text with
  | [] => l
  | c :: typed =>
    if c ∉ Keyboard.completed ∨ 32 ∈ l.text then l
    else
      match names.filter fun sn => typed.isPrefixOf sn with
      | [sn] => { l with text := if c = 109 then c :: sn ++ [32] else c :: sn }
      | _ => l

def expand (l : Line) (env : Surroundings) (inchr : UInt8) : Line :=
  if l.text = [] then
    match env.lastsn with
    | some lastsn =>
      { l with text := (Keyboard.expansion inchr lastsn).take 511, istyping := true }
    | none => if env.singleLog ∧ inchr = 76 then { l with text := ascii "lg" } else l
  else l.add inchr

/-- What a key is meant to do. -/
def press (env : Surroundings) (l : Line) (inchr : UInt8) : Line :=
  if inchr = 10 ∨ inchr = 13 then ⟨[], false, false⟩
  else if inchr = 18 then { l with rawinput := !l.rawinput }
  else if inchr = 21 then ⟨[], false, false⟩
  else if inchr = 12 then l
  else if inchr = 9 then l.complete (env.names.map Subtype.val)
  else if inchr = 8 ∨ inchr = 127 ∨ inchr = 4 then l.backspace
  else if inchr = 2 then l.append 509 (ascii "<br>")
  else if inchr = 34 then l.escape inchr 507 (ascii "&quot;")
  else if inchr = 60 then l.escape inchr 509 (ascii "&lt;")
  else if inchr = 62 then l.escape inchr 509 (ascii "&gt;")
  else if inchr = 38 then l.escape inchr 508 (ascii "&amp;")
  else if inchr = 114 ∨ inchr = 73 ∨ inchr = 76 then l.expand env inchr
  else if inchr < 32 then l
  else l.add inchr

def presses (l : Line) (strokes : List (Surroundings × UInt8)) : Line :=
  strokes.foldl (fun l stroke => l.press stroke.1 stroke.2) l

end Line

/-! ## the buffer holds the line -/

/-- A text in the buffer, with zeros behind it. -/
def padded (s : Str) : List UInt8 := s ++ List.replicate (inputSize - s.length) 0

theorem length_padded {s : Str} (h : s.length ≤ inputSize) : (padded s).length = inputSize := by
  rw [padded, List.length_append, List.length_replicate]
  omega

/-- A terminator is one of the zeros. -/
theorem padded_terminated {s : Str} (h : s.length < inputSize) :
    padded (terminated s) = padded s := by
  have hzeros : inputSize - s.length = (inputSize - (s.length + 1)) + 1 := by omega
  rw [padded, padded, terminated, List.append_assoc, List.length_append, List.length_singleton,
    hzeros, List.replicate_succ]
  rfl

theorem terminated_prefix_padded {s : Str} (h : s.length < inputSize) :
    terminated s <+: padded s := by
  rw [← padded_terminated h]
  exact List.prefix_append _ _

theorem holdsStr_padded {s : Str} (hnul : 0 ∉ s) (h : s.length < inputSize) :
    HoldsStr (padded s) s := ⟨hnul, terminated_prefix_padded h⟩

/-- Bytes stored over the end of the text, or behind it. -/
theorem storeN_padded (pre old bs : Str) {n : Nat} (hn : pre.length = n)
    (hold : old.length ≤ bs.length) (hfit : n + bs.length ≤ inputSize) :
    storeN (padded (pre ++ old)) n bs = .ok (padded (pre ++ bs)) := by
  subst hn
  have hlen : (padded (pre ++ old)).length = inputSize :=
    length_padded (by rw [List.length_append]; omega)
  have hrest : (old ++ List.replicate (inputSize - (pre ++ old).length) 0).drop bs.length =
      List.replicate (inputSize - (pre ++ bs).length) (0 : UInt8) := by
    rw [List.drop_append, List.drop_of_length_le hold, List.nil_append, List.drop_replicate,
      List.length_append, List.length_append]
    congr 1
    omega
  rw [storeN_of_le (by omega), padded, List.append_assoc, poke_append rfl, hrest, padded]

/-- A text does not fit behind one that is too long. -/
theorem storeN_padded_oob (s bs : Str) (hbs : bs ≠ []) (h : s.length ≤ inputSize)
    (hover : inputSize < s.length + bs.length) : storeN (padded s) s.length bs = .error .oob := by
  have hlen := length_padded h
  rw [storeN, if_neg]
  rintro (hnil | hfit)
  · exact hbs hnil
  · omega

/-- The buffer and the flags are those of the line. -/
structure Keyboard.Shows (k : Keyboard) (l : Line) : Prop where
  inputbuf : k.inputbuf = padded l.text
  no_nul : 0 ∉ l.text
  length_le : l.text.length ≤ 511
  istyping : k.istyping = l.istyping
  rawinput : k.rawinput = l.rawinput

namespace Keyboard.Shows

variable {k : Keyboard} {l : Line}

theorem lt (hk : k.Shows l) : l.text.length < inputSize := Nat.lt_succ_of_le hk.length_le

/-- `strlen(inputbuf)` -/
theorem bufLen (hk : k.Shows l) : bufLen k.inputbuf = .ok l.text.length := by
  rw [hk.inputbuf, (holdsStr_padded hk.no_nul hk.lt).bufLen_eq]

theorem cstr_inputbuf (hk : k.Shows l) : cstr k.inputbuf = l.text := by
  rw [hk.inputbuf, (holdsStr_padded hk.no_nul hk.lt).cstr_eq]

/-- `inputbuf[0]` -/
theorem peek_zero (hk : k.Shows l) : peek k.inputbuf 0 = .ok (l.text.headD 0) := by
  have hlt := hk.lt
  rw [hk.inputbuf, padded, peek]
  cases htext : l.text with
  | nil => rfl
  | cons c typed => rfl

theorem head_eq_zero (hk : k.Shows l) : l.text.headD 0 = 0 ↔ l.text = [] := by
  cases htext : l.text with
  | nil => exact ⟨fun _ => rfl, fun _ => rfl⟩
  | cons c typed =>
      refine ⟨?_, fun h => absurd h (List.cons_ne_nil c typed)⟩
      rintro rfl
      exact absurd List.mem_cons_self (htext ▸ hk.no_nul)

/-- A new text in the buffer. -/
theorem with_text (hk : k.Shows l) {text : Str} (hnul : 0 ∉ text) (hlen : text.length ≤ 511) :
    Shows { k with inputbuf := padded text } { l with text := text } :=
  ⟨rfl, hnul, hlen, hk.istyping, hk.rawinput⟩

theorem toggle (hk : k.Shows l) :
    Shows { k with rawinput := !k.rawinput } { l with rawinput := !l.rawinput } :=
  ⟨hk.inputbuf, hk.no_nul, hk.length_le, hk.istyping, by rw [hk.rawinput]⟩

theorem addtoinputbuf (hk : k.Shows l) {inchr : UInt8} (hc : inchr ≠ 0) :
    ∃ k', k.addtoinputbuf inchr = .ok k' ∧ k'.Shows (l.add inchr) := by
  have hlt := hk.lt
  rw [Keyboard.addtoinputbuf, hk.bufLen, ok_bind, Line.add]
  by_cases hfull : l.text.length = 511
  · rw [if_pos hfull, if_pos hfull]
    exact ⟨_, rfl, hk.inputbuf, hk.no_nul, hk.length_le, rfl, hk.rawinput⟩
  · have hstore := storeN_padded l.text [] [inchr] rfl (Nat.zero_le _)
      (by rw [List.length_singleton]; omega)
    rw [List.append_nil, ← hk.inputbuf] at hstore
    rw [if_neg hfull, if_neg hfull, hstore]
    have hlen := hk.length_le
    refine ⟨_, rfl, rfl, ?_, ?_, rfl, hk.rawinput⟩
    · simpa using ⟨hk.no_nul, Ne.symm hc⟩
    · show (l.text ++ [inchr]).length ≤ 511
      rw [List.length_append, List.length_singleton]
      omega

/-- A text is appended, or the line is beyond the limit. -/
theorem append (hk : k.Shows l) {limit : Nat} {text : Str} (hnul : 0 ∉ text)
    (hfit : l.text.length ≤ limit → l.text.length + text.length ≤ 511) :
    ∃ k', k.append limit text = .ok k' ∧ k'.Shows (l.append limit text) := by
  rw [Keyboard.append, hk.bufLen, ok_bind, Line.append]
  by_cases hlimit : limit < l.text.length
  · rw [if_pos hlimit, if_pos hlimit]
    exact ⟨k, rfl, hk⟩
  · have hroom := hfit (Nat.le_of_not_lt hlimit)
    have hlen : (l.text ++ text).length ≤ 511 := by rwa [List.length_append]
    have hstore := storeN_padded l.text [] (terminated text) rfl
      (Nat.zero_le _) (by rw [length_terminated, inputSize]; omega)
    have hterm : l.text ++ terminated text = terminated (l.text ++ text) :=
      (List.append_assoc _ _ _).symm
    rw [List.append_nil, ← hk.inputbuf, hterm, padded_terminated (Nat.lt_succ_of_le hlen)] at hstore
    rw [if_neg hlimit, if_neg hlimit, strcat, hk.bufLen, ok_bind, hstore]
    exact ⟨_, rfl, hk.with_text (by simp [hk.no_nul, hnul]) hlen⟩

/-- A text within the limit for which there is no room. -/
theorem append_overflows (hk : k.Shows l) {limit : Nat} {text : Str}
    (hlimit : l.text.length ≤ limit) (hover : 511 < l.text.length + text.length) :
    k.append limit text = .error .oob := by
  have hstore := storeN_padded_oob l.text (terminated text) (by simp [terminated])
    (Nat.le_of_lt hk.lt) (by rw [length_terminated, inputSize]; omega)
  rw [← hk.inputbuf] at hstore
  rw [Keyboard.append, hk.bufLen, ok_bind, if_neg (Nat.not_lt.mpr hlimit), strcat, hk.bufLen,
    ok_bind, hstore]
  rfl

theorem escape (hk : k.Shows l) {inchr : UInt8} (hc : inchr ≠ 0) {limit : Nat} {text : Str}
    (hnul : 0 ∉ text)
    (hfit : k.rawinput = false → l.text.length ≤ limit → l.text.length + text.length ≤ 511) :
    ∃ k', k.escape inchr limit text = .ok k' ∧ k'.Shows (l.escape inchr limit text) := by
  rw [Keyboard.escape, Line.escape, ← hk.rawinput]
  cases hraw : k.rawinput with
  | true => exact hk.addtoinputbuf hc
  | false => exact hk.append hnul (hfit hraw)

theorem escape_overflows (hk : k.Shows l) (hraw : k.rawinput = false) {inchr : UInt8} {limit : Nat}
    {text : Str} (hlimit : l.text.length ≤ limit) (hover : 511 < l.text.length + text.length) :
    k.escape inchr limit text = .error .oob := by
  rw [Keyboard.escape, hraw]
  exact hk.append_overflows hlimit hover

theorem backspace (hk : k.Shows l) :
    ∃ k', k.backspace = .ok k' ∧ k'.Shows l.backspace := by
  have hlt := hk.lt
  rw [Keyboard.backspace, hk.peek_zero, ok_bind, Line.backspace]
  rcases List.eq_nil_or_concat l.text with htext | ⟨pre, c, htext⟩
  · rw [if_pos (hk.head_eq_zero.mpr htext), if_pos htext]
    exact ⟨_, rfl, hk.inputbuf, hk.no_nul, hk.length_le, rfl, hk.rawinput⟩
  · have hne : l.text ≠ [] := by simp [htext]
    have hlen : l.text.length - 1 = pre.length := by simp [htext]
    have hnul : 0 ∉ pre := fun h => hk.no_nul (by simp [htext, h])
    have hpre : pre.length < inputSize := by omega
    have hstore := storeN_padded pre [c] [0] rfl (Nat.le_refl _)
      (by rw [List.length_singleton]; omega)
    have hterm : padded (pre ++ [0]) = padded pre := padded_terminated hpre
    rw [← List.concat_eq_append, ← htext, ← hk.inputbuf, hterm] at hstore
    have hdrop : l.text.dropLast = pre := by simp [htext]
    rw [if_neg (mt hk.head_eq_zero.mp hne), if_neg hne, hk.bufLen, ok_bind, hlen, hstore, hdrop]
    exact ⟨_, rfl, hk.with_text hnul (Nat.le_of_lt_succ hpre)⟩

/-- A completed name is at least as long as what was typed of it. -/
theorem store_name (hk : k.Shows l) {c : UInt8} {typed sn : Str} (htext : l.text = c :: typed)
    (hle : typed.length ≤ sn.length) (hlen : sn.length ≤ 255) :
    storeN k.inputbuf 1 sn = .ok (padded (c :: sn)) := by
  have hstore := storeN_padded [c] typed sn (n := 1) rfl hle (by simp only [inputSize]; omega)
  rwa [List.singleton_append, List.singleton_append, ← htext, ← hk.inputbuf] at hstore

/-- Exactly one name completes the line, or nothing happens. -/
theorem complete (hk : k.Shows l) {names : List Str}
    (hnames : ∀ sn ∈ names, 0 ∉ sn ∧ sn.length ≤ 255) :
    ∃ k', k.complete names = .ok k' ∧ k'.Shows (l.complete names) := by
  rw [Keyboard.complete, hk.peek_zero, ok_bind, Line.complete]
  cases htext : l.text with
  | nil => exact ⟨k, rfl, hk⟩
  | cons c typed =>
      rw [List.headD_cons]
      by_cases hstart : c ∉ completed
      · rw [if_pos hstart]
        simp only [hstart, not_false_eq_true, true_or, if_true]
        exact ⟨k, rfl, hk⟩
      · have hline : k.inputbuf.take l.text.length = c :: typed := by
          rw [hk.inputbuf, padded, List.take_left, htext]
        rw [if_neg hstart, hk.bufLen, ok_bind]
        simp only [hline, hstart, false_or]
        by_cases hspace : 32 ∈ c :: typed
        · rw [if_pos hspace, if_pos hspace]
          exact ⟨k, rfl, hk⟩
        · rw [if_neg hspace, if_neg hspace, List.drop_one, List.tail_cons]
          -- exactly one name begins with what was typed
          match hmatch : names.filter fun sn => typed.isPrefixOf sn with
          | [] => exact ⟨k, rfl, hk⟩
          | [sn] =>
              have hmem : sn ∈ names.filter fun sn => typed.isPrefixOf sn := by simp [hmatch]
              obtain ⟨hsn, hbefore⟩ := List.mem_filter.mp hmem
              have hle := (List.isPrefixOf_iff_prefix.mp hbefore).length_le
              obtain ⟨hnul, hlen⟩ := hnames sn hsn
              have hc : c ≠ 0 := by
                rintro rfl
                exact hk.no_nul (by simp [htext])
              have hstore := hk.store_name htext hle hlen
              have hnul' : 0 ∉ c :: sn := by simp [hnul, hc.symm]
              have hlt : (c :: sn).length < inputSize := by
                simp only [List.length_cons, inputSize]
                omega
              simp only [hstore, ok_bind]
              by_cases hm : c = 109
              · have hblank := storeN_padded (c :: sn) [] [32] rfl
                  (Nat.zero_le _)
                  (by simp only [List.length_cons, List.length_nil, inputSize]; omega)
                rw [List.append_nil] at hblank
                rw [if_pos hm, if_pos hm, (holdsStr_padded hnul' hlt).bufLen_eq, ok_bind, hblank]
                refine ⟨_, rfl, hk.with_text ?_ ?_⟩
                · simp [hnul, hc.symm]
                · simp only [List.length_append, List.length_cons, List.length_nil]
                  omega
              · rw [if_neg hm, if_neg hm]
                exact ⟨_, rfl, hk.with_text hnul' (Nat.le_of_lt_succ hlt)⟩
          | _ :: _ :: _ => exact ⟨k, rfl, hk⟩

/-- An expansion is cut off at the end of the buffer. -/
theorem snprintfBuf (hk : k.Shows l) (htext : l.text = []) (text : Str) :
    snprintfBuf k.inputbuf text = .ok (padded (text.take 511)) := by
  have hlen : (text.take 511).length ≤ 511 := List.length_take_le _ _
  have hstore := storeN_padded [] [] (terminated (text.take 511)) (n := 0) rfl
    (Nat.zero_le _) (by rw [length_terminated, inputSize]; omega)
  rw [List.nil_append, List.nil_append, padded_terminated (Nat.lt_succ_of_le hlen), ← htext,
    ← hk.inputbuf] at hstore
  exact hstore

theorem expand (hk : k.Shows l) (env : Surroundings) {inchr : UInt8} (hc : inchr ≠ 0) :
    ∃ k', k.expand env inchr = .ok k' ∧ k'.Shows (l.expand env inchr) := by
  rw [Keyboard.expand, hk.peek_zero, ok_bind, Line.expand]
  by_cases htext : l.text = []
  · rw [if_pos (hk.head_eq_zero.mpr htext), if_pos htext]
    cases env.lastsn with
    | some lastsn =>
        have hnul : 0 ∉ (expansion inchr lastsn.val).take 511 := by
          intro h
          have hmem := List.mem_of_mem_take h
          rw [expansion] at hmem
          split_ifs at hmem <;> simp [ascii, lastsn.property] at hmem
        simp only [hk.snprintfBuf htext, ok_bind]
        exact ⟨_, rfl, rfl, hnul, List.length_take_le _ _, rfl, hk.rawinput⟩
    | none =>
        by_cases hlog : env.singleLog ∧ inchr = 76
        · simp only [if_pos hlog, hk.snprintfBuf htext, ok_bind]
          exact ⟨_, rfl, hk.with_text (by decide) (by decide)⟩
        · simp only [if_neg hlog]
          exact ⟨k, rfl, hk⟩
  · rw [if_neg (mt hk.head_eq_zero.mp htext), if_neg htext]
    exact hk.addtoinputbuf hc

end Keyboard.Shows

/-! ## keys -/

/-- A key whose text is within its limit, but does not fit. -/
def Keyboard.Overflows (k : Keyboard) (inchr : UInt8) : Prop :=
  let n := (cstr k.inputbuf).length
  inchr = 2 ∧ (n = 508 ∨ n = 509) ∨
    k.rawinput = false ∧ (inchr = 34 ∧ (n = 506 ∨ n = 507) ∨
      (inchr = 60 ∨ inchr = 62) ∧ (n = 508 ∨ n = 509) ∨ inchr = 38 ∧ (n = 507 ∨ n = 508))

section
variable {k : Keyboard} {l : Line}

/-- Both sides of a `switch` take the same branch. -/
theorem ite_shows {c : Prop} [Decidable c] {a b : Except Fault Keyboard} {x y : Line}
    (ha : c → ∃ k', a = .ok k' ∧ k'.Shows x) (hb : ¬ c → ∃ k', b = .ok k' ∧ k'.Shows y) :
    ∃ k', (if c then a else b) = .ok k' ∧ k'.Shows (if c then x else y) := by
  by_cases hc : c
  · rw [if_pos hc, if_pos hc]
    exact ha hc
  · rw [if_neg hc, if_neg hc]
    exact hb hc

/-- **A key** does to the buffer what it is meant to do to the line. -/
theorem pressKey_line (hk : k.Shows l) (env : Surroundings) {inchr : UInt8}
    (h : ¬ k.Overflows inchr) :
    ∃ k', pressKey env k inchr = .ok k' ∧ k'.Shows (l.press env inchr) := by
  have hclear : k.clear.Shows ⟨[], false, false⟩ :=
    ⟨rfl, List.not_mem_nil, Nat.zero_le _, rfl, rfl⟩
  have hnames : ∀ sn ∈ env.names.map Subtype.val, 0 ∉ sn ∧ sn.length ≤ 255 := by
    intro sn hsn
    obtain ⟨name, -, rfl⟩ := List.mem_map.mp hsn
    exact name.property
  rw [Keyboard.Overflows, hk.cstr_inputbuf, not_or] at h
  obtain ⟨hbreak, hescape⟩ := h
  rw [pressKey, Line.press]
  refine ite_shows (fun _ => ⟨_, rfl, hclear⟩) fun _ => ?_
  refine ite_shows (fun _ => ⟨_, rfl, hk.toggle⟩) fun _ => ?_
  refine ite_shows (fun _ => ⟨_, rfl, hclear⟩) fun _ => ?_
  refine ite_shows (fun _ => ⟨k, rfl, hk⟩) fun _ => ?_
  refine ite_shows (fun _ => hk.complete hnames) fun _ => ?_
  refine ite_shows (fun _ => hk.backspace) fun _ => ?_
  refine ite_shows (fun hbr => hk.append (by decide) fun _ => ?_) fun _ => ?_
  · have hroom := mt (And.intro hbr) hbreak
    have hlen : (ascii "<br>").length = 4 := rfl
    omega
  refine ite_shows
    (fun hquot => hk.escape (by simp [hquot]) (by decide) fun hraw _ => ?_) fun _ => ?_
  · have hroom : ¬ (l.text.length = 506 ∨ l.text.length = 507) :=
      fun hn => hescape ⟨hraw, .inl ⟨hquot, hn⟩⟩
    have hlen : (ascii "&quot;").length = 6 := rfl
    omega
  refine ite_shows (fun hlt => hk.escape (by simp [hlt]) (by decide) fun hraw _ => ?_) fun _ => ?_
  · have hroom : ¬ (l.text.length = 508 ∨ l.text.length = 509) :=
      fun hn => hescape ⟨hraw, .inr (.inl ⟨.inl hlt, hn⟩)⟩
    have hlen : (ascii "&lt;").length = 4 := rfl
    omega
  refine ite_shows (fun hgt => hk.escape (by simp [hgt]) (by decide) fun hraw _ => ?_) fun _ => ?_
  · have hroom : ¬ (l.text.length = 508 ∨ l.text.length = 509) :=
      fun hn => hescape ⟨hraw, .inr (.inl ⟨.inr hgt, hn⟩)⟩
    have hlen : (ascii "&gt;").length = 4 := rfl
    omega
  refine ite_shows (fun hamp => hk.escape (by simp [hamp]) (by decide) fun hraw _ => ?_) fun _ => ?_
  · have hroom : ¬ (l.text.length = 507 ∨ l.text.length = 508) :=
      fun hn => hescape ⟨hraw, .inr (.inr ⟨hamp, hn⟩)⟩
    have hlen : (ascii "&amp;").length = 5 := rfl
    omega
  refine ite_shows (fun hcmd => hk.expand env ?_) fun _ => ?_
  · rcases hcmd with rfl | rfl | rfl <;> decide
  refine ite_shows (fun _ => ⟨k, rfl, hk⟩) fun hprint => hk.addtoinputbuf ?_
  rintro rfl
  exact hprint (by decide)

/-- A key that overflows stores outside the buffer. -/
theorem pressKey_overflows (hk : k.Shows l) (env : Surroundings) {inchr : UInt8}
    (h : k.Overflows inchr) : pressKey env k inchr = .error .oob := by
  rw [Keyboard.Overflows, hk.cstr_inputbuf] at h
  rcases h with ⟨rfl, hn⟩ | ⟨hraw, ⟨rfl, hn⟩ | ⟨rfl | rfl, hn⟩ | ⟨rfl, hn⟩⟩
  · have hpress : pressKey env k 2 = k.append 509 (ascii "<br>") := rfl
    rw [hpress]
    exact hk.append_overflows (by omega) (by simp [ascii]; omega)
  · exact hk.escape_overflows hraw (by omega) (by simp [ascii]; omega)
  · exact hk.escape_overflows hraw (by omega) (by simp [ascii]; omega)
  · exact hk.escape_overflows hraw (by omega) (by simp [ascii]; omega)
  · exact hk.escape_overflows hraw (by omega) (by simp [ascii]; omega)

/-! ## whole runs -/

theorem pressKeys_append (k : Keyboard) (before after : List (Surroundings × UInt8)) :
    pressKeys k (before ++ after) = pressKeys k before >>= fun k => pressKeys k after :=
  List.foldlM_append

theorem startKeyboard_shows : startKeyboard.Shows ⟨[], false, false⟩ :=
  ⟨rfl, List.not_mem_nil, Nat.zero_le _, rfl, rfl⟩

/-- Keys that do what they are meant to do, one after the other. -/
theorem pressKeys_line (strokes : List (Surroundings × UInt8)) (hk : k.Shows l)
    (h : ∀ before stroke k', before ++ [stroke] <+: strokes → pressKeys k before = .ok k' →
      ¬ k'.Overflows stroke.2) :
    ∃ k', pressKeys k strokes = .ok k' ∧
      k'.Shows (l.presses strokes) := by
  induction strokes using List.reverseRecOn with
  | nil => exact ⟨k, rfl, hk⟩
  | append_singleton before stroke ih =>
      obtain ⟨k₁, hrun, hk₁⟩ := ih fun b s k' hb => h b s k' (hb.trans (List.prefix_append _ _))
      obtain ⟨k₂, hpress, hk₂⟩ := pressKey_line hk₁ stroke.1
        (h before stroke k₁ (List.prefix_refl _) hrun)
      refine ⟨k₂, ?_, ?_⟩
      · rw [pressKeys_append, hrun, ok_bind]
        exact (bind_pure _).trans hpress
      · rw [Line.presses, List.foldl_append]
        exact hk₂

/-- A key that stored inside the buffer did what it is meant to do. -/
theorem pressKey_shows (hk : k.Shows l) {env : Surroundings} {inchr : UInt8} {k' : Keyboard}
    (h : pressKey env k inchr = .ok k') : k'.Shows (l.press env inchr) := by
  have hfits : ¬ k.Overflows inchr := fun hover => by
    rw [pressKey_overflows hk env hover] at h
    cases h
  obtain ⟨k₁, hpress, hk₁⟩ := pressKey_line hk env hfits
  rw [h, Except.ok.injEq] at hpress
  exact hpress ▸ hk₁

/-- The buffer of every run that stored inside it holds a line. -/
theorem pressKeys_shows (hk : k.Shows l) {strokes : List (Surroundings × UInt8)} {k' : Keyboard}
    (h : pressKeys k strokes = .ok k') :
    k'.Shows (l.presses strokes) := by
  induction strokes generalizing k l with
  | nil =>
      obtain rfl := Except.ok.inj h
      exact hk
  | cons stroke strokes ih =>
      obtain ⟨k₁, hpress, hrest⟩ := bind_eq_ok h
      exact ih (pressKey_shows hk hpress) hrest

/-- A run ends with a key that overflows. -/
theorem pressKeys_overflows {before : List (Surroundings × UInt8)} {stroke : Surroundings × UInt8}
    (hrun : pressKeys startKeyboard before = .ok k) (h : k.Overflows stroke.2) :
    pressKeys startKeyboard (before ++ [stroke]) = .error .oob := by
  have hpress := pressKey_overflows (pressKeys_shows startKeyboard_shows hrun) stroke.1 h
  rw [pressKeys_append, hrun, ok_bind, pressKeys, List.foldlM_cons, hpress, error_bind]

/-- A NUL-terminated string of at most 511 bytes, in 512 bytes. -/
def Keyboard.Bounded (k : Keyboard) : Prop :=
  k.inputbuf.length = inputSize ∧
    ∃ line : Str, 0 ∉ line ∧ line.length ≤ 511 ∧ terminated line <+: k.inputbuf

theorem Keyboard.Shows.bounded (hk : k.Shows l) : k.Bounded := by
  rw [Keyboard.Bounded, hk.inputbuf]
  exact ⟨length_padded (Nat.le_of_lt hk.lt), l.text, hk.no_nul, hk.length_le,
    terminated_prefix_padded hk.lt⟩

/-- **The bound of the input line**: every key of a run leaves a terminated
string in the buffer, exactly if none of them overflows. -/
theorem input_line_bound (strokes : List (Surroundings × UInt8)) :
    (∀ before, before <+: strokes → ∃ k, pressKeys startKeyboard before = .ok k ∧ k.Bounded) ↔
      ∀ before stroke k, before ++ [stroke] <+: strokes →
        pressKeys startKeyboard before = .ok k → ¬ k.Overflows stroke.2 := by
  constructor
  · intro h before stroke k hbefore hrun hover
    obtain ⟨k', hrun', -⟩ := h _ hbefore
    rw [pressKeys_overflows hrun hover] at hrun'
    cases hrun'
  · intro h before hbefore
    obtain ⟨k, hrun, hk⟩ := pressKeys_line before startKeyboard_shows
      fun b s k' hb => h b s k' (hb.trans hbefore)
    exact ⟨k, hrun, hk.bounded⟩

/-- One plain character, typed again and again. -/
theorem presses_plain (env : Surroundings) {n : Nat} (hn : n ≤ 511) :
    ∃ istyping, Line.presses ⟨[], false, false⟩ (List.replicate n (env, 97)) =
      ⟨List.replicate n 97, istyping, false⟩ := by
  induction n with
  | zero => exact ⟨false, rfl⟩
  | succ n ih =>
      obtain ⟨istyping, htext⟩ := ih (by omega)
      have hroom : (List.replicate n (97 : UInt8)).length ≠ 511 := by
        rw [List.length_replicate]
        omega
      refine ⟨true, ?_⟩
      rw [Line.presses] at htext
      rw [List.replicate_succ', Line.presses, List.foldl_append, htext, List.replicate_succ']
      exact if_neg hroom

/-- A line break behind 508 characters: its terminator falls on the byte
behind the buffer. -/
theorem input_line_overrun :
    ¬ ∀ before, before <+: List.replicate 508 (⟨[], none, false⟩, 97) ++ [(⟨[], none, false⟩, 2)] →
      ∃ k, pressKeys startKeyboard before = .ok k ∧ k.Bounded := by
  intro h
  obtain ⟨k, hrun, -⟩ := h (List.replicate 508 (⟨[], none, false⟩, 97)) (List.prefix_append _ _)
  obtain ⟨istyping, htext⟩ := presses_plain ⟨[], none, false⟩ (n := 508) (by decide)
  have hk := pressKeys_shows startKeyboard_shows hrun
  rw [htext] at hk
  have hover : k.Overflows 2 := by
    rw [Keyboard.Overflows, hk.cstr_inputbuf]
    exact .inl ⟨rfl, .inl List.length_replicate⟩
  obtain ⟨k', hrun', -⟩ := h _ (List.prefix_refl _)
  rw [pressKeys_overflows hrun hover] at hrun'
  cases hrun'

end

end Bsflite
