import Bsflite.Handle

/-!
# Bsflite.CString

C strings in memory: reading and comparing a terminated string, and the
library functions that write one into a block.  A read or a write outside its
block is a `Fault`.

`HoldsStr buf s` says that the block `buf` holds the string `s` at its front;
the functions are specified by it.
-/

namespace Bsflite

/-! ## strings and blocks -/

/-- A C string in memory. -/
def terminated (s : Str) : List UInt8 := s ++ [0]

theorem length_terminated (s : Str) : (terminated s).length = s.length + 1 := by
  rw [terminated, List.length_append, List.length_singleton]

/-- `memcpy` of `bs` to index `i` on; copying nothing writes nothing. -/
def storeN (buf : List UInt8) (i : Nat) (bs : List UInt8) : Except Fault (List UInt8) :=
  if bs = [] ∨ i + bs.length ≤ buf.length then .ok (poke buf i bs) else .error .oob

/-- `strncmp(s + i, pat, strlen(pat)) == 0`, or `strncasecmp` with `tolower`
for `fold`: bytes are read up to the first difference. -/
def comparesAt (fold : UInt8 → UInt8) (mem : List UInt8) : Nat → Str → Except Fault Bool
  | _, [] => return true
  | i, p :: pat => do
    let c ← peek mem i
    if fold c = fold p then comparesAt fold mem (i + 1) pat else return false

/-- `strlen` -/
def bufLen (buf : List UInt8) : Except Fault Nat :=
  if 0 ∈ buf then .ok (cstr buf).length else .error .oob

/-- The string at index `i`, as `%s` reads it. -/
def strAt (mem : List UInt8) (i : Nat) : Except Fault Str :=
  if 0 ∈ mem.drop i then .ok (cstr (mem.drop i)) else .error .oob

/-- `strchr`, from index `i` on, for the bytes left. -/
def strchrLoop (c : UInt8) : Nat → List UInt8 → Except Fault (Option Nat)
  | _, [] => .error .oob
  | i, b :: rest =>
    if b = c then return some i else if b = 0 then return none else strchrLoop c (i + 1) rest

/-- `strchr(s + i, c)` -/
def strchr (mem : List UInt8) (i : Nat) (c : UInt8) : Except Fault (Option Nat) :=
  strchrLoop c i (mem.drop i)

/-- `strstr(s, pat) != NULL` -/
def strstr (pat : Str) : List UInt8 → Except Fault Bool
  | [] => .error .oob
  | b :: rest => do
    let same ← comparesAt id (b :: rest) 0 pat
    if same then return true else if b = 0 then return false else strstr pat rest

/-- What `strncpy` of `n` bytes from index `i` on stores: behind the end of
the string, zeros. -/
def strncpyBytes (mem : List UInt8) : Nat → Nat → Except Fault (List UInt8)
  | _, 0 => return []
  | i, n + 1 => do
    let c ← peek mem i
    if c = 0 then return List.replicate (n + 1) 0
    else
      let bs ← strncpyBytes mem (i + 1) n
      return c :: bs

/-- `strncpy(buf, s + i, n)` -/
def strncpy (buf mem : List UInt8) (i n : Nat) : Except Fault (List UInt8) := do
  let bs ← strncpyBytes mem i n
  storeN buf 0 bs

/-- `strcat` -/
def strcat (buf : List UInt8) (text : Str) : Except Fault (List UInt8) := do
  let n ← bufLen buf
  storeN buf n (terminated text)

/-- `strcpy` -/
def strcpy (buf : List UInt8) (text : Str) : Except Fault (List UInt8) :=
  storeN buf 0 (terminated text)

/-! ## reading -/

/-- A byte of the string. -/
theorem peek_terminated {s rest : Str} {c : UInt8} {i : Nat} (h : s.drop i = c :: rest) :
    peek (terminated s) i = .ok c := by
  have hget : s[i]? = some c := by
    have hhead := congrArg (fun l => l[0]?) h
    simpa using hhead
  have hlt := (List.getElem?_eq_some_iff.mp hget).1
  rw [peek, terminated, List.getElem?_append_left hlt, hget]

/-- The byte behind the string. -/
theorem peek_terminator (s : Str) : peek (terminated s) s.length = .ok 0 := by
  rw [peek, terminated, List.getElem?_append_right (Nat.le_refl _), Nat.sub_self]
  rfl

/-- Any byte of the string or its terminator. -/
theorem peek_terminated_getD {s : Str} {i : Nat} (h : i ≤ s.length) :
    peek (terminated s) i = .ok (s[i]?.getD 0) := by
  by_cases hlt : i < s.length
  · rw [peek_terminated (List.drop_eq_getElem_cons hlt), List.getElem?_eq_getElem hlt]
    rfl
  · have hend : i = s.length := by omega
    rw [hend, peek_terminator, List.getElem?_eq_none (Nat.le_refl _)]
    rfl

/-- A slice of the string. -/
theorem peekN_terminated {s : Str} {i n : Nat} (h : i + n ≤ s.length) :
    peekN (terminated s) i n = .ok ((s.drop i).take n) := by
  have hlen := length_terminated s
  rw [peekN, if_pos (by omega), terminated, List.drop_append_of_le_length (by omega),
    List.take_append_of_le_length (by rw [List.length_drop]; omega)]

/-- A comparison with as many bytes as there are. -/
theorem comparesAt_terminated (fold : UInt8 → UInt8) {s : Str} (pat : Str) {i : Nat}
    (h : i + pat.length ≤ s.length) :
    comparesAt fold (terminated s) i pat =
      .ok (decide (((s.drop i).take pat.length).map fold = pat.map fold)) := by
  induction pat generalizing i with
  | nil => rfl
  | cons p pat ih =>
      rw [List.length_cons] at h
      have hdrop : s.drop i = s[i] :: s.drop (i + 1) := List.drop_eq_getElem_cons (by omega)
      rw [comparesAt, peek_terminated hdrop, ok_bind, hdrop, List.length_cons, List.take_succ_cons,
        List.map_cons, List.map_cons, ih (by omega)]
      by_cases hc : fold s[i] = fold p
      · rw [if_pos hc]
        simp only [List.cons.injEq, hc, true_and]
      · rw [if_neg hc]
        simp only [List.cons.injEq, hc, false_and, decide_false]
        rfl

/-- A comparison stops at the first difference, at the terminator at the
latest. -/
theorem comparesAt_isPrefixOf {s : Str} {pat : Str} (hpat : 0 ∉ pat) {i : Nat}
    (h : i ≤ s.length) :
    comparesAt id (terminated s) i pat = .ok (pat.isPrefixOf (s.drop i)) := by
  induction pat generalizing i with
  | nil => rfl
  | cons p pat ih =>
      rw [List.mem_cons, not_or] at hpat
      by_cases hlt : i < s.length
      · have hdrop : s.drop i = s[i] :: s.drop (i + 1) := List.drop_eq_getElem_cons hlt
        rw [comparesAt, peek_terminated hdrop, ok_bind, hdrop, List.isPrefixOf_cons_cons]
        by_cases hc : s[i] = p
        · rw [if_pos (congrArg id hc), ih hpat.2 hlt, hc, beq_self_eq_true, Bool.true_and]
        · rw [if_neg (by simpa using hc), beq_false_of_ne (Ne.symm hc), Bool.false_and]
          rfl
      · have hend : i = s.length := by omega
        rw [comparesAt, hend, peek_terminator, ok_bind, if_neg (by simpa using hpat.1),
          List.drop_length]
        rfl

/-! ## writing -/

theorem storeN_of_le {buf bs : List UInt8} {i : Nat} (h : i + bs.length ≤ buf.length) :
    storeN buf i bs = .ok (poke buf i bs) := if_pos (.inr h)

/-- Bytes stored behind the text written so far extend it. -/
theorem storeN_take {buf pre : List UInt8} (bs : List UInt8) {n : Nat} (h : buf.take n = pre)
    (hfit : n + bs.length ≤ buf.length) :
    ∃ buf', storeN buf n bs = .ok buf' ∧ buf'.length = buf.length ∧
      buf'.take (n + bs.length) = pre ++ bs :=
  ⟨_, storeN_of_le hfit, length_poke hfit, by rw [take_poke (by omega), h]⟩

/-- The block holds the string, and whatever follows. -/
structure HoldsStr (buf : List UInt8) (s : Str) : Prop where
  no_nul : 0 ∉ s
  front : terminated s <+: buf

namespace HoldsStr

variable {buf : List UInt8} {s : Str}

theorem length_lt (h : HoldsStr buf s) : s.length < buf.length := by
  have hle := h.front.length_le
  rw [length_terminated] at hle
  omega

theorem cstr_eq (h : HoldsStr buf s) : cstr buf = s := by
  obtain ⟨tail, rfl⟩ := h.front
  rw [cstr, terminated, List.append_assoc]
  exact takeWhile_ne_append h.no_nul tail

/-- `strlen` finds the terminator. -/
theorem bufLen_eq (h : HoldsStr buf s) : bufLen buf = .ok s.length := by
  have hmem : 0 ∈ buf := h.front.subset (by simp [terminated])
  rw [bufLen, if_pos hmem, h.cstr_eq]

/-- `%s` prints the string. -/
theorem strAt_eq {i : Nat} (h : HoldsStr (buf.drop i) s) : strAt buf i = .ok s := by
  have hmem : 0 ∈ buf.drop i := h.front.subset (by simp [terminated])
  rw [strAt, if_pos hmem, h.cstr_eq]

/-- A block without a byte to spare. -/
theorem eq_terminated (h : HoldsStr buf s) (hlen : buf.length = s.length + 1) :
    buf = terminated s :=
  (h.front.eq_of_length (by rw [length_terminated, hlen])).symm

end HoldsStr

/-- The bytes behind the first NUL are not read. -/
theorem holdsStr_cstr (chunk : Str) : HoldsStr (terminated chunk) (cstr chunk) := by
  refine ⟨zero_notMem_cstr chunk, ?_⟩
  by_cases h0 : 0 ∈ chunk
  · obtain ⟨front, rest, rfl, hfront⟩ := List.eq_append_cons_of_mem h0
    refine ⟨rest ++ [0], ?_⟩
    rw [cstr, takeWhile_ne_append hfront]
    simp [terminated]
  · rw [cstr_of_no_nul h0]

theorem strchrLoop_word {c : UInt8} {word rest : List UInt8} (hc : c ∉ word) (h0 : 0 ∉ word)
    (i : Nat) : strchrLoop c i (word ++ rest) = strchrLoop c (i + word.length) rest := by
  induction word generalizing i with
  | nil => rfl
  | cons b word ih =>
      rw [List.mem_cons, not_or] at hc h0
      rw [List.cons_append, strchrLoop, if_neg (Ne.symm hc.1), if_neg (Ne.symm h0.1),
        ih hc.2 h0.2, List.length_cons]
      congr 1
      omega

/-- `strchr` finds the first of the characters, if there is one. -/
theorem HoldsStr.strchr_eq {buf : List UInt8} {s : Str} (h : HoldsStr buf s) {c : UInt8}
    (hc : c ≠ 0) :
    strchr buf 0 c = .ok (if c ∈ s then some (s.takeWhile (· ≠ c)).length else none) := by
  obtain ⟨tail, rfl⟩ := h.front
  rw [strchr, List.drop_zero, terminated, List.append_assoc]
  by_cases hmem : c ∈ s
  · obtain ⟨word, rest, rfl, hword⟩ := List.eq_append_cons_of_mem hmem
    rw [List.append_assoc, strchrLoop_word hword fun h0 => h.no_nul (List.mem_append_left _ h0),
      if_pos hmem, takeWhile_ne_append hword]
    simp [strchrLoop]
    rfl
  · rw [strchrLoop_word hmem h.no_nul, if_neg hmem]
    simp [strchrLoop, Ne.symm hc]
    rfl

/-- A comparison stops in the string, whatever stands behind it. -/
theorem HoldsStr.comparesAt_eq {s pat : Str} {buf : List UInt8} (hheld : HoldsStr buf s)
    (hpat : 0 ∉ pat) : comparesAt id buf 0 pat = .ok (pat.isPrefixOf s) := by
  obtain ⟨tail, rfl⟩ := hheld.front
  have hsame : ∀ (pat : Str) (i : Nat) (b : Bool), comparesAt id (terminated s) i pat = .ok b →
      comparesAt id (terminated s ++ tail) i pat = .ok b := by
    intro pat
    induction pat with
    | nil => exact fun _ _ h => h
    | cons p pat ih =>
        intro i b h
        rw [comparesAt] at h ⊢
        obtain ⟨c, hc, h⟩ := bind_eq_ok h
        have hlt : i < (terminated s).length := by
          by_contra hge
          rw [peek, List.getElem?_eq_none (Nat.le_of_not_lt hge)] at hc
          cases hc
        rw [show peek (terminated s ++ tail) i = .ok c by
          rwa [peek, List.getElem?_append_left hlt], ok_bind]
        split at h
        · next heq => rw [if_pos heq, ih _ _ h]
        · next hne => rw [if_neg hne]; exact h
  exact hsame pat 0 _ (comparesAt_isPrefixOf hpat (Nat.zero_le _))

/-- `strstr` searches the string, whatever stands behind it. -/
theorem HoldsStr.strstr_eq {buf : List UInt8} {s pat : Str} (h : HoldsStr buf s) (hpat : 0 ∉ pat) :
    strstr pat buf = .ok (decide (pat <:+: s)) := by
  induction s generalizing buf with
  | nil =>
      obtain ⟨tail, rfl⟩ := h.front
      rw [terminated, List.nil_append, List.singleton_append] at h ⊢
      rw [strstr, h.comparesAt_eq hpat, ok_bind]
      cases pat <;> simp <;> rfl
  | cons b s ih =>
      obtain ⟨tail, rfl⟩ := h.front
      have hnul := h.no_nul
      rw [List.mem_cons, not_or] at hnul
      have hrest : HoldsStr (terminated s ++ tail) s := ⟨hnul.2, List.prefix_append _ _⟩
      rw [terminated, List.cons_append, List.cons_append, ← terminated] at h ⊢
      rw [strstr, h.comparesAt_eq hpat, ok_bind, if_neg (Ne.symm hnul.1), ih hrest]
      by_cases hpre : pat <+: b :: s
      · simp [hpre, List.infix_cons_iff]
        rfl
      · simp [hpre, List.infix_cons_iff]

/-- A string stored behind the front of a block, when there is room for it. -/
theorem storeN_terminated {buf pre text : List UInt8} {n : Nat} (hpre : buf.take n = pre)
    (hnul : 0 ∉ pre ++ text) (hfit : n + text.length < buf.length) :
    ∃ buf', storeN buf n (terminated text) = .ok buf' ∧ HoldsStr buf' (pre ++ text) ∧
      buf'.length = buf.length := by
  obtain ⟨buf', hstore, hlen, htake⟩ := storeN_take (terminated text) hpre
    (by rw [length_terminated]; omega)
  refine ⟨buf', hstore, ⟨hnul, ?_⟩, hlen⟩
  have hfront := List.take_prefix (n + (terminated text).length) buf'
  rwa [htake, terminated, ← List.append_assoc] at hfront

/-- `strcat`, when there is room for the text. -/
theorem HoldsStr.strcat_eq {buf : List UInt8} {s text : Str} (h : HoldsStr buf s)
    (htext : 0 ∉ text) (hfit : s.length + text.length < buf.length) :
    ∃ buf', strcat buf text = .ok buf' ∧ HoldsStr buf' (s ++ text) ∧ buf'.length = buf.length := by
  have hpre : buf.take s.length = s := by
    obtain ⟨tail, rfl⟩ := h.front
    rw [terminated, List.append_assoc]
    exact List.take_left
  have hnul : 0 ∉ s ++ text := by
    rw [List.mem_append, not_or]
    exact ⟨h.no_nul, htext⟩
  rw [strcat, h.bufLen_eq, ok_bind]
  exact storeN_terminated hpre hnul hfit

/-- `strcpy`, when there is room for the text. -/
theorem strcpy_eq {buf : List UInt8} {text : Str} (htext : 0 ∉ text)
    (hfit : text.length < buf.length) :
    ∃ buf', strcpy buf text = .ok buf' ∧ HoldsStr buf' text ∧ buf'.length = buf.length :=
  storeN_terminated List.take_zero htext (by omega)

/-- The rest of a string is a string. -/
theorem holdsStr_drop {s : Str} (hnul : 0 ∉ s) {i : Nat} (hi : i ≤ s.length) :
    HoldsStr ((terminated s).drop i) (s.drop i) := by
  refine ⟨fun h => hnul (List.mem_of_mem_drop h), ?_⟩
  rw [terminated, terminated, List.drop_append_of_le_length hi]

/-- `%s` prints the rest of a string. -/
theorem HoldsStr.strAt_drop {buf : List UInt8} {s : Str} (h : HoldsStr buf s) {i : Nat}
    (hi : i ≤ s.length) : strAt buf i = .ok (s.drop i) := by
  obtain ⟨tail, rfl⟩ := h.front
  have hdrop := holdsStr_drop h.no_nul hi
  refine HoldsStr.strAt_eq ⟨hdrop.no_nul, ?_⟩
  rw [List.drop_append_of_le_length (by rw [length_terminated]; omega)]
  exact hdrop.front.trans (List.prefix_append _ _)

theorem strncpyBytes_eq {s : Str} (hnul : 0 ∉ s) (text rest : Str) {i : Nat}
    (hdrop : s.drop i = text ++ rest) : strncpyBytes (terminated s) i text.length = .ok text := by
  induction text generalizing i with
  | nil => rfl
  | cons c text ih =>
      have hc : c ≠ 0 := by
        rintro rfl
        refine hnul (List.mem_of_mem_drop (i := i) ?_)
        rw [hdrop]
        exact List.mem_cons_self
      have hnext : s.drop (i + 1) = text ++ rest := by
        rw [← List.drop_drop, hdrop]
        rfl
      rw [List.length_cons, strncpyBytes, peek_terminated hdrop, ok_bind, if_neg hc, ih hnext]
      rfl

/-- `strncpy` of a part of a string, and a terminator behind it. -/
theorem strncpy_eq {s : Str} (hnul : 0 ∉ s) {text rest : Str} {i : Nat}
    (hdrop : s.drop i = text ++ rest) {buf : List UInt8} (hfit : text.length < buf.length) :
    ∃ copied ended, strncpy buf (terminated s) i text.length = .ok copied ∧
      storeN copied text.length [0] = .ok ended ∧ HoldsStr ended text := by
  have htext : 0 ∉ text := fun h => hnul (List.mem_of_mem_drop (i := i) (by
    rw [hdrop]
    exact List.mem_append_left rest h))
  obtain ⟨copied, hcopy, hlen, htake⟩ :=
    storeN_take text (show buf.take 0 = [] from List.take_zero) (by omega)
  rw [Nat.zero_add, List.nil_append] at htake
  obtain ⟨ended, hend, hheld, -⟩ := storeN_terminated htake
    (show 0 ∉ text ++ [] by rwa [List.append_nil]) (by rw [List.length_nil]; omega)
  rw [List.append_nil] at hheld
  exact ⟨copied, ended, by rw [strncpy, strncpyBytes_eq hnul text rest hdrop, ok_bind, hcopy], hend,
    hheld⟩

/-- `memset` of a whole block. -/
theorem storeN_zeros {buf : List UInt8} {n : Nat} (h : buf.length = n) :
    storeN buf 0 (List.replicate n 0) = .ok (List.replicate n 0) := by
  rw [storeN_of_le (by rw [List.length_replicate]; omega), poke, List.take_zero, List.nil_append,
    Nat.zero_add, List.length_replicate, List.drop_eq_nil_of_le h.le, List.append_nil]

/-- Behind a string in zeros there is a terminator. -/
theorem storeN_cleared {text : Str} (htext : 0 ∉ text) {n : Nat} (hfit : text.length < n) :
    ∃ buf, storeN (List.replicate n 0) 0 text = .ok buf ∧ HoldsStr buf text ∧ buf.length = n := by
  have hle : 0 + text.length ≤ (List.replicate n (0 : UInt8)).length := by
    rw [List.length_replicate]
    omega
  refine ⟨_, storeN_of_le hle, ⟨htext, ?_⟩, by rw [length_poke hle, List.length_replicate]⟩
  obtain ⟨k, rfl⟩ := Nat.exists_eq_add_of_lt hfit
  rw [poke, List.take_zero, List.nil_append, Nat.zero_add, List.drop_replicate,
    Nat.add_assoc, Nat.add_sub_cancel_left, List.replicate_succ]
  exact ⟨List.replicate k 0, List.append_assoc _ _ _⟩

end Bsflite
